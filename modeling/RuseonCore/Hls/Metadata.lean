import RuseonCore.Hls.Segmentation
import RuseonCore.Hls.Sharing

/-!
# Delivery of metadata

Metadata and frames reach `Muxer.run` on two channels.  A request waits in
`currentMeta` until the open segment is closed, and is then rendered as a cue of
that segment.  Copies of segments that the watchdog publishes have no subtitles.

A receipt is a request together with the number of segments that were closed
before it arrived, which is the position of the first segment that is closed
afterwards.
-/

namespace RuseonCore
namespace Hls

open Buffer Rtsp Transition

/-- Metadata that a step delivers to the loop; a nil request is dropped. -/
def LoopStep.received : LoopStep → Option MetadataRequest
  | .metadata req => req
  | _ => none

/-- Cues of a segment. -/
def Segment.cues (seg : Segment) : List Cue :=
  (seg.vttData.map WebVTT.cues).getD []

/-- Cues of a segment that the loop has published. -/
def Publication.cues (seg : Publication) : List Cue :=
  (seg.vttData.map WebVTT.cues).getD []

/-! ## Copies -/

namespace Muxer

/-- Copies made by the watchdog have no subtitles. -/
def PlainCopies (heap : List Segment) : Prop :=
  ∀ seg ∈ heap, seg.copied = true → seg.vttData = none

theorem PlainCopies.modify
    {change : Segment → Segment}
    (copied : ∀ seg, (change seg).copied = seg.copied)
    (vttData : ∀ seg, (change seg).vttData = seg.vttData)
    {heap : List Segment}
    (plain : PlainCopies heap)
    (p : Nat) :
    PlainCopies (heap.modify p change) := by
  intro seg member
  obtain ⟨i, present⟩ := List.mem_iff_getElem?.mp member
  rw [List.getElem?_modify] at present
  obtain ⟨before, there, rfl⟩ := Option.map_eq_some_iff.mp present
  have known := plain before (List.mem_of_getElem? there)
  split
  · rw [copied, vttData]
    exact known
  · exact known

theorem PlainCopies.release
    {heap : List Segment}
    (plain : PlainCopies heap)
    (p : Nat) :
    PlainCopies (heap.modify p Segment.release) :=
  plain.modify Segment.copied_release vttData_release p

theorem PlainCopies.release_all
    {heap : List Segment}
    (plain : PlainCopies heap)
    (window : List Nat) :
    PlainCopies (window.foldl (fun heap p => heap.modify p Segment.release) heap) := by
  induction window generalizing heap with
  | nil => exact plain
  | cons p window inductionHypothesis => exact inductionHypothesis (plain.release p)

theorem PlainCopies.append
    {m : Muxer}
    (plain : PlainCopies m.heap)
    {seg : Segment}
    (new : seg.copied = true → seg.vttData = none)
    (format : SecondsFormat) :
    PlainCopies ((m.appendSegment seg).rebuildPlaylistsLocked format).heap := by
  have longer : PlainCopies (m.heap ++ [seg]) := by
    intro other member
    rcases List.mem_append.mp member with old | last
    · exact plain other old
    · rw [List.mem_singleton.mp last]
      exact new
  rw [heap_rebuild, appendSegment, evict]
  split
  · split
    · exact longer.release _
    · exact longer
  · exact longer

/-- Reading the segments with the copies gives the same cues as reading the
published ones. -/
theorem flatMap_cues
    {heap : List Segment}
    (plain : PlainCopies heap) :
    heap.flatMap Segment.cues =
      (heap.filterMap Segment.publication).flatMap Publication.cues := by
  induction heap with
  | nil => rfl
  | cons seg heap inductionHypothesis =>
      have rest := inductionHypothesis fun other member =>
        plain other (List.mem_cons_of_mem seg member)
      rw [List.flatMap_cons, rest]
      cases copied : seg.copied with
      | false => simp [Segment.publication, copied, Segment.cues, Publication.cues]
      | true =>
          have none := plain seg List.mem_cons_self copied
          simp [Segment.publication, copied, Segment.cues, none]

end Muxer

theorem Serving.plainCopies_step
    (format : SecondsFormat)
    (serving : Serving)
    (action : ServingStep)
    (next : Serving)
    (plain : Muxer.PlainCopies serving.muxer.heap)
    (taken : serving.step format action = some next) :
    Muxer.PlainCopies next.muxer.heap := by
  cases action with
  | storeFrameTime now =>
      rw [← Option.some.inj taken]
      exact plain
  | flagDiscontinuity =>
      rw [← Option.some.inj taken]
      exact plain
  | publish duration content vttData =>
      obtain ⟨_, rfl⟩ := Serving.publish_cases taken
      apply Muxer.PlainCopies.append
      · exact plain
      · simp
  | checkWatchdog seen now =>
      rw [← Option.some.inj taken]
      rcases serving.muxer.checkWatchdog_cases format seen now with
        same | ⟨lastSeg, _, _, repeated⟩
      · dsimp only
        rw [same]
        exact plain
      · dsimp only
        rw [repeated]
        apply Muxer.PlainCopies.append
        · exact plain
        · exact fun _ => rfl
  | acquireSegment name =>
      rcases Serving.acquireSegment_cases taken with rfl | ⟨p, _, rfl⟩
      · exact plain
      · apply Muxer.PlainCopies.modify
        · exact fun _ => rfl
        · exact fun _ => rfl
        · exact plain
  | release p =>
      obtain ⟨_, rfl⟩ := Serving.release_cases taken
      exact plain.release p
  | getPlaylist =>
      rcases Serving.getPlaylist_cases taken with rfl | rfl
      · exact plain
      · rw [Muxer.heap_rebuild]
        exact plain
  | getSubsPlaylist =>
      rcases Serving.getSubsPlaylist_cases taken with rfl | rfl
      · exact plain
      · rw [Muxer.heap_rebuild]
        exact plain
  | stop =>
      rw [← Option.some.inj taken]
      exact plain.release_all _

namespace Loop

/-! ## Effect of a step on the metadata -/

@[simp] theorem currentMeta_mux (l : Loop) (f : Frame) :
    (l.mux f).currentMeta = l.currentMeta := by
  unfold mux
  split
  · rfl
  · split <;> rfl

/-- The pending requests go with the segment that the frame closes. -/
theorem currentMeta_handle
    (format : SecondsFormat)
    (l : Loop)
    (f : Frame)
    (now : Int64) :
    (l.handle format f now).currentMeta = if l.due f then [] else l.currentMeta := by
  obtain ⟨frameCount, lastFrameTime, ready⟩ := l.refresh_receive f now
  have sameDue : (l.prepared f frameCount lastFrameTime).due f = l.due f := rfl
  rw [handle, currentMeta_mux, ready]
  cases late : l.due f with
  | false =>
      rw [close_early (sameDue.trans late)]
      rfl
  | true =>
      have active : l.currentBuf.isSome = true := by
        simp only [due, Bool.and_eq_true] at late
        exact late.1.1
      obtain ⟨content, active⟩ := Option.isSome_iff_exists.mp active
      have sameBuf : (l.prepared f frameCount lastFrameTime).currentBuf = some content :=
        active
      rw [close_late sameBuf (sameDue.trans late)]
      rfl

/-- What a step does with the metadata. -/
inductive Feeds (l : Loop) (label : LoopStep) (next : Loop) : Prop
  | received
      (req : MetadataRequest)
      (arrives : label.received = some req)
      (published : next.published = l.published)
      (pending : next.currentMeta = l.currentMeta ++ [req])
  | closed
      (nothing : label.received = none)
      (seg : Publication)
      (active : l.currentBuf = some seg.muxed)
      (vttData : seg.vttData = some (webVTT l.segmentStart l.currentMeta))
      (published : next.published = l.published ++ [seg])
      (pending : next.currentMeta = [])
  | kept
      (nothing : label.received = none)
      (published : next.published = l.published)
      (pending : next.currentMeta = l.currentMeta)

theorem feeds_of_frame
    {format : SecondsFormat}
    {l next : Loop}
    {f : Frame}
    {now : Int64}
    (taken : l.step format (.frame f now) = some next) :
    l.Feeds (.frame f now) next := by
  have pending : next.currentMeta = if l.due f then [] else l.currentMeta := by
    obtain ⟨_, rfl⟩ := frame_cases taken
    exact currentMeta_handle format l f now
  rcases step_cases taken with ⟨_, _, same, handles⟩ | ⟨none, _⟩
  · obtain ⟨rfl, rfl⟩ := LoopStep.frame.inj same
    cases handles with
    | skipped idle _ quiet =>
        rw [due_idle idle] at pending
        exact .kept rfl quiet.published pending
    | opened idle _ _ _ published =>
        rw [due_idle idle] at pending
        exact .kept rfl published pending
    | extended _ _ early _ _ published =>
        rw [early] at pending
        exact .kept rfl published pending
    | closed content active late _ _ published =>
        rw [late] at pending
        exact .closed rfl _ active rfl published pending
  · cases none

theorem feeds_of_step
    {format : SecondsFormat}
    {l next : Loop}
    {label : LoopStep}
    (taken : l.step format label = some next) :
    l.Feeds label next := by
  cases label with
  | frame f now => exact feeds_of_frame taken
  | metadata req =>
      simp only [step] at taken
      split at taken
      · rw [← Option.some.inj taken]
        cases req with
        | none => exact .kept rfl rfl (List.append_nil _)
        | some req => exact .received req rfl rfl rfl
      · cases taken
  | serve action =>
      obtain ⟨foreign, _, serving, served, rfl⟩ := serve_cases taken
      exact .kept rfl (Muxer.serve_keeps foreign served).1 rfl
  | setParams vps sps pps =>
      rw [← Option.some.inj taken]
      exact .kept rfl rfl rfl
  | poll =>
      simp only [step] at taken
      split at taken
      · cases taken
      · rw [← Option.some.inj taken]
        exact .kept rfl rfl rfl
  | metadataClosed =>
      simp only [step] at taken
      split at taken
      · rw [← Option.some.inj taken]
        exact .kept rfl rfl rfl
      · cases taken
  | halt =>
      simp only [step] at taken
      split at taken
      · rw [← Option.some.inj taken]
        exact .kept rfl rfl rfl
      · cases taken

/-! ## Receipts -/

/-- Requests that arrive while a number of segments is closed. -/
def stamped (requests : List MetadataRequest) (closed : Nat) :
    List (MetadataRequest × Nat) :=
  requests.map fun req => (req, closed)

/-- The request of a step, with the number of segments closed before. -/
def receipts (l : Loop) (label : LoopStep) : List (MetadataRequest × Nat) :=
  stamped label.received.toList l.published.length

/-- Start of a published segment. -/
def startAt (l : Loop) (k : Nat) : Int64 :=
  (l.published[k]?.bind fun seg => startOf seg.muxed).getD 0

/-- The cue of a receipt in the first segment that is closed after it. -/
def cueOf (l : Loop) (receipt : MetadataRequest × Nat) : Cue :=
  cue (durationTo90k (l.startAt receipt.2)) receipt.1

/-- Receipts whose requests the segment at a position renders. -/
def batch (rendered : List (MetadataRequest × Nat)) (k : Nat) :
    List (MetadataRequest × Nat) :=
  rendered.filter fun receipt => receipt.2 = k

theorem batch_append (first second : List (MetadataRequest × Nat)) (k : Nat) :
    batch (first ++ second) k = batch first k ++ batch second k :=
  List.filter_append first second

theorem batch_stamped_self (requests : List MetadataRequest) (closed : Nat) :
    batch (stamped requests closed) closed = stamped requests closed := by
  simp [batch, stamped, List.filter_map, Function.comp_def]

theorem batch_stamped_other
    (requests : List MetadataRequest)
    {closed k : Nat}
    (other : closed ≠ k) :
    batch (stamped requests closed) k = [] := by
  simp [batch, stamped, List.filter_map, Function.comp_def, other]

theorem batch_of_lt
    {rendered : List (MetadataRequest × Nat)}
    {closed : Nat}
    (before : ∀ receipt ∈ rendered, receipt.2 < closed) :
    batch rendered closed = [] := by
  rw [batch, List.filter_eq_nil_iff]
  intro receipt member
  simpa using (before receipt member).ne

/-- The receipts so far are those that were rendered, followed by the pending
ones. -/
structure Delivers
    (received rendered : List (MetadataRequest × Nat))
    (l : Loop) : Prop where
  split : received = rendered ++ stamped l.currentMeta l.published.length
  closed : ∀ receipt ∈ rendered, receipt.2 < l.published.length
  each : ∀ k seg, l.published[k]? = some seg →
    seg.cues = (batch rendered k).map l.cueOf
  all : l.published.flatMap Publication.cues = rendered.map l.cueOf

/-- Cues of published segments stay when another segment is published. -/
theorem cueOf_append
    {l next : Loop}
    {seg : Publication}
    (published : next.published = l.published ++ [seg])
    {receipt : MetadataRequest × Nat}
    (before : receipt.2 < l.published.length) :
    next.cueOf receipt = l.cueOf receipt := by
  rw [cueOf, startAt, published, List.getElem?_append_left before, cueOf, startAt]

/-- The cues of a segment that is closed are those of the pending requests. -/
theorem map_cueOf_pending
    {l next : Loop}
    {seg : Publication}
    (started : startOf seg.muxed = some l.segmentStart)
    (vttData : seg.vttData = some (webVTT l.segmentStart l.currentMeta))
    (published : next.published = l.published ++ [seg]) :
    (stamped l.currentMeta l.published.length).map next.cueOf = seg.cues := by
  have start : next.startAt l.published.length = l.segmentStart := by
    rw [startAt, published, List.getElem?_concat_length, Option.bind_some, started]
    rfl
  rw [Publication.cues, vttData, Option.map_some, Option.getD_some, WebVTT.cues_webVTT,
    stamped, List.map_map]
  apply List.map_congr_left
  intro req _
  change cue (durationTo90k (next.startAt l.published.length)) req = _
  rw [start]

/-- A segment that is closed renders the pending requests. -/
theorem Delivers.close
    {received rendered : List (MetadataRequest × Nat)}
    {l next : Loop}
    (delivers : l.Delivers received rendered)
    {seg : Publication}
    (started : startOf seg.muxed = some l.segmentStart)
    (vttData : seg.vttData = some (webVTT l.segmentStart l.currentMeta))
    (published : next.published = l.published ++ [seg])
    (pending : next.currentMeta = []) :
    next.Delivers received received := by
  have length : next.published.length = l.published.length + 1 := by
    rw [published, List.length_append, List.length_singleton]
  have new := map_cueOf_pending started vttData published
  constructor
  · rw [pending]
    exact (List.append_nil received).symm
  · rw [delivers.split, length]
    intro receipt member
    rcases List.mem_append.mp member with before | after
    · exact Nat.lt_succ_of_lt (delivers.closed receipt before)
    · obtain ⟨req, _, rfl⟩ := List.mem_map.mp after
      exact Nat.lt_succ_self _
  · intro k other present
    rw [delivers.split, batch_append, List.map_append]
    rw [published] at present
    by_cases last : k = l.published.length
    · subst k
      rw [List.getElem?_concat_length, Option.some.injEq] at present
      rw [batch_of_lt delivers.closed, batch_stamped_self, new, present]
      exact (List.nil_append _).symm
    · have bound := (List.getElem?_eq_some_iff.mp present).1
      rw [List.length_append, List.length_singleton] at bound
      rw [List.getElem?_append_left (by omega)] at present
      rw [batch_stamped_other _ (Ne.symm last), List.map_nil, List.append_nil,
        delivers.each k other present]
      apply List.map_congr_left
      intro receipt member
      have before := delivers.closed receipt (List.mem_filter.mp member).1
      exact (cueOf_append published before).symm
  · have kept : rendered.map next.cueOf = rendered.map l.cueOf :=
      List.map_congr_left fun receipt member =>
        cueOf_append published (delivers.closed receipt member)
    rw [delivers.split, published, List.flatMap_append, delivers.all, List.map_append, new,
      kept]
    simp

/-- Steps that close no segment leave the rendered requests alone. -/
theorem Delivers.same
    {received rendered : List (MetadataRequest × Nat)}
    {l next : Loop}
    (delivers : l.Delivers received rendered)
    (published : next.published = l.published)
    {arrived : List MetadataRequest}
    (pending : next.currentMeta = l.currentMeta ++ arrived) :
    next.Delivers (received ++ stamped arrived l.published.length) rendered := by
  have cueOf : next.cueOf = l.cueOf := by
    funext receipt
    rw [Loop.cueOf, startAt, published, Loop.cueOf, startAt]
  constructor
  · rw [delivers.split, pending, published, List.append_assoc, stamped, stamped, stamped,
      List.map_append]
  · rw [published]
    exact delivers.closed
  · rw [published, cueOf]
    exact delivers.each
  · rw [published, cueOf]
    exact delivers.all

/-- The segments are cut from the frames, and the metadata is delivered. -/
def Tracks (received : List (MetadataRequest × Nat)) (l : Loop) : Prop :=
  (∃ input, l.Segmented input) ∧ ∃ rendered, l.Delivers received rendered

theorem Tracks.step
    (format : SecondsFormat)
    (received : List (MetadataRequest × Nat))
    (l : Loop)
    (label : LoopStep)
    (next : Loop)
    (tracks : Tracks received l)
    (taken : l.step format label = some next) :
    Tracks (received ++ l.receipts label) next := by
  obtain ⟨⟨input, segmented⟩, rendered, delivers⟩ := tracks
  refine ⟨⟨_, segmented.step taken⟩, ?_⟩
  unfold receipts
  cases feeds_of_step taken with
  | received req arrives published pending =>
      rw [arrives]
      exact ⟨rendered, delivers.same published pending⟩
  | closed nothing seg active vttData published pending =>
      have started := segmented.started seg.muxed active
      rw [nothing, Option.toList_none, stamped, List.map_nil, List.append_nil]
      exact ⟨received, delivers.close started vttData published pending⟩
  | kept nothing published pending =>
      rw [nothing]
      have unchanged : next.currentMeta = l.currentMeta ++ [] := by
        rw [List.append_nil, pending]
      exact ⟨rendered, delivers.same published unchanged⟩

end Loop

/-- In every run, the metadata that the loop has received is rendered up to the
requests that are still pending.  Each rendered request is one cue of the first
segment that was closed after its receipt, and of no other segment, copies
included.  Reading the segments in order gives the cues in the order of
receipt. -/
theorem metadata_rendered_once
    (format : SecondsFormat)
    (maxSegments : Option Int)
    (now : Int64)
    (codecParams : Option CodecParams)
    (labels : List LoopStep)
    {finish : Loop}
    (reached : run (Loop.step format)
      (Loop.start (newMuxer maxSegments now) codecParams) labels = some finish) :
    ∃ rendered,
      trace (Loop.step format) Loop.receipts
          (Loop.start (newMuxer maxSegments now) codecParams) labels =
        rendered ++ Loop.stamped finish.currentMeta finish.published.length ∧
      (∀ receipt ∈ rendered, receipt.2 < finish.published.length) ∧
      (∀ k seg, finish.published[k]? = some seg →
        seg.cues = (Loop.batch rendered k).map finish.cueOf) ∧
      (∀ seg ∈ finish.serving.muxer.heap, seg.copied = true → seg.cues = []) ∧
      finish.serving.muxer.heap.flatMap Segment.cues = rendered.map finish.cueOf := by
  have initial : Loop.Tracks []
      (Loop.start (newMuxer maxSegments now) codecParams) := by
    refine ⟨⟨[], Loop.segmented_start maxSegments now codecParams⟩, [], ?_⟩
    exact ⟨rfl, by simp, fun _ _ absent => (by cases absent), rfl⟩
  obtain ⟨_, rendered, delivers⟩ :=
    run_invariant_trace (Loop.Tracks.step format) initial reached
  obtain ⟨actions, served⟩ := Loop.run_serving reached
  have plain : Muxer.PlainCopies finish.serving.muxer.heap :=
    run_invariant (Serving.plainCopies_step format) (fun _ absent => by cases absent) served
  refine ⟨rendered, delivers.split, delivers.closed, delivers.each, ?_, ?_⟩
  · intro seg member copied
    rw [Segment.cues, plain seg member copied]
    rfl
  · rw [Muxer.flatMap_cues plain]
    exact delivers.all

/-- Two requests, of which one arrives after the first segment was closed, and
a watchdog that repeats this segment. -/
def annotated : List LoopStep :=
  [.poll, .frame (keyframeAt 0) 1, .poll, .metadata (some ⟨90000, "first"⟩),
    .poll, .frame (keyframeAt 180000) 2, .serve (.checkWatchdog 2 6000000000),
    .poll, .metadata (some ⟨270000, "second"⟩)]

theorem metadata_rendered_once_annotated :
    ∃ finish rendered,
      run (Loop.step wholeSeconds) (Loop.start (newMuxer none 1) none) annotated =
        some finish ∧
      trace (Loop.step wholeSeconds) Loop.receipts
          (Loop.start (newMuxer none 1) none) annotated =
        rendered ++ Loop.stamped finish.currentMeta finish.published.length ∧
      finish.currentMeta = [⟨270000, "second"⟩] ∧
      finish.serving.muxer.heap.length = 2 ∧
      finish.serving.muxer.heap.flatMap Segment.cues = rendered.map finish.cueOf := by
  obtain ⟨rendered, split, _, _, _, all⟩ :=
    metadata_rendered_once wholeSeconds none 1 none annotated rfl
  exact ⟨_, rendered, rfl, split, by decide, by decide, all⟩

end Hls
end RuseonCore
