import RuseonCore.Hls.Muxer

/-!
# The muxing loop

Model of `Muxer.run`, the goroutine that turns the frames of a ring buffer into
segments, together with everything that happens around it: codec parameters are
set, metadata arrives, and other goroutines use the muxer.  An iteration of the
loop first polls the codec parameters and then handles what the `select` yields.
Handling a frame is one step: the watchdog does not fire between the arrival of a
keyframe, which resets its timer, and the end of that iteration.
-/

namespace RuseonCore
namespace Hls

open Buffer Rtsp Transition

/-! ## Codec parameters -/

/-- Comparison of slices; a nil slice equals an empty one. -/
def bytesEqual (first second : Option (List UInt8)) : Bool :=
  first.getD [] == second.getD []

/-- No parameter set differs. -/
def sameParams (first second : CodecParams) : Bool :=
  bytesEqual first.sps second.sps && bytesEqual first.pps second.pps &&
    bytesEqual first.vps second.vps

/-- The frame brings parameter sets of its own. -/
def hasParams (params : CodecParams) (nalus : List (List UInt8)) : Bool :=
  nalus.any fun
    | [] => false
    | head :: _ =>
        if params.vps.isSome then
          let typ := (head >>> 1) &&& 0x3F
          typ == 32 || typ == 33 || typ == 34
        else
          let typ := head &&& 0x1F
          typ == 7 || typ == 8

/-- NAL units that are written for a frame: keyframes are preceded by the
parameter sets in force. -/
def muxedNalus (params : CodecParams) (f : Frame) : List (List UInt8) :=
  match params.sps, params.pps with
  | some sps, some pps =>
      if f.isKeyFrame && !hasParams params f.nalus then
        params.vps.toList ++ [sps, pps] ++ f.nalus
      else f.nalus
  | _, _ => f.nalus

/-- A frame as it is handed to the writer. -/
def muxedFrame (params : CodecParams) (f : Frame) : MuxedFrame where
  frame := f
  params := params
  pts := durationTo90k (timestamp f)
  nalus := muxedNalus params f

/-! ## State and steps -/

/-- The shared state, the codec parameters of the ring buffer, and the variables
of the loop. -/
structure Loop where
  serving : Serving
  codecParams : Option CodecParams
  inForce : CodecParams
  currentBuf : Option (List MuxedFrame)
  segmentStart : Int64
  currentMeta : List MetadataRequest
  metaOpen : Bool
  frameCount : Nat
  polled : Bool
  ended : Bool

/-- What happens in and around the loop; `halt` is the end of the loop, and
`serve` a step of another goroutine. -/
inductive LoopStep
  | setParams (vps sps pps : Option (List UInt8))
  | poll
  | metadata (req : Option MetadataRequest)
  | metadataClosed
  | frame (f : Frame) (now : Int64)
  | halt
  | serve (action : ServingStep)

/-- Frame that a step delivers. -/
def LoopStep.delivered : LoopStep → Option Frame
  | .frame f _ => some f
  | _ => none

/-- Steps that concern neither frames nor other goroutines. -/
def LoopStep.isIdle : LoopStep → Bool
  | .frame _ _ => false
  | .serve _ => false
  | _ => true

/-- Steps that only the loop takes. -/
def ServingStep.ofLoop : ServingStep → Bool
  | .storeFrameTime _ => true
  | .flagDiscontinuity => true
  | .publish _ _ _ => true
  | _ => false

namespace Loop

/-- The loop before its first iteration. -/
def start (m : Muxer) (codecParams : Option CodecParams) : Loop where
  serving := Serving.start m
  codecParams := codecParams
  inForce := codecParams.getD ⟨none, none, none⟩
  currentBuf := none
  segmentStart := 0
  currentMeta := []
  metaOpen := true
  frameCount := 0
  polled := false
  ended := false

/-- Shared state after a change of the muxer. -/
def withMuxer (l : Loop) (m : Muxer) : Loop :=
  { l with serving := { l.serving with muxer := m } }

/-- Take the parameters of the ring buffer as long as some are missing. -/
def pollParams (l : Loop) : CodecParams :=
  if l.inForce.sps.isNone || l.inForce.pps.isNone then l.codecParams.getD l.inForce
  else l.inForce

/-- Tell the watchdog about keyframes and about every 25th frame. -/
def receive (l : Loop) (f : Frame) (now : Int64) : Loop :=
  if f.isKeyFrame || decide (l.frameCount + 1 ≥ 25) then
    { l with frameCount := 0 }.withMuxer { l.serving.muxer with lastFrameTime := now }
  else { l with frameCount := l.frameCount + 1 }

/-- New parameters that a keyframe finds in the ring buffer. -/
def newParams (l : Loop) (f : Frame) : Option CodecParams :=
  if f.isKeyFrame then
    l.codecParams.filter fun found =>
      found.sps.isSome && !sameParams l.inForce found
  else none

/-- Put new parameters into force. -/
def refresh (l : Loop) (f : Frame) : Loop :=
  match l.newParams f with
  | some found =>
      { l with inForce := found }.withMuxer
        { l.serving.muxer with needsDiscontinuity := true }
  | none => l

/-- The frame closes the open segment. -/
def due (l : Loop) (f : Frame) : Bool :=
  l.currentBuf.isSome && f.isKeyFrame &&
    decide (timestamp f - l.segmentStart ≥ l.serving.muxer.targetDuration)

/-- Publish the open segment if the frame closes it. -/
def close (format : SecondsFormat) (l : Loop) (f : Frame) : Loop :=
  match l.currentBuf with
  | some content =>
      if l.due f then
        { l with currentBuf := none, currentMeta := [] }.withMuxer
          (l.serving.muxer.publish format (timestamp f - l.segmentStart) content
            (webVTT l.segmentStart l.currentMeta))
      else l
  | none => l

/-- Write the frame to the open segment; only a keyframe opens one. -/
def mux (l : Loop) (f : Frame) : Loop :=
  match l.currentBuf with
  | some content =>
      { l with currentBuf := some (content ++ [muxedFrame l.inForce f]) }
  | none =>
      if f.isKeyFrame then
        { l with
          currentBuf := some [muxedFrame l.inForce f]
          segmentStart := timestamp f }
      else l

/-- Handle a frame. -/
def handle (format : SecondsFormat) (l : Loop) (f : Frame) (now : Int64) : Loop :=
  (((l.receive f now).refresh f).close format f).mux f

/-- The loop waits in its `select`. -/
def waits (l : Loop) : Bool :=
  l.polled && !l.ended

/-- Effect of one step. -/
def step (format : SecondsFormat) (l : Loop) : LoopStep → Option Loop
  | .setParams vps sps pps => some { l with codecParams := some ⟨vps, sps, pps⟩ }
  | .poll =>
      if l.polled || l.ended then none
      else some { l with inForce := l.pollParams, polled := true }
  | .metadata req =>
      if l.waits && l.metaOpen then
        some { l with currentMeta := l.currentMeta ++ req.toList, polled := false }
      else none
  | .metadataClosed =>
      if l.waits && l.metaOpen then some { l with metaOpen := false, polled := false }
      else none
  | .frame f now =>
      if l.waits then some { l.handle format f now with polled := false }
      else none
  | .halt => if l.waits then some { l with ended := true } else none
  | .serve action =>
      if action.ofLoop then none
      else
        match action with
        | .stop =>
            if l.ended then
              (l.serving.step format .stop).map fun serving =>
                { l with serving := serving }
            else none
        | action =>
            (l.serving.step format action).map fun serving =>
              { l with serving := serving }

end Loop

/-! ## Published segments -/

/-- A segment that the loop has published. -/
structure Publication where
  duration : Int64
  isDiscontinuity : Bool
  vttData : Option WebVTT
  muxed : List MuxedFrame
  deriving DecidableEq

/-- What was published as a segment; copies that the watchdog makes were not. -/
def Segment.publication (seg : Segment) : Option Publication :=
  if seg.copied then none
  else some ⟨seg.duration, seg.isDiscontinuity, seg.vttData, seg.muxed⟩

/-- All segments that were ever published, in order. -/
def Muxer.published (m : Muxer) : List Publication :=
  m.heap.filterMap Segment.publication

namespace Muxer

@[simp] theorem publication_retain (seg : Segment) :
    seg.retain.publication = seg.publication := rfl

@[simp] theorem publication_release (seg : Segment) :
    seg.release.publication = seg.publication := by
  unfold Segment.release
  split
  · split <;> rfl
  · rfl

theorem filterMap_modify
    {change : Segment → Segment}
    (keeps : ∀ seg, (change seg).publication = seg.publication)
    (heap : List Segment)
    (p : Nat) :
    (heap.modify p change).filterMap Segment.publication =
      heap.filterMap Segment.publication := by
  induction heap generalizing p with
  | nil => simp
  | cons seg heap inductionHypothesis =>
      cases p with
      | zero => simp [List.filterMap_cons, keeps]
      | succ p => simp [List.filterMap_cons, inductionHypothesis]

theorem filterMap_release_all
    (window : List Nat)
    (heap : List Segment) :
    (window.foldl (fun heap p => heap.modify p Segment.release) heap).filterMap
        Segment.publication =
      heap.filterMap Segment.publication := by
  induction window generalizing heap with
  | nil => rfl
  | cons p window inductionHypothesis =>
      rw [List.foldl_cons, inductionHypothesis,
        filterMap_modify publication_release]

@[simp] theorem heap_rebuild (format : SecondsFormat) (m : Muxer) :
    (m.rebuildPlaylistsLocked format).heap = m.heap := by
  unfold rebuildPlaylistsLocked
  split <;> rfl

@[simp] theorem targetDuration_rebuild (format : SecondsFormat) (m : Muxer) :
    (m.rebuildPlaylistsLocked format).targetDuration = m.targetDuration := by
  unfold rebuildPlaylistsLocked
  split <;> rfl

@[simp] theorem needsDiscontinuity_rebuild (format : SecondsFormat) (m : Muxer) :
    (m.rebuildPlaylistsLocked format).needsDiscontinuity = m.needsDiscontinuity := by
  unfold rebuildPlaylistsLocked
  split <;> rfl

@[simp] theorem published_evict (m : Muxer) :
    m.evict.published = m.published := by
  unfold evict
  split
  · split
    · exact filterMap_modify publication_release _ _
    · rfl
  · rfl

@[simp] theorem targetDuration_evict (m : Muxer) :
    m.evict.targetDuration = m.targetDuration := by
  unfold evict
  split
  · split <;> rfl
  · rfl

@[simp] theorem needsDiscontinuity_evict (m : Muxer) :
    m.evict.needsDiscontinuity = m.needsDiscontinuity := by
  unfold evict
  split
  · split <;> rfl
  · rfl

@[simp] theorem published_rebuild (format : SecondsFormat) (m : Muxer) :
    (m.rebuildPlaylistsLocked format).published = m.published := by
  rw [published, heap_rebuild, published]

theorem published_publish
    (format : SecondsFormat)
    (m : Muxer)
    (duration : Int64)
    (content : List MuxedFrame)
    (vttData : WebVTT) :
    (m.publish format duration content vttData).published =
      m.published ++ [⟨duration, m.needsDiscontinuity, some vttData, content⟩] := by
  rw [publish, published_rebuild, appendSegment, published_evict]
  simp [published, Segment.publication]

theorem published_checkWatchdog
    (format : SecondsFormat)
    (m : Muxer)
    (seen now : Int64) :
    (m.checkWatchdog format seen now).published = m.published := by
  rcases m.checkWatchdog_cases format seen now with same | ⟨lastSeg, _, _, repeated⟩
  · rw [same]
  · have rebuilt := published_rebuild format
      (appendSegment { m with seqCount := m.seqCount + 1 }
        (copyOf lastSeg (m.seqCount + 1)))
    rw [repeated]
    refine rebuilt.trans ?_
    rw [appendSegment, published_evict]
    simp [published, Segment.publication, copyOf]

theorem targetDuration_checkWatchdog
    (format : SecondsFormat)
    (m : Muxer)
    (seen now : Int64) :
    (m.checkWatchdog format seen now).targetDuration = m.targetDuration := by
  rcases m.checkWatchdog_cases format seen now with same | ⟨lastSeg, _, _, repeated⟩
  · rw [same]
  · rw [repeated]
    refine (targetDuration_rebuild format _).trans ?_
    rw [appendSegment, targetDuration_evict]

/-- Steps of other goroutines publish nothing and keep the target duration. -/
theorem serve_keeps
    {format : SecondsFormat}
    {serving next : Serving}
    {action : ServingStep}
    (foreign : action.ofLoop = false)
    (taken : serving.step format action = some next) :
    next.muxer.published = serving.muxer.published ∧
      next.muxer.targetDuration = serving.muxer.targetDuration := by
  cases action with
  | storeFrameTime now => cases foreign
  | flagDiscontinuity => cases foreign
  | publish duration content vttData => cases foreign
  | checkWatchdog seen now =>
      rw [← Option.some.inj taken]
      exact ⟨published_checkWatchdog format serving.muxer seen now,
        targetDuration_checkWatchdog format serving.muxer seen now⟩
  | acquireSegment name =>
      rcases Serving.acquireSegment_cases taken with rfl | ⟨p, _, rfl⟩
      · exact ⟨rfl, rfl⟩
      · exact ⟨filterMap_modify publication_retain _ _, rfl⟩
  | release p =>
      obtain ⟨_, rfl⟩ := Serving.release_cases taken
      exact ⟨filterMap_modify publication_release _ _, rfl⟩
  | getPlaylist =>
      rcases Serving.getPlaylist_cases taken with rfl | rfl
      · exact ⟨rfl, rfl⟩
      · exact ⟨published_rebuild format serving.muxer,
          targetDuration_rebuild format serving.muxer⟩
  | getSubsPlaylist =>
      rcases Serving.getSubsPlaylist_cases taken with rfl | rfl
      · exact ⟨rfl, rfl⟩
      · exact ⟨published_rebuild format serving.muxer,
          targetDuration_rebuild format serving.muxer⟩
  | stop =>
      rw [← Option.some.inj taken]
      exact ⟨filterMap_release_all _ _, rfl⟩

end Muxer

namespace Loop

/-- Parameters in force when the frame is muxed. -/
def forced (l : Loop) (f : Frame) : CodecParams :=
  (l.newParams f).getD l.inForce

/-- A discontinuity is pending when the frame is muxed. -/
def flagged (l : Loop) (f : Frame) : Bool :=
  l.serving.muxer.needsDiscontinuity || (l.newParams f).isSome

/-- All segments that were ever published. -/
def published (l : Loop) : List Publication :=
  l.serving.muxer.published

/-- Nothing changes in the segments. -/
structure Quiet (l next : Loop) : Prop where
  published : next.published = l.published
  currentBuf : next.currentBuf = l.currentBuf
  segmentStart : next.segmentStart = l.segmentStart
  targetDuration : next.serving.muxer.targetDuration = l.serving.muxer.targetDuration

/-- What a frame can do. -/
inductive Handles (l : Loop) (f : Frame) (next : Loop) : Prop
  | skipped
      (idle : l.currentBuf = none)
      (delta : f.isKeyFrame = false)
      (quiet : l.Quiet next)
      (flag : next.serving.muxer.needsDiscontinuity = l.flagged f)
  | opened
      (idle : l.currentBuf = none)
      (key : f.isKeyFrame = true)
      (currentBuf : next.currentBuf = some [muxedFrame (l.forced f) f])
      (segmentStart : next.segmentStart = timestamp f)
      (published : next.published = l.published)
      (flag : next.serving.muxer.needsDiscontinuity = l.flagged f)
  | extended
      (content : List MuxedFrame)
      (active : l.currentBuf = some content)
      (early : l.due f = false)
      (currentBuf : next.currentBuf = some (content ++ [muxedFrame (l.forced f) f]))
      (segmentStart : next.segmentStart = l.segmentStart)
      (published : next.published = l.published)
      (flag : next.serving.muxer.needsDiscontinuity = l.flagged f)
  | closed
      (content : List MuxedFrame)
      (active : l.currentBuf = some content)
      (late : l.due f = true)
      (currentBuf : next.currentBuf = some [muxedFrame (l.forced f) f])
      (segmentStart : next.segmentStart = timestamp f)
      (published : next.published = l.published ++
        [⟨timestamp f - l.segmentStart, l.flagged f,
          some (webVTT l.segmentStart l.currentMeta), content⟩])
      (flag : next.serving.muxer.needsDiscontinuity = false)

/-- The loop when the frame is about to be muxed. -/
def prepared (l : Loop) (f : Frame) (frameCount : Nat) (lastFrameTime : Int64) : Loop :=
  { l with
    frameCount := frameCount
    inForce := l.forced f
    serving := { l.serving with
      muxer := { l.serving.muxer with
        lastFrameTime := lastFrameTime
        needsDiscontinuity := l.flagged f } } }

theorem refresh_receive
    (l : Loop)
    (f : Frame)
    (now : Int64) :
    ∃ frameCount lastFrameTime,
      (l.receive f now).refresh f = l.prepared f frameCount lastFrameTime := by
  have received : ∃ frameCount lastFrameTime, l.receive f now =
      { l with frameCount := frameCount }.withMuxer
        { l.serving.muxer with lastFrameTime := lastFrameTime } := by
    unfold receive
    split
    · exact ⟨0, now, rfl⟩
    · exact ⟨l.frameCount + 1, l.serving.muxer.lastFrameTime, rfl⟩
  obtain ⟨frameCount, lastFrameTime, received⟩ := received
  refine ⟨frameCount, lastFrameTime, ?_⟩
  rw [received, refresh]
  change (match l.newParams f with | some _ => _ | none => _) = _
  cases found : l.newParams f with
  | none => simp [prepared, forced, flagged, found, withMuxer]
  | some params => simp [prepared, forced, flagged, found, withMuxer]

section Phases

variable {format : SecondsFormat} {l : Loop} {f : Frame} {content : List MuxedFrame}

/-- The open segment stays open. -/
theorem close_early (early : l.due f = false) : l.close format f = l := by
  unfold close
  split
  · rw [early]
    rfl
  · rfl

/-- The open segment is published. -/
theorem close_late
    (active : l.currentBuf = some content)
    (late : l.due f = true) :
    l.close format f =
      { l with currentBuf := none, currentMeta := [] }.withMuxer
        (l.serving.muxer.publish format (timestamp f - l.segmentStart) content
          (webVTT l.segmentStart l.currentMeta)) := by
  unfold close
  rw [active]
  exact if_pos late

theorem mux_active (active : l.currentBuf = some content) :
    l.mux f = { l with currentBuf := some (content ++ [muxedFrame l.inForce f]) } := by
  unfold mux
  rw [active]

theorem mux_key
    (idle : l.currentBuf = none)
    (key : f.isKeyFrame = true) :
    l.mux f =
      { l with
        currentBuf := some [muxedFrame l.inForce f]
        segmentStart := timestamp f } := by
  unfold mux
  rw [idle]
  exact if_pos key

theorem mux_delta
    (idle : l.currentBuf = none)
    (delta : f.isKeyFrame = false) :
    l.mux f = l := by
  unfold mux
  rw [idle, delta]
  rfl

theorem due_idle (idle : l.currentBuf = none) : l.due f = false := by
  unfold due
  rw [idle]
  rfl

/-- Only a keyframe closes a segment. -/
theorem key_of_due (late : l.due f = true) : f.isKeyFrame = true := by
  simp only [due, Bool.and_eq_true] at late
  exact late.1.2

end Phases

/-- Every frame is handled in one of the four ways. -/
theorem handles
    (format : SecondsFormat)
    (l : Loop)
    (f : Frame)
    (now : Int64) :
    l.Handles f { l.handle format f now with polled := false } := by
  obtain ⟨frameCount, lastFrameTime, ready⟩ := l.refresh_receive f now
  have sameDue : (l.prepared f frameCount lastFrameTime).due f = l.due f := rfl
  have sameBuf : (l.prepared f frameCount lastFrameTime).currentBuf =
    l.currentBuf := rfl
  rw [handle, ready]
  cases active : l.currentBuf with
  | none =>
      rw [active] at sameBuf
      rw [close_early (sameDue.trans (due_idle active))]
      cases key : f.isKeyFrame with
      | false =>
          rw [mux_delta sameBuf key]
          exact .skipped active key ⟨rfl, rfl, rfl, rfl⟩ rfl
      | true =>
          rw [mux_key sameBuf key]
          exact .opened active key rfl rfl rfl rfl
  | some content =>
      rw [active] at sameBuf
      cases late : l.due f with
      | false =>
          rw [close_early (sameDue.trans late), mux_active sameBuf]
          exact .extended content active late rfl rfl rfl rfl
      | true =>
          rw [close_late sameBuf (sameDue.trans late), mux_key rfl (key_of_due late)]
          refine .closed content active late rfl rfl ?_ ?_
          · exact Muxer.published_publish format _ _ content _
          · exact (Muxer.needsDiscontinuity_rebuild format _).trans
              (Muxer.needsDiscontinuity_evict _)

theorem frame_cases
    {format : SecondsFormat}
    {l next : Loop}
    {f : Frame}
    {now : Int64}
    (taken : l.step format (.frame f now) = some next) :
    l.ended = false ∧ { l.handle format f now with polled := false } = next := by
  simp only [step] at taken
  split at taken
  · rename_i waiting
    rw [waits, Bool.and_eq_true, Bool.not_eq_true'] at waiting
    exact ⟨waiting.2, Option.some.inj taken⟩
  · cases taken

/-- Other goroutines change the shared state only. -/
theorem serve_cases
    {format : SecondsFormat}
    {l next : Loop}
    {action : ServingStep}
    (taken : l.step format (.serve action) = some next) :
    action.ofLoop = false ∧ (action = .stop → l.ended = true) ∧
      ∃ serving, l.serving.step format action = some serving ∧
        { l with serving := serving } = next := by
  simp only [step] at taken
  split at taken
  · cases taken
  · rename_i foreign
    refine ⟨Bool.eq_false_iff.mpr foreign, ?_⟩
    split at taken
    · split at taken
      · rename_i ended
        exact ⟨fun _ => ended, Option.map_eq_some_iff.mp taken⟩
      · cases taken
    · rename_i other
      exact ⟨fun stops => absurd stops other, Option.map_eq_some_iff.mp taken⟩

/-- Only variables of the loop that do not concern the segments change. -/
structure Idles (l next : Loop) : Prop where
  serving : next.serving = l.serving
  currentBuf : next.currentBuf = l.currentBuf
  segmentStart : next.segmentStart = l.segmentStart
  ended : next.ended = false → l.ended = false

theorem idle_cases
    {format : SecondsFormat}
    {l next : Loop}
    {label : LoopStep}
    (taken : l.step format label = some next) :
    (∃ f now, label = .frame f now) ∨ (∃ action, label = .serve action) ∨
      (label.isIdle = true ∧ l.Idles next) := by
  cases label with
  | setParams vps sps pps =>
      rw [← Option.some.inj taken]
      exact .inr (.inr ⟨rfl, rfl, rfl, rfl, id⟩)
  | poll =>
      simp only [step] at taken
      split at taken
      · cases taken
      · rw [← Option.some.inj taken]
        exact .inr (.inr ⟨rfl, rfl, rfl, rfl, id⟩)
  | metadata req =>
      simp only [step] at taken
      split at taken
      · rw [← Option.some.inj taken]
        exact .inr (.inr ⟨rfl, rfl, rfl, rfl, id⟩)
      · cases taken
  | metadataClosed =>
      simp only [step] at taken
      split at taken
      · rw [← Option.some.inj taken]
        exact .inr (.inr ⟨rfl, rfl, rfl, rfl, id⟩)
      · cases taken
  | frame f now => exact .inl ⟨f, now, rfl⟩
  | halt =>
      simp only [step] at taken
      split at taken
      · rw [← Option.some.inj taken]
        exact .inr (.inr ⟨rfl, rfl, rfl, rfl, fun running => by cases running⟩)
      · cases taken
  | serve action => exact .inr (.inl ⟨action, rfl⟩)

/-- A step either delivers a frame or leaves the segments alone. -/
theorem step_cases
    {format : SecondsFormat}
    {l next : Loop}
    {label : LoopStep}
    (taken : l.step format label = some next) :
    (∃ f now, label = .frame f now ∧ l.Handles f next) ∨
      (label.delivered = none ∧ l.Quiet next) := by
  rcases idle_cases taken with ⟨f, now, rfl⟩ | ⟨action, rfl⟩ | ⟨idle, idles⟩
  · obtain ⟨_, rfl⟩ := frame_cases taken
    exact .inl ⟨f, now, rfl, handles format l f now⟩
  · obtain ⟨foreign, _, serving, served, rfl⟩ := serve_cases taken
    obtain ⟨published, targetDuration⟩ := Muxer.serve_keeps foreign served
    exact .inr ⟨rfl, published, rfl, rfl, targetDuration⟩
  · have none : label.delivered = none := by
      cases label <;> first | rfl | cases idle
    refine .inr ⟨none, ?_, idles.currentBuf, idles.segmentStart, ?_⟩
    · rw [Loop.published, Loop.published, idles.serving]
    · rw [idles.serving]

@[simp] theorem serving_mux (l : Loop) (f : Frame) :
    (l.mux f).serving = l.serving := by
  unfold mux
  split
  · rfl
  · split <;> rfl

theorem targetDuration_close
    (format : SecondsFormat)
    (l : Loop)
    (f : Frame) :
    (l.close format f).serving.muxer.targetDuration =
      l.serving.muxer.targetDuration := by
  unfold close
  split
  · split
    · refine (Muxer.targetDuration_rebuild format _).trans ?_
      rw [Muxer.appendSegment, Muxer.targetDuration_evict]
    · rfl
  · rfl

/-- The target duration is fixed. -/
theorem targetDuration_step
    {format : SecondsFormat}
    {l next : Loop}
    {label : LoopStep}
    (taken : l.step format label = some next) :
    next.serving.muxer.targetDuration = l.serving.muxer.targetDuration := by
  rcases step_cases taken with ⟨f, now, rfl, _⟩ | ⟨_, quiet⟩
  · obtain ⟨_, rfl⟩ := frame_cases taken
    obtain ⟨frameCount, lastFrameTime, ready⟩ := l.refresh_receive f now
    change (l.handle format f now).serving.muxer.targetDuration = _
    rw [handle, serving_mux, ready]
    exact targetDuration_close format _ f
  · exact quiet.targetDuration

end Loop
end Hls
end RuseonCore
