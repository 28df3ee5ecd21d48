import Mathlib
import RuseonCore.Hls.Muxer

/-!
# The segment window

The counter, the window, the index and both playlists of a muxer stay in step:
the window holds the most recent segments, which are numbered without gaps, the
index and the playlists list exactly these, and each listed name is resolved to
the segment that is listed.
-/

namespace RuseonCore
namespace Hls

open Transition

/-! ## Names -/

/-- A segment name without its extension. -/
def stem (seq : Nat) : List Char :=
  "stream_".toList ++ (toString seq).toList

theorem stem_ne_nil (seq : Nat) : stem seq ≠ [] :=
  List.append_ne_nil_of_left_ne_nil (by decide) _

theorem segmentName_eq (seq : Nat) :
    segmentName seq = String.ofList (stem seq) ++ ".ts" := by
  unfold segmentName stem
  rw [String.ofList_append, String.ofList_toList, String.ofList_toList]

theorem segmentName_inj {first second : Nat} :
    segmentName first = segmentName second ↔ first = second := by
  simp [segmentName, Nat.repr_inj]

theorem vttName_segmentName (seq : Nat) :
    vttName (segmentName seq) = String.ofList (stem seq) ++ ".vtt" := by
  have positive := List.length_pos_iff.mpr (stem_ne_nil seq)
  simp [vttName, segmentName_eq, positive]

/-- Names of media segments do not ask for subtitles. -/
theorem isVTT_segmentName (seq : Nat) : isVTT (segmentName seq) = false := by
  rw [Bool.eq_false_iff, segmentName_eq]
  intro asks
  have suffix := (Bool.and_eq_true_iff.mp asks).2
  have last := congrArg List.getLast? (beq_iff_eq.mp suffix)
  rw [List.getLast?_drop] at last
  simp at last

theorem isVTT_vttName (seq : Nat) : isVTT (vttName (segmentName seq)) = true := by
  have positive := List.length_pos_iff.mpr (stem_ne_nil seq)
  simp [vttName_segmentName, isVTT, positive]

theorem tsName_segmentName (seq : Nat) :
    tsName (segmentName seq) = segmentName seq := by
  simp [tsName, isVTT_segmentName]

/-- The name of the subtitles leads back to the name of the segment. -/
theorem tsName_vttName (seq : Nat) :
    tsName (vttName (segmentName seq)) = segmentName seq := by
  have asks := isVTT_vttName seq
  rw [tsName, asks, vttName_segmentName, segmentName_eq]
  simp

namespace Muxer

/-! ## Shape of the window -/

/-- The window holds the most recent segments, and segments are named by their
numbers. -/
structure Shape (m : Muxer) : Prop where
  bounded : m.segments.length ≤ m.maxSegments
  counted : m.heap.length = m.seqCount
  inside : m.segments.length ≤ m.heap.length
  recent : m.segments =
    List.range' (m.heap.length - m.segments.length) m.segments.length
  inhabited : m.heap ≠ [] → m.segments ≠ []
  named : ∀ p seg, m.heap[p]? = some seg → seg.name = segmentName (p + 1)

theorem Shape.lt_length
    {m : Muxer}
    (shape : m.Shape)
    {p : Nat}
    (listed : p ∈ m.segments) :
    p < m.heap.length := by
  have inside := shape.inside
  rw [shape.recent, List.mem_range'_1] at listed
  omega

/-- Changes of segments that keep some part of them. -/
theorem part_modify
    {α : Type*}
    {part : Segment → α}
    {change : Segment → Segment}
    (keeps : ∀ seg, part (change seg) = part seg)
    (heap : List Segment)
    (p q : Nat) :
    ((heap.modify p change)[q]?).map part = heap[q]?.map part := by
  rw [List.getElem?_modify]
  cases heap[q]? with
  | none => rfl
  | some seg => by_cases same : p = q <;> simp [same, keeps]

/-- Changes of segments that keep what the playlists show of them. -/
theorem listing_modify
    {change : Segment → Segment}
    (keeps : ∀ seg, (change seg).toListing = seg.toListing)
    (heap : List Segment)
    (p q : Nat) :
    ((heap.modify p change)[q]?).map Segment.toListing =
      heap[q]?.map Segment.toListing :=
  part_modify keeps heap p q

@[simp] theorem toListing_retain (seg : Segment) :
    seg.retain.toListing = seg.toListing := rfl

@[simp] theorem toListing_release (seg : Segment) :
    seg.release.toListing = seg.toListing := by
  unfold Segment.release
  split
  · split <;> rfl
  · rfl

theorem vttData_release (seg : Segment) :
    seg.release.vttData = seg.vttData := by
  unfold Segment.release
  split
  · split <;> rfl
  · rfl

/-- Names are kept with the listings. -/
theorem named_of_listing
    {heap changed : List Segment}
    (same : ∀ q : Nat, changed[q]?.map Segment.toListing =
      heap[q]?.map Segment.toListing)
    (named : ∀ p seg, heap[p]? = some seg → seg.name = segmentName (p + 1)) :
    ∀ p seg, changed[p]? = some seg → seg.name = segmentName (p + 1) := by
  intro p seg stored
  have listing := same p
  rw [stored, Option.map_some, eq_comm, Option.map_eq_some_iff] at listing
  obtain ⟨original, found, listed⟩ := listing
  rw [← show original.name = seg.name from congrArg Listing.name listed]
  exact named p original found

/-- Effect of an eviction. -/
theorem evict_of_long
    {m : Muxer}
    {oldSeg : Nat}
    {rest : List Nat}
    (window : m.segments = oldSeg :: rest)
    (long : m.maxSegments < m.segments.length) :
    m.evict =
      { m with heap := m.heap.modify oldSeg Segment.release, segments := rest } := by
  rw [evict, if_pos long]
  split
  · rename_i found
    obtain ⟨rfl, rfl⟩ := List.cons.inj (window.symm.trans found)
    rfl
  · rename_i found
    rw [window] at found
    cases found

theorem evict_of_short
    {m : Muxer}
    (short : m.segments.length ≤ m.maxSegments) :
    m.evict = m := by
  rw [evict, if_neg (Nat.not_lt.mpr short)]

/-- The window with the next segment. -/
theorem Shape.segments_concat
    {m : Muxer}
    (shape : m.Shape) :
    m.segments ++ [m.heap.length] =
      List.range' (m.heap.length - m.segments.length) (m.segments.length + 1) := by
  have inside := shape.inside
  rw [List.range'_1_concat, ← shape.recent, Nat.sub_add_cancel inside]

/-- Names after the next segment was added. -/
theorem Shape.named_concat
    {m : Muxer}
    (shape : m.Shape)
    {seg : Segment}
    (name : seg.name = segmentName (m.seqCount + 1)) :
    ∀ p found, (m.heap ++ [seg])[p]? = some found →
      found.name = segmentName (p + 1) := by
  intro p found stored
  rw [List.getElem?_append] at stored
  split at stored
  · exact shape.named p found stored
  · have last : p - m.heap.length = 0 := by
      have bound := (List.getElem?_eq_some_iff.mp stored).1
      simpa using bound
    have same : p = m.heap.length := by omega
    rw [last, List.getElem?_cons_zero, Option.some.injEq] at stored
    rw [← stored, name, same, shape.counted]

/-- Adding a segment under the next number keeps the shape. -/
theorem Shape.appendSegment
    {m : Muxer}
    (shape : m.Shape)
    {seg : Segment}
    (name : seg.name = segmentName (m.seqCount + 1))
    (flag : Bool) :
    (Muxer.appendSegment
      { m with seqCount := m.seqCount + 1, needsDiscontinuity := flag } seg).Shape := by
  have inside := shape.inside
  have three := m.atLeastThree
  have bounded := shape.bounded
  have window := shape.segments_concat
  unfold Muxer.appendSegment
  by_cases long : m.maxSegments < m.segments.length + 1
  · have split : m.segments ++ [m.heap.length] =
        (m.heap.length - m.segments.length) ::
          List.range' (m.heap.length - m.segments.length + 1) m.segments.length := by
      rw [window, List.range'_succ]
    rw [evict_of_long split (by simpa using long)]
    constructor
    · simpa using bounded
    · simp [shape.counted]
    · simp
      omega
    · simp only [List.length_range', List.length_modify, List.length_append,
        List.length_singleton]
      congr 1
      omega
    · intro _ empty
      have none := congrArg List.length empty
      simp only [List.length_range', List.length_nil] at none
      omega
    · exact named_of_listing (listing_modify toListing_release _ _)
        (shape.named_concat name)
  · rw [evict_of_short (by simpa using long)]
    constructor
    · simpa using long
    · simp [shape.counted]
    · simpa using inside
    · simp only [List.length_append, List.length_singleton, Nat.add_sub_add_right]
      exact window
    · simp
    · exact shape.named_concat name

/-! ## Index and playlists -/

/-- The index built over a window of named segments. -/
theorem segIndex_foldl
    {heap : List Segment}
    (name : String)
    (q : Nat)
    (window : List Nat)
    (named : ∀ p ∈ window, ∃ seg, heap[p]? = some seg ∧
      seg.name = segmentName (p + 1))
    (index : Std.ExtTreeMap String Nat compare) :
    (window.foldl (indexSegment heap) index)[name]? = some q ↔
      (q ∈ window ∧ name = segmentName (q + 1)) ∨
        ((∀ p ∈ window, name ≠ segmentName (p + 1)) ∧ index[name]? = some q) := by
  induction window generalizing index with
  | nil => simp
  | cons p window inductionHypothesis =>
      obtain ⟨seg, stored, nameOfSeg⟩ := named p List.mem_cons_self
      have rest := inductionHypothesis
        fun other member => named other (List.mem_cons_of_mem p member)
      rw [List.foldl_cons, rest, indexSegment, stored]
      dsimp only
      rw [nameOfSeg, Std.ExtTreeMap.getElem?_insert]
      by_cases same : segmentName (p + 1) = name
      · subst same
        simp only [segmentName_inj, Nat.add_right_cancel_iff, List.mem_cons,
          forall_eq_or_imp, ne_eq, not_true_eq_false, false_and, or_false,
          Std.compare_self, if_true, Option.some.injEq]
        constructor
        · rintro (⟨_, rfl⟩ | ⟨_, rfl⟩)
          · exact ⟨.inl rfl, rfl⟩
          · exact ⟨.inl rfl, rfl⟩
        · rintro ⟨_, rfl⟩
          by_cases again : p ∈ window
          · exact .inl ⟨again, rfl⟩
          · exact .inr ⟨fun other member equal => again (equal ▸ member), rfl⟩
      · have apart : name ≠ segmentName (p + 1) := Ne.symm same
        have unequal : compare (segmentName (p + 1)) name ≠ .eq := by
          simpa using same
        rw [if_neg unequal]
        simp only [List.mem_cons, forall_eq_or_imp, apart, not_false_eq_true, ne_eq,
          true_and]
        constructor
        · rintro (⟨member, equal⟩ | other)
          · exact .inl ⟨.inr member, equal⟩
          · exact .inr other
        · rintro (⟨rfl | member, equal⟩ | other)
          · exact absurd equal apart
          · exact .inl ⟨member, equal⟩
          · exact .inr other

/-- Index and playlists of a muxer agree with its window. -/
structure Windowed (format : SecondsFormat) (m : Muxer) : Prop extends m.Shape where
  indexed : ∀ (name : String) (p : Nat), m.segIndex[name]? = some p ↔
    p ∈ m.segments ∧ name = segmentName (p + 1)
  rendered : m.segments ≠ [] →
    m.cachedPlaylist = some (renderPlaylist format
      (m.heap.length - m.segments.length + 1) m.listings) ∧
    m.cachedSubsPlaylist = some (renderSubsPlaylist format
      (m.heap.length - m.segments.length + 1) m.listings)

/-- Rebuilding brings index and playlists in step with the window. -/
theorem Shape.rebuild
    {m : Muxer}
    (shape : m.Shape)
    (format : SecondsFormat) :
    (m.rebuildPlaylistsLocked format).Windowed format := by
  unfold rebuildPlaylistsLocked
  split
  · rename_i empty
    rw [List.isEmpty_iff] at empty
    refine ⟨⟨shape.bounded, shape.counted, shape.inside, shape.recent,
      shape.inhabited, shape.named⟩, ?_, fun nonempty => absurd empty nonempty⟩
    intro name p
    simp [empty]
  · refine ⟨⟨shape.bounded, shape.counted, shape.inside, shape.recent,
      shape.inhabited, shape.named⟩, ?_, ?_⟩
    · intro name p
      have named : ∀ p ∈ m.segments, ∃ seg, m.heap[p]? = some seg ∧
          seg.name = segmentName (p + 1) := by
        intro p member
        have bound := shape.lt_length member
        exact ⟨m.heap[p], List.getElem?_eq_getElem bound,
          shape.named p _ (List.getElem?_eq_getElem bound)⟩
      simpa using segIndex_foldl name p m.segments named ∅
    · intro _
      rw [shape.counted]
      exact ⟨rfl, rfl⟩

/-! ## Steps -/

/-- Changes of segments that the playlists do not show. -/
theorem Windowed.modify
    {format : SecondsFormat}
    {m : Muxer}
    (windowed : m.Windowed format)
    {change : Segment → Segment}
    (keeps : ∀ seg, (change seg).toListing = seg.toListing)
    (p : Nat) :
    Windowed format { m with heap := m.heap.modify p change } := by
  have listings : listings { m with heap := m.heap.modify p change } = m.listings := by
    unfold Muxer.listings
    exact List.filterMap_congr fun q _ => listing_modify keeps m.heap p q
  refine ⟨⟨windowed.bounded, ?_, ?_, ?_, ?_, ?_⟩, windowed.indexed, ?_⟩
  · simpa using windowed.counted
  · simpa using windowed.inside
  · simpa using windowed.recent
  · simpa using windowed.inhabited
  · exact named_of_listing (listing_modify keeps _ _) windowed.named
  · rw [listings]
    simpa using windowed.rendered

/-- Changes that concern neither index nor playlists. -/
theorem Windowed.retimed
    {format : SecondsFormat}
    {m : Muxer}
    (windowed : m.Windowed format)
    (lastFrameTime : Int64)
    (flag : Bool) :
    Windowed format
      { m with lastFrameTime := lastFrameTime, needsDiscontinuity := flag } :=
  ⟨⟨windowed.bounded, windowed.counted, windowed.inside, windowed.recent,
    windowed.inhabited, windowed.named⟩, windowed.indexed, windowed.rendered⟩

theorem Windowed.publish
    {format : SecondsFormat}
    {m : Muxer}
    (windowed : m.Windowed format)
    (duration : Int64)
    (content : List MuxedFrame)
    (vttData : WebVTT) :
    (m.publish format duration content vttData).Windowed format :=
  (windowed.toShape.appendSegment rfl false).rebuild format

theorem Windowed.checkWatchdog
    {format : SecondsFormat}
    {m : Muxer}
    (windowed : m.Windowed format)
    (seen now : Int64) :
    (m.checkWatchdog format seen now).Windowed format := by
  rcases m.checkWatchdog_cases format seen now with same | ⟨lastSeg, _, _, repeated⟩
  · rw [same]
    exact windowed
  · have name : (copyOf lastSeg (m.seqCount + 1)).name =
        segmentName (m.seqCount + 1) := rfl
    have rebuilt := (windowed.toShape.appendSegment name
      m.needsDiscontinuity).rebuild format
    rw [repeated]
    exact rebuilt.retimed now true

theorem windowed_newMuxer
    (format : SecondsFormat)
    (maxSegments : Option Int)
    (now : Int64) :
    (newMuxer maxSegments now).Windowed format where
  bounded := Nat.zero_le _
  counted := rfl
  inside := le_rfl
  recent := rfl
  inhabited := fun nonempty => absurd rfl nonempty
  named := by
    intro p seg stored
    simp [newMuxer] at stored
  indexed := by
    intro name p
    simp [newMuxer]
  rendered := fun nonempty => absurd rfl nonempty

/-! ## Listed names -/

theorem getElem?_filterMap_of_isSome
    {select : α → Option β}
    {items : List α}
    (defined : ∀ item ∈ items, (select item).isSome)
    (i : Nat) :
    (items.filterMap select)[i]? = items[i]?.bind select := by
  induction items generalizing i with
  | nil => simp
  | cons item items inductionHypothesis =>
      obtain ⟨value, selected⟩ :=
        Option.isSome_iff_exists.mp (defined item List.mem_cons_self)
      rw [List.filterMap_cons_some selected]
      cases i with
      | zero => simp [selected]
      | succ i =>
          simpa using inductionHypothesis
            (fun other member => defined other (List.mem_cons_of_mem item member)) i

/-- The playlists list the window in order. -/
theorem Shape.getElem?_listings
    {m : Muxer}
    (shape : m.Shape)
    (i : Nat) :
    m.listings[i]? =
      m.segments[i]?.bind fun p => m.heap[p]?.map Segment.toListing := by
  refine getElem?_filterMap_of_isSome ?_ i
  intro p member
  rw [List.getElem?_eq_getElem (shape.lt_length member)]
  rfl

/-- Name of a listed segment. -/
theorem Shape.name_listing
    {m : Muxer}
    (shape : m.Shape)
    {i p : Nat}
    {listing : Listing}
    (present : m.segments[i]? = some p)
    (listed : m.listings[i]? = some listing) :
    listing.name = segmentName (p + 1) := by
  rw [shape.getElem?_listings, present, Option.bind_some] at listed
  obtain ⟨seg, stored, rfl⟩ := Option.map_eq_some_iff.mp listed
  exact shape.named p seg stored

/-- The index has the listed names with the segments at their positions. -/
theorem Windowed.indexed_iff
    {format : SecondsFormat}
    {m : Muxer}
    (windowed : m.Windowed format)
    (name : String)
    (p : Nat) :
    m.segIndex[name]? = some p ↔
      ∃ i : Nat, m.segments[i]? = some p ∧
        m.listings[i]?.map Listing.name = some name := by
  rw [windowed.indexed]
  constructor
  · rintro ⟨member, rfl⟩
    obtain ⟨i, present⟩ := List.getElem?_of_mem member
    refine ⟨i, present, ?_⟩
    have bound := windowed.toShape.lt_length member
    rw [windowed.toShape.getElem?_listings, present, Option.bind_some,
      List.getElem?_eq_getElem bound]
    exact congrArg some (windowed.named p _ (List.getElem?_eq_getElem bound))
  · rintro ⟨i, present, listed⟩
    obtain ⟨listing, found, rfl⟩ := Option.map_eq_some_iff.mp listed
    exact ⟨List.mem_of_getElem? present,
      windowed.toShape.name_listing present found⟩

/-- The window lists consecutive numbers that end with the counter. -/
theorem Shape.names
    {m : Muxer}
    (shape : m.Shape) :
    m.listings.map Listing.name =
      (List.range' (m.heap.length - m.segments.length + 1)
        m.segments.length).map segmentName := by
  have named : m.listings.map Listing.name =
      m.segments.map fun p => segmentName (p + 1) := by
    rw [listings, List.map_filterMap, ← List.filterMap_eq_map]
    refine List.filterMap_congr fun p member => ?_
    have bound := shape.lt_length member
    rw [List.getElem?_eq_getElem bound]
    exact congrArg some (shape.named p _ (List.getElem?_eq_getElem bound))
  rw [named]
  conv_lhs => rw [shape.recent]
  rw [Nat.add_comm _ 1, ← List.map_add_range', List.map_map]
  refine List.map_congr_left fun p _ => ?_
  rw [Function.comp_apply, Nat.add_comm]

/-- A listed segment is found under both of its names. -/
theorem Windowed.acquireSegment_listed
    {format : SecondsFormat}
    {m : Muxer}
    (windowed : m.Windowed format)
    {p : Nat}
    (listed : p ∈ m.segments) :
    (m.acquireSegment (segmentName (p + 1))).2 = some (p, "video/mp2t") ∧
      (m.acquireSegment (vttName (segmentName (p + 1)))).2 =
        some (p, "text/vtt") := by
  have found : m.segIndex[segmentName (p + 1)]? = some p :=
    (windowed.indexed _ p).mpr ⟨listed, rfl⟩
  constructor
  · simp [Muxer.acquireSegment, lookup, tsName_segmentName, found, isVTT_segmentName]
  · simp [Muxer.acquireSegment, lookup, tsName_vttName, found, isVTT_vttName]

end Muxer

/-- Before it is stopped, every step leaves the window consistent. -/
theorem Serving.windowed_step
    {format : SecondsFormat}
    {serving next : Serving}
    {label : ServingStep}
    (windowed : serving.stopped = false → serving.muxer.Windowed format)
    (taken : serving.step format label = some next)
    (running : next.stopped = false) :
    next.muxer.Windowed format := by
  cases label with
  | storeFrameTime now =>
      rw [← Option.some.inj taken] at running ⊢
      exact (windowed running).retimed now _
  | flagDiscontinuity =>
      rw [← Option.some.inj taken] at running ⊢
      exact (windowed running).retimed _ true
  | publish duration content vttData =>
      obtain ⟨before, rfl⟩ := publish_cases taken
      exact (windowed before).publish duration content vttData
  | checkWatchdog seen now =>
      rw [← Option.some.inj taken] at running ⊢
      exact (windowed running).checkWatchdog seen now
  | acquireSegment name =>
      rcases acquireSegment_cases taken with rfl | ⟨p, _, rfl⟩
      · exact windowed running
      · exact (windowed running).modify Muxer.toListing_retain p
  | release p =>
      obtain ⟨_, rfl⟩ := release_cases taken
      exact (windowed running).modify Muxer.toListing_release p
  | getPlaylist =>
      rcases getPlaylist_cases taken with rfl | rfl
      · exact windowed running
      · exact (windowed running).toShape.rebuild format
  | getSubsPlaylist =>
      rcases getSubsPlaylist_cases taken with rfl | rfl
      · exact windowed running
      · exact (windowed running).toShape.rebuild format
  | stop =>
      rw [← Option.some.inj taken] at running
      cases running

/-- The window is consistent until the muxer is stopped. -/
theorem Serving.windowed_run
    {format : SecondsFormat}
    {maxSegments : Option Int}
    {now : Int64}
    {labels : List ServingStep}
    {finish : Serving}
    (reached : run (Serving.step format)
      (Serving.start (newMuxer maxSegments now)) labels = some finish)
    (running : finish.stopped = false) :
    finish.muxer.Windowed format := by
  have preserved : ∀ (serving : Serving) label (next : Serving),
      (serving.stopped = false → serving.muxer.Windowed format) →
      serving.step format label = some next →
      (next.stopped = false → next.muxer.Windowed format) :=
    fun _ _ _ windowed taken => Serving.windowed_step windowed taken
  exact run_invariant preserved
    (fun _ => Muxer.windowed_newMuxer format maxSegments now) reached running

/-- In every state before a stop, at most `maxSegments` segments are held, under
consecutive names that end with the counter; the index maps exactly these names
to these segments; and once there is a segment, both playlists list the window,
starting from the number of its first segment, and both listed names of each
segment are resolved to it. -/
theorem window_in_step
    (format : SecondsFormat)
    (maxSegments : Option Int)
    (now : Int64)
    (labels : List ServingStep)
    {finish : Serving}
    (reached : run (Serving.step format)
      (Serving.start (newMuxer maxSegments now)) labels = some finish)
    (running : finish.stopped = false) :
    finish.muxer.segments.length ≤ finish.muxer.maxSegments ∧
      ∃ first,
        first + finish.muxer.segments.length = finish.muxer.seqCount + 1 ∧
        finish.muxer.listings.map Listing.name =
          (List.range' first finish.muxer.segments.length).map segmentName ∧
        (∀ (name : String) (p : Nat), finish.muxer.segIndex[name]? = some p ↔
          ∃ i : Nat, finish.muxer.segments[i]? = some p ∧
            finish.muxer.listings[i]?.map Listing.name = some name) ∧
        (finish.muxer.seqCount ≠ 0 →
          finish.muxer.segments ≠ [] ∧
          finish.muxer.cachedPlaylist =
            some (renderPlaylist format first finish.muxer.listings) ∧
          finish.muxer.cachedSubsPlaylist =
            some (renderSubsPlaylist format first finish.muxer.listings) ∧
          ∀ (i p : Nat) (listing : Listing),
            finish.muxer.segments[i]? = some p →
            finish.muxer.listings[i]? = some listing →
            (finish.muxer.acquireSegment listing.name).2 =
              some (p, "video/mp2t") ∧
            (finish.muxer.acquireSegment (vttName listing.name)).2 =
              some (p, "text/vtt")) := by
  have windowed := Serving.windowed_run reached running
  generalize finish.muxer = m at windowed ⊢
  have inside := windowed.inside
  have counted := windowed.counted
  refine ⟨windowed.bounded, m.heap.length - m.segments.length + 1, ?_,
    windowed.toShape.names, windowed.indexed_iff, ?_⟩
  · omega
  · intro exists_segment
    have nonempty : m.segments ≠ [] := by
      apply windowed.inhabited
      intro empty
      rw [empty, List.length_nil] at counted
      exact exists_segment counted.symm
    obtain ⟨playlist, subs⟩ := windowed.rendered nonempty
    refine ⟨nonempty, playlist, subs, ?_⟩
    intro i p listing present listed
    rw [windowed.toShape.name_listing present listed]
    exact windowed.acquireSegment_listed (List.mem_of_getElem? present)

/-- Three segments, of which the second is acquired, and a copy of the watchdog that
evicts the first. -/
def repeated : List ServingStep :=
  [.publish 2000000000 [] .empty, .publish 2000000000 [] .empty,
    .publish 2000000000 [] .empty, .acquireSegment "stream_2.ts",
    .checkWatchdog 1 6000000000]

theorem window_in_step_repeated :
    ∃ finish first,
      run (Serving.step wholeSeconds) (Serving.start (newMuxer none 1)) repeated =
        some finish ∧
      finish.stopped = false ∧ finish.handles = [1] ∧
      finish.muxer.segments = [1, 2, 3] ∧
      first + 3 = finish.muxer.seqCount + 1 ∧
      finish.muxer.listings.map Listing.name =
        (List.range' first 3).map segmentName := by
  obtain ⟨_, first, counted, names, _⟩ :=
    window_in_step wholeSeconds none 1 repeated rfl rfl
  exact ⟨_, first, rfl, rfl, rfl, rfl, counted, names⟩

end Hls
end RuseonCore
