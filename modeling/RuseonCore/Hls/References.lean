import RuseonCore.Foundation.Counted
import RuseonCore.Hls.Muxer

/-!
# References to segments

The window of a muxer holds one reference to each of its segments, and every
reader that was handed a segment holds one until it releases it.  Under any
interleaving the reference count of a segment is the number of these references,
so its buffer goes back into the pool once, when the last of them is given up.
-/

namespace RuseonCore
namespace Hls

open Transition

/-! ## Segments as counted cells -/

theorem Segment.refCount_release (seg : Segment) :
    seg.release.refCount = seg.refCount - 1 := by
  unfold Segment.release
  split
  · split <;> rfl
  · rfl

theorem Segment.copied_release (seg : Segment) :
    seg.release.copied = seg.copied := by
  unfold Segment.release
  split
  · split <;> rfl
  · rfl

/-- The data of a segment is what was muxed, and so is its buffer; copies that
the watchdog makes have no buffer of the pool. -/
def Segment.Intact (seg : Segment) : Prop :=
  seg.data = some seg.muxed ∧
    seg.buf = if seg.copied then none else some seg.muxed

theorem Segment.puts_release
    {seg : Segment}
    (intact : seg.Intact) :
    seg.release.puts =
      seg.puts + if seg.refCount = 1 then (if seg.copied then 0 else 1) else 0 := by
  unfold Segment.release
  by_cases last : seg.refCount = 1
  · rw [if_pos (by omega), if_pos last, intact.2]
    cases seg.copied with
    | false => rfl
    | true => rfl
  · rw [if_neg (by omega), if_neg last]
    rfl

theorem Segment.intact_release
    {seg : Segment}
    (intact : seg.Intact)
    (held : seg.refCount ≠ 1) :
    seg.release.Intact := by
  unfold Segment.release
  rw [if_neg (by omega)]
  exact intact

/-- Reference counting of segments: a segment has one buffer of the pool unless
it is a copy. -/
def segmentCounting : Counting Segment where
  count := Segment.refCount
  weight := fun seg => if seg.copied then 0 else 1
  disposed := Segment.puts
  Intact := Segment.Intact
  retain := Segment.retain
  release := Segment.release
  count_retain := fun _ => rfl
  weight_retain := fun _ => rfl
  disposed_retain := fun _ => rfl
  intact_retain := fun _ intact => intact
  count_release := Segment.refCount_release
  weight_release := fun seg => by rw [Segment.copied_release]
  disposed_release := fun _ intact => Segment.puts_release intact
  intact_release := fun _ intact held => Segment.intact_release intact held

namespace Muxer

/-! ## References of the window -/

/-- The references are those of the window and of the handles, and the window
has each of its segments once. -/
structure Counts (m : Muxer) (handles : List Nat) : Prop where
  owned : segmentCounting.Owned m.heap (m.segments ++ handles)
  distinct : m.segments.Nodup

/-- Moreover, the index has no other segments than the window. -/
structure Accounts (m : Muxer) (handles : List Nat) : Prop extends
    m.Counts handles where
  indexed : ∀ (name : String) (p : Nat), m.segIndex[name]? = some p → p ∈ m.segments

theorem mem_of_foldl_indexSegment
    {heap : List Segment}
    {name : String}
    {q : Nat}
    {window : List Nat}
    {index : Std.ExtTreeMap String Nat compare}
    (found : (window.foldl (indexSegment heap) index)[name]? = some q) :
    q ∈ window ∨ index[name]? = some q := by
  induction window generalizing index with
  | nil => exact .inr found
  | cons p window inductionHypothesis =>
      rw [List.foldl_cons] at found
      rcases inductionHypothesis found with later | earlier
      · exact .inl (List.mem_cons_of_mem p later)
      · unfold indexSegment at earlier
        split at earlier
        · rw [Std.ExtTreeMap.getElem?_insert] at earlier
          split at earlier
          · rw [← Option.some.inj earlier]
            exact .inl List.mem_cons_self
          · exact .inr earlier
        · exact .inr earlier

/-- Rebuilding the index leaves no evicted segment in it. -/
theorem Counts.rebuild
    {m : Muxer}
    {handles : List Nat}
    (counts : m.Counts handles)
    (format : SecondsFormat) :
    (m.rebuildPlaylistsLocked format).Accounts handles := by
  unfold rebuildPlaylistsLocked
  split
  · exact ⟨⟨counts.owned, counts.distinct⟩, fun name p found => by simp at found⟩
  · refine ⟨⟨counts.owned, counts.distinct⟩, ?_⟩
    intro name p found
    rcases mem_of_foldl_indexSegment found with listed | none
    · exact listed
    · simp at none

/-- Eviction gives up the reference of the window. -/
theorem Counts.evict
    {m : Muxer}
    {handles : List Nat}
    (counts : m.Counts handles) :
    m.evict.Counts handles := by
  obtain ⟨owned, distinct⟩ := counts
  unfold Muxer.evict
  split
  · split
    · rename_i oldSeg rest window
      rw [window] at owned distinct
      exact ⟨owned.release, distinct.of_cons⟩
    · exact ⟨owned, distinct⟩
  · exact ⟨owned, distinct⟩

/-- A new segment has one reference, which is that of the window. -/
theorem Counts.appendSegment
    {m : Muxer}
    {handles : List Nat}
    (counts : m.Counts handles)
    {seg : Segment}
    (fresh : segmentCounting.Referenced seg 1) :
    (m.appendSegment seg).Counts handles := by
  refine Counts.evict ⟨?_, ?_⟩
  · refine (counts.owned.allocate fresh).perm ?_
    rw [List.append_assoc]
    exact List.perm_middle.symm
  · have unlisted : m.heap.length ∉ m.segments := by
      intro listed
      exact Nat.lt_irrefl _
        (counts.owned.inside _ (List.mem_append_left handles listed))
    exact (List.nodup_append_comm.mp
      (List.nodup_cons.mpr ⟨unlisted, counts.distinct⟩))

theorem Accounts.publish
    {m : Muxer}
    {handles : List Nat}
    (accounts : m.Accounts handles)
    (format : SecondsFormat)
    (duration : Int64)
    (content : List MuxedFrame)
    (vttData : WebVTT) :
    (m.publish format duration content vttData).Accounts handles := by
  have counts : Counts
      { m with seqCount := m.seqCount + 1, needsDiscontinuity := false } handles :=
    ⟨accounts.owned, accounts.distinct⟩
  exact Counts.rebuild (counts.appendSegment ⟨rfl, rfl, fun _ => ⟨rfl, rfl⟩⟩) format

theorem Accounts.checkWatchdog
    {m : Muxer}
    {handles : List Nat}
    (accounts : m.Accounts handles)
    (format : SecondsFormat)
    (seen now : Int64) :
    (m.checkWatchdog format seen now).Accounts handles := by
  rcases m.checkWatchdog_cases format seen now with same | ⟨lastSeg, _, _, repeated⟩
  · rw [same]
    exact accounts
  · have fresh : segmentCounting.Referenced (copyOf lastSeg (m.seqCount + 1)) 1 :=
      ⟨rfl, rfl, fun _ => ⟨rfl, rfl⟩⟩
    have counts : Counts { m with seqCount := m.seqCount + 1 } handles :=
      ⟨accounts.owned, accounts.distinct⟩
    have rebuilt := (counts.appendSegment fresh).rebuild format
    rw [repeated]
    exact ⟨⟨rebuilt.owned, rebuilt.distinct⟩, rebuilt.indexed⟩

/-- Only segments of the window are handed out. -/
theorem Accounts.mem_of_lookup
    {m : Muxer}
    {handles : List Nat}
    (accounts : m.Accounts handles)
    {name : String}
    {p : Nat}
    (found : m.lookup name = some p) :
    p ∈ m.segments := by
  unfold lookup at found
  split at found
  · rename_i indexed
    rw [← Option.some.inj found]
    exact accounts.indexed _ _ indexed
  · exact List.mem_of_find?_eq_some found

theorem Accounts.acquire
    {m : Muxer}
    {handles : List Nat}
    (accounts : m.Accounts handles)
    {p : Nat}
    (listed : p ∈ m.segments) :
    Accounts { m with heap := m.heap.modify p Segment.retain } (p :: handles) := by
  refine ⟨⟨?_, accounts.distinct⟩, accounts.indexed⟩
  exact (accounts.owned.retain (List.mem_append_left handles listed)).perm
    List.perm_middle.symm

theorem Accounts.release
    {m : Muxer}
    {handles : List Nat}
    (accounts : m.Accounts handles)
    {p : Nat}
    (held : p ∈ handles) :
    (m.releaseSegment p).Accounts (handles.erase p) := by
  refine ⟨⟨?_, accounts.distinct⟩, accounts.indexed⟩
  have owners : (m.segments ++ handles).Perm
      (p :: (m.segments ++ handles.erase p)) :=
    ((List.perm_cons_erase held).append_left m.segments).trans List.perm_middle
  exact (accounts.owned.perm owners).release

theorem Accounts.stop
    {m : Muxer}
    {handles : List Nat}
    (accounts : m.Accounts handles) :
    m.stop.Accounts handles where
  owned := accounts.owned.releaseAll
  distinct := List.nodup_nil
  indexed := fun name p found => by simp [Muxer.stop] at found

end Muxer

/-! ## Runs -/

/-- Every step accounts for the references it makes and gives up. -/
theorem Serving.accounts_step
    {format : SecondsFormat}
    {serving next : Serving}
    {label : ServingStep}
    (accounts : serving.muxer.Accounts serving.handles)
    (taken : serving.step format label = some next) :
    next.muxer.Accounts next.handles := by
  cases label with
  | storeFrameTime now =>
      rw [← Option.some.inj taken]
      exact ⟨⟨accounts.owned, accounts.distinct⟩, accounts.indexed⟩
  | flagDiscontinuity =>
      rw [← Option.some.inj taken]
      exact ⟨⟨accounts.owned, accounts.distinct⟩, accounts.indexed⟩
  | publish duration content vttData =>
      obtain ⟨_, rfl⟩ := publish_cases taken
      exact accounts.publish format duration content vttData
  | checkWatchdog seen now =>
      rw [← Option.some.inj taken]
      exact accounts.checkWatchdog format seen now
  | acquireSegment name =>
      rcases acquireSegment_cases taken with rfl | ⟨p, found, rfl⟩
      · exact accounts
      · exact accounts.acquire (accounts.mem_of_lookup found)
  | release p =>
      obtain ⟨held, rfl⟩ := release_cases taken
      exact accounts.release held
  | getPlaylist =>
      rcases getPlaylist_cases taken with rfl | rfl
      · exact accounts
      · exact accounts.toCounts.rebuild format
  | getSubsPlaylist =>
      rcases getSubsPlaylist_cases taken with rfl | rfl
      · exact accounts
      · exact accounts.toCounts.rebuild format
  | stop =>
      rw [← Option.some.inj taken]
      exact accounts.stop

theorem Muxer.accounts_newMuxer
    (maxSegments : Option Int)
    (now : Int64) :
    (newMuxer maxSegments now).Accounts [] where
  owned := Counting.Owned.empty
  distinct := List.nodup_nil
  indexed := fun name p found => by simp [newMuxer] at found

/-- Every reference to a segment is counted. -/
theorem Serving.accounts_run
    {format : SecondsFormat}
    {maxSegments : Option Int}
    {now : Int64}
    {labels : List ServingStep}
    {finish : Serving}
    (reached : run (Serving.step format)
      (Serving.start (newMuxer maxSegments now)) labels = some finish) :
    finish.muxer.Accounts finish.handles := by
  have preserved : ∀ (serving : Serving) label (next : Serving),
      serving.muxer.Accounts serving.handles →
      serving.step format label = some next →
      next.muxer.Accounts next.handles :=
    fun _ _ _ accounts taken => Serving.accounts_step accounts taken
  exact run_invariant preserved (Muxer.accounts_newMuxer maxSegments now) reached

/-- After any interleaving, the reference count of a segment is the number of
unreleased handles plus one for the window; its buffer has been put back once if
neither is left and not at all before; and every handle still sees the data that
was muxed. -/
theorem references_counted
    (format : SecondsFormat)
    (maxSegments : Option Int)
    (now : Int64)
    (labels : List ServingStep)
    {finish : Serving}
    (reached : run (Serving.step format)
      (Serving.start (newMuxer maxSegments now)) labels = some finish) :
    (∀ p seg, finish.muxer.heap[p]? = some seg →
      seg.refCount = (finish.handles.count p : Int) +
          (if p ∈ finish.muxer.segments then 1 else 0) ∧
      seg.puts =
        if seg.copied = false ∧ p ∉ finish.muxer.segments ∧ p ∉ finish.handles
        then 1 else 0) ∧
      ∀ p ∈ finish.handles,
        ∃ seg, finish.muxer.heap[p]? = some seg ∧ seg.data = some seg.muxed := by
  have accounts := Serving.accounts_run reached
  have owners : ∀ p, (finish.muxer.segments ++ finish.handles).count p =
      finish.handles.count p + if p ∈ finish.muxer.segments then 1 else 0 := by
    intro p
    rw [List.count_append, accounts.distinct.count, Nat.add_comm]
  refine ⟨?_, ?_⟩
  · intro p seg stored
    have referenced := accounts.owned.referenced p seg stored
    refine ⟨?_, ?_⟩
    · have count : seg.refCount = _ := referenced.count
      rw [count, owners]
      push_cast
      rfl
    · have puts : seg.puts = if _ then (if seg.copied then 0 else 1) else 0 :=
        referenced.disposed
      rw [puts]
      cases seg.copied with
      | false => simp [List.count_eq_zero]
      | true => simp
  · intro p held
    have owned : p ∈ finish.muxer.segments ++ finish.handles :=
      List.mem_append_right _ held
    have bound := accounts.owned.inside p owned
    have stored := List.getElem?_eq_getElem bound
    exact ⟨_, stored, ((accounts.owned.referenced p _ stored).intact
      (List.count_pos_iff.mpr owned)).1⟩

/-- The muxer stops while a reader holds its only segment. -/
theorem references_counted_stopped :
    ∃ finish,
      run (Serving.step wholeSeconds) (Serving.start (newMuxer none 1))
        [.publish 2000000000 [] .empty, .acquireSegment "stream_1.ts", .stop] =
          some finish ∧
      finish.muxer.segments = [] ∧
      finish.handles = [0] ∧
      ∀ p ∈ finish.handles,
        ∃ seg, finish.muxer.heap[p]? = some seg ∧ seg.data = some seg.muxed :=
  ⟨_, rfl, rfl, rfl,
    (references_counted wholeSeconds none 1
      [.publish 2000000000 [] .empty, .acquireSegment "stream_1.ts", .stop] rfl).2⟩

end Hls
end RuseonCore
