import RuseonCore.Foundation.Intervals
import Mathlib.Algebra.Order.Field.Rat
import Mathlib.Data.List.Sort

/-!
# Seeking on the timeline of the archive

Model of `convertSegmentsToDaySec` and `findSegmentAtTime` in
`web/src/v2/core/timeline-math.ts`.  The segments of a day are clamped to it and sorted
by their starts, and a click on the timeline seeks to a segment that covers the second,
else to the next segment, else to the end of the last one.

Numbers are exact.  The time that a date string denotes, and the local midnight of a
day, are parameters; a size that is never read is left out.
-/

namespace RuseonCore
namespace ArchiveTimeline

open Intervals

/-- A recording; `stop` is the field `end` of the source. -/
structure ArchiveSegment where
  filename : String
  start : String
  stop : String
  deriving DecidableEq

/-- A recording in seconds from midnight. -/
structure DaySecSegment where
  filename : String
  startSec : ℚ
  endSec : ℚ
  durationSec : ℚ
  rawStart : String
  rawEnd : String
  deriving DecidableEq

structure SeekSnapResult where
  segment : Option DaySecSegment
  offsetSec : ℚ
  snapped : Bool
  deriving DecidableEq

/-- Second of the day at which playback begins. -/
def SeekSnapResult.position (result : SeekSnapResult) : Option ℚ :=
  result.segment.map fun segment => segment.startSec + result.offsetSec

section

variable (getTime : String → ℚ)

/-- One iteration of the loop: the part of a segment in the day, if any. -/
def clampSegment (dayStartMs : ℚ) (seg : ArchiveSegment) : Option DaySecSegment :=
  let dayEndMs := dayStartMs + 24 * 60 * 60 * 1000
  let startMs := getTime seg.start
  let endMs := getTime seg.stop
  if endMs < dayStartMs ∨ startMs > dayEndMs then none
  else
    let clampedStartMs := max startMs dayStartMs
    let clampedEndMs := min endMs dayEndMs
    let startSec := max 0 ((clampedStartMs - dayStartMs) / 1000)
    let endSec := min 86400 ((clampedEndMs - dayStartMs) / 1000)
    let durationSec := max 0 (endSec - startSec)
    if durationSec > 0 then
      some ⟨seg.filename, startSec, endSec, durationSec, seg.start, seg.stop⟩
    else none

def convertSegmentsToDaySec
    (getLocalDayStartMs : String → ℚ)
    (segments : List ArchiveSegment)
    (dayDateStr : String) : List DaySecSegment :=
  let result := segments.filterMap (clampSegment getTime (getLocalDayStartMs dayDateStr))
  result.mergeSort fun a b => a.startSec ≤ b.startSec

end

def findSegmentAtTime (segments : List DaySecSegment) (targetSec : ℚ) : SeekSnapResult :=
  match segments with
  | [] => ⟨none, 0, false⟩
  | first :: others =>
      match (first :: others).find? fun seg =>
          targetSec ≥ seg.startSec ∧ targetSec ≤ seg.endSec with
      | some seg => ⟨some seg, targetSec - seg.startSec, false⟩
      | none =>
          match (first :: others).find? fun s => targetSec < s.startSec with
          | some next => ⟨some next, 0, true⟩
          | none =>
              let prev := (first :: others).getLast (List.cons_ne_nil first others)
              ⟨some prev, prev.durationSec, true⟩

/-! ## What seeking should do -/

/-- The segment and the day, from its midnight, have more than an instant in common. -/
def Overlaps (getTime : String → ℚ) (dayStartMs : ℚ) (seg : ArchiveSegment) : Prop :=
  max (getTime seg.start) dayStartMs < min (getTime seg.stop) (dayStartMs + 86400000)

/-- Seconds of the day that are covered by segments that overlap with it. -/
def coveredSeconds
    (getTime : String → ℚ)
    (dayStartMs : ℚ)
    (segments : List ArchiveSegment) : Set ℚ :=
  {sec | 0 ≤ sec ∧ sec ≤ 86400 ∧ ∃ seg ∈ segments, Overlaps getTime dayStartMs seg ∧
    getTime seg.start ≤ dayStartMs + 1000 * sec ∧
    dayStartMs + 1000 * sec ≤ getTime seg.stop}

/-- The part of a segment in the day. -/
def inDay (getTime : String → ℚ) (dayStartMs : ℚ) (seg : ArchiveSegment) : DaySecSegment :=
  let startSec := (max (getTime seg.start) dayStartMs - dayStartMs) / 1000
  let endSec := (min (getTime seg.stop) (dayStartMs + 86400000) - dayStartMs) / 1000
  ⟨seg.filename, startSec, endSec, endSec - startSec, seg.start, seg.stop⟩

/-- Seeking takes the part of a segment in the day, and goes to the second itself if it
is covered, else to the next one that is, else to the last one that is. -/
structure Seeks
    (getTime : String → ℚ)
    (dayStartMs : ℚ)
    (segments : List ArchiveSegment)
    (targetSec : ℚ)
    (result : SeekSnapResult) : Prop where
  taken : ∀ clamped ∈ result.segment,
    ∃ seg ∈ segments, Overlaps getTime dayStartMs seg ∧ clamped = inDay getTime dayStartMs seg
  missing : result.segment = none → ∀ seg ∈ segments, ¬ Overlaps getTime dayStartMs seg
  hit : targetSec ∈ coveredSeconds getTime dayStartMs segments →
    result.position = some targetSec ∧ result.snapped = false
  next : targetSec ∉ coveredSeconds getTime dayStartMs segments →
    (∃ sec ∈ coveredSeconds getTime dayStartMs segments, targetSec < sec) →
      ∃ sec, result.position = some sec ∧ result.snapped = true ∧
        IsLeast {later | later ∈ coveredSeconds getTime dayStartMs segments ∧
          targetSec < later} sec
  last : targetSec ∉ coveredSeconds getTime dayStartMs segments →
    (¬ ∃ sec ∈ coveredSeconds getTime dayStartMs segments, targetSec < sec) →
      (coveredSeconds getTime dayStartMs segments).Nonempty →
        ∃ sec, result.position = some sec ∧ result.snapped = true ∧
          IsGreatest (coveredSeconds getTime dayStartMs segments) sec

/-- The segment that starts last also ends last. -/
def LastEndsLast (segments : List DaySecSegment) : Prop :=
  ∀ last ∈ segments.getLast?, ∀ seg ∈ segments, seg.endSec ≤ last.endSec

/-! ## The segments of a day -/

section

variable {getTime : String → ℚ} {dayStartMs : ℚ}

/-- The second bound on the start of a segment is met already. -/
theorem max_startSec (dayStartMs startMs : ℚ) :
    max 0 ((max startMs dayStartMs - dayStartMs) / 1000) =
      (max startMs dayStartMs - dayStartMs) / 1000 := by
  apply max_eq_right
  apply div_nonneg _ (by norm_num)
  exact sub_nonneg.mpr (le_max_right _ _)

/-- The second bound on the end of a segment is met already. -/
theorem min_endSec (dayStartMs endMs : ℚ) :
    min 86400 ((min endMs (dayStartMs + 86400000) - dayStartMs) / 1000) =
      (min endMs (dayStartMs + 86400000) - dayStartMs) / 1000 := by
  have ends : min endMs (dayStartMs + 86400000) ≤ dayStartMs + 86400000 := min_le_right _ _
  apply min_eq_right
  rw [div_le_iff₀ (by norm_num)]
  linarith

/-- The part in the day has a positive length if it ends behind its start. -/
theorem durationSec_pos_iff (dayStartMs clampedStartMs clampedEndMs : ℚ) :
    max 0 ((clampedEndMs - dayStartMs) / 1000 - (clampedStartMs - dayStartMs) / 1000) > 0 ↔
      clampedStartMs < clampedEndMs := by
  rw [gt_iff_lt, lt_max_iff, sub_pos, div_lt_div_iff_of_pos_right (by norm_num),
    sub_lt_sub_iff_right, or_iff_right (lt_irrefl 0)]

/-- A segment is in the result exactly if it overlaps with the day. -/
theorem clampSegment_eq_some
    {seg : ArchiveSegment}
    {clamped : DaySecSegment} :
    clampSegment getTime dayStartMs seg = some clamped ↔
      Overlaps getTime dayStartMs seg ∧ clamped = inDay getTime dayStartMs seg := by
  have dayEnd : dayStartMs + 24 * 60 * 60 * 1000 = dayStartMs + 86400000 := by norm_num
  unfold clampSegment Overlaps inDay
  dsimp only
  rw [dayEnd, max_startSec, min_endSec]
  split
  · rename_i outside
    have disjoint : ¬ max (getTime seg.start) dayStartMs <
        min (getTime seg.stop) (dayStartMs + 86400000) := by
      rw [not_lt]
      rcases outside with before | after
      · exact (min_le_left _ _).trans (before.le.trans (le_max_right _ _))
      · exact (min_le_right _ _).trans (after.le.trans (le_max_left _ _))
    simp [disjoint]
  · split
    · rename_i positive
      have overlaps := (durationSec_pos_iff _ _ _).mp positive
      rw [max_eq_right (lt_max_iff.mp positive |>.resolve_left (lt_irrefl 0)).le,
        Option.some.injEq, eq_comm]
      exact (and_iff_right overlaps).symm
    · rename_i empty
      have disjoint := mt (durationSec_pos_iff _ _ _).mpr empty
      simp [disjoint]

/-- A clamped segment covers the seconds of the day at which it was recorded. -/
theorem mem_inDay_iff (seg : ArchiveSegment) (sec : ℚ) :
    ((inDay getTime dayStartMs seg).startSec ≤ sec ∧
        sec ≤ (inDay getTime dayStartMs seg).endSec) ↔
      0 ≤ sec ∧ sec ≤ 86400 ∧ getTime seg.start ≤ dayStartMs + 1000 * sec ∧
        dayStartMs + 1000 * sec ≤ getTime seg.stop := by
  have thousand : (0 : ℚ) < 1000 := by norm_num
  rw [inDay, div_le_iff₀ thousand, le_div_iff₀ thousand, sub_le_iff_le_add, le_sub_iff_add_le,
    max_le_iff, le_min_iff]
  constructor
  · rintro ⟨⟨begins, inside⟩, ends, within⟩
    exact ⟨by linarith, by linarith, by linarith, by linarith⟩
  · rintro ⟨inside, within, begins, ends⟩
    exact ⟨⟨by linarith, by linarith⟩, by linarith, by linarith⟩

variable {getLocalDayStartMs : String → ℚ} {segments : List ArchiveSegment} {dayDateStr : String}

theorem mem_convertSegmentsToDaySec {clamped : DaySecSegment} :
    clamped ∈ convertSegmentsToDaySec getTime getLocalDayStartMs segments dayDateStr ↔
      ∃ seg ∈ segments, Overlaps getTime (getLocalDayStartMs dayDateStr) seg ∧
        clamped = inDay getTime (getLocalDayStartMs dayDateStr) seg := by
  rw [convertSegmentsToDaySec, (List.mergeSort_perm _ _).mem_iff, List.mem_filterMap]
  simp only [clampSegment_eq_some]

variable (getTime getLocalDayStartMs segments dayDateStr)

theorem pairwise_convertSegmentsToDaySec :
    (convertSegmentsToDaySec getTime getLocalDayStartMs segments dayDateStr).Pairwise
      fun a b => a.startSec ≤ b.startSec := by
  have transitive : IsTrans DaySecSegment fun a b => a.startSec ≤ b.startSec :=
    ⟨fun a b c first second => first.trans second⟩
  have total : Std.Total fun a b : DaySecSegment => a.startSec ≤ b.startSec :=
    ⟨fun a b => le_total a.startSec b.startSec⟩
  exact List.pairwise_mergeSort' _ _

/-- Clamped segments have a positive length. -/
theorem proper_convertSegmentsToDaySec :
    ∀ seg ∈ convertSegmentsToDaySec getTime getLocalDayStartMs segments dayDateStr,
      seg.startSec < seg.endSec ∧ seg.durationSec = seg.endSec - seg.startSec := by
  intro clamped member
  obtain ⟨seg, -, overlaps, rfl⟩ := mem_convertSegmentsToDaySec.mp member
  refine ⟨?_, rfl⟩
  unfold Overlaps at overlaps
  unfold inDay
  dsimp only
  gcongr

theorem covered_convertSegmentsToDaySec :
    covered DaySecSegment.startSec DaySecSegment.endSec
        (convertSegmentsToDaySec getTime getLocalDayStartMs segments dayDateStr) =
      coveredSeconds getTime (getLocalDayStartMs dayDateStr) segments := by
  ext sec
  constructor
  · rintro ⟨clamped, member, covers⟩
    obtain ⟨seg, isSegment, overlaps, rfl⟩ := mem_convertSegmentsToDaySec.mp member
    obtain ⟨inside, within, recorded⟩ := (mem_inDay_iff seg sec).mp covers
    exact ⟨inside, within, seg, isSegment, overlaps, recorded⟩
  · rintro ⟨inside, within, seg, isSegment, overlaps, recorded⟩
    refine ⟨_, mem_convertSegmentsToDaySec.mpr ⟨seg, isSegment, overlaps, rfl⟩, ?_⟩
    exact (mem_inDay_iff seg sec).mpr ⟨inside, within, recorded⟩

end

/-! ## The search -/

section

variable {segments : List DaySecSegment} {targetSec : ℚ}

theorem mem_of_findSegmentAtTime :
    ∀ seg ∈ (findSegmentAtTime segments targetSec).segment, seg ∈ segments := by
  intro seg found
  unfold findSegmentAtTime at found
  split at found
  · simp at found
  · split at found
    · next hit =>
      obtain rfl := Option.some.inj found
      exact List.mem_of_find?_eq_some hit
    · split at found
      · next next =>
        obtain rfl := Option.some.inj found
        exact List.mem_of_find?_eq_some next
      · obtain rfl := Option.some.inj found
        exact List.getLast_mem _

theorem eq_nil_of_findSegmentAtTime
    (missing : (findSegmentAtTime segments targetSec).segment = none) :
    segments = [] := by
  unfold findSegmentAtTime at missing
  split at missing
  · rfl
  · split at missing
    · simp at missing
    · split at missing <;> simp at missing

theorem findSegmentAtTime_of_hit
    (hit : targetSec ∈ covered DaySecSegment.startSec DaySecSegment.endSec segments) :
    ∃ seg, findSegmentAtTime segments targetSec =
      ⟨some seg, targetSec - seg.startSec, false⟩ := by
  obtain ⟨covering, member, covers⟩ := hit
  cases segments with
  | nil => simp at member
  | cons first others =>
      cases found : (first :: others).find? fun seg =>
          targetSec ≥ seg.startSec ∧ targetSec ≤ seg.endSec with
      | none =>
          have fails := List.find?_eq_none.mp found covering member
          simp [covers] at fails
      | some seg => exact ⟨seg, by simp only [findSegmentAtTime, found]⟩

/-- No segment is hit by a second that is not covered. -/
theorem find_hit_eq_none
    (missed : targetSec ∉ covered DaySecSegment.startSec DaySecSegment.endSec segments) :
    (segments.find? fun seg => targetSec ≥ seg.startSec ∧ targetSec ≤ seg.endSec) = none := by
  rw [List.find?_eq_none]
  intro seg member hits
  exact missed ⟨seg, member, of_decide_eq_true hits⟩

theorem findSegmentAtTime_of_next
    (missed : targetSec ∉ covered DaySecSegment.startSec DaySecSegment.endSec segments)
    {next : DaySecSegment}
    (found : (segments.find? fun s => targetSec < s.startSec) = some next) :
    findSegmentAtTime segments targetSec = ⟨some next, 0, true⟩ := by
  have noHit := find_hit_eq_none missed
  cases segments with
  | nil => simp at found
  | cons first others => simp only [findSegmentAtTime, noHit, found]

theorem findSegmentAtTime_of_last
    (missed : targetSec ∉ covered DaySecSegment.startSec DaySecSegment.endSec segments)
    (noNext : (segments.find? fun s => targetSec < s.startSec) = none)
    {last : DaySecSegment}
    (isLast : segments.getLast? = some last) :
    findSegmentAtTime segments targetSec = ⟨some last, last.durationSec, true⟩ := by
  have noHit := find_hit_eq_none missed
  cases segments with
  | nil => simp at isLast
  | cons first others =>
      rw [List.getLast?_eq_some_getLast (List.cons_ne_nil first others),
        Option.some.injEq] at isLast
      simp only [findSegmentAtTime, noHit, noNext, isLast]

theorem position_of_hit
    (hit : targetSec ∈ covered DaySecSegment.startSec DaySecSegment.endSec segments) :
    (findSegmentAtTime segments targetSec).position = some targetSec ∧
      (findSegmentAtTime segments targetSec).snapped = false := by
  obtain ⟨seg, found⟩ := findSegmentAtTime_of_hit hit
  rw [found]
  refine ⟨?_, rfl⟩
  change some (seg.startSec + (targetSec - seg.startSec)) = some targetSec
  rw [add_sub_cancel]

section

variable (proper : ∀ seg ∈ segments,
  seg.startSec < seg.endSec ∧ seg.durationSec = seg.endSec - seg.startSec)

include proper

theorem position_of_next
    (sorted : segments.Pairwise fun a b => a.startSec ≤ b.startSec)
    (missed : targetSec ∉ covered DaySecSegment.startSec DaySecSegment.endSec segments)
    (later : ∃ sec ∈ covered DaySecSegment.startSec DaySecSegment.endSec segments,
      targetSec < sec) :
    ∃ sec, (findSegmentAtTime segments targetSec).position = some sec ∧
      (findSegmentAtTime segments targetSec).snapped = true ∧
      IsLeast {later | later ∈ covered DaySecSegment.startSec DaySecSegment.endSec segments ∧
        targetSec < later} sec := by
  have ordered := fun seg member => (proper seg member).1.le
  obtain ⟨next, found⟩ :=
    Option.isSome_iff_exists.mp ((exists_covered_iff_find ordered missed).mp later)
  rw [findSegmentAtTime_of_next missed found]
  refine ⟨next.startSec, ?_, rfl, isLeast_start ordered sorted missed found⟩
  change some (next.startSec + 0) = some next.startSec
  rw [add_zero]

theorem position_of_last
    (missed : targetSec ∉ covered DaySecSegment.startSec DaySecSegment.endSec segments)
    (noLater : ¬ ∃ sec ∈ covered DaySecSegment.startSec DaySecSegment.endSec segments,
      targetSec < sec)
    {last : DaySecSegment}
    (isLast : segments.getLast? = some last) :
    (findSegmentAtTime segments targetSec).position = some last.endSec ∧
      (findSegmentAtTime segments targetSec).snapped = true := by
  have ordered := fun seg member => (proper seg member).1.le
  rw [exists_covered_iff_find ordered missed, Option.not_isSome_iff_eq_none] at noLater
  rw [findSegmentAtTime_of_last missed noLater isLast]
  refine ⟨?_, rfl⟩
  change some (last.startSec + last.durationSec) = some last.endSec
  rw [(proper last (List.mem_of_getLast? isLast)).2, add_sub_cancel]

theorem covered_nonempty (nonempty : segments ≠ []) :
    (covered DaySecSegment.startSec DaySecSegment.endSec segments).Nonempty := by
  obtain ⟨seg, member⟩ := List.exists_mem_of_ne_nil segments nonempty
  exact ⟨seg.startSec, seg, member, le_rfl, (proper seg member).1.le⟩

/-- Behind all segments, seeking goes to the last second that is covered exactly if the last
segment ends there. -/
theorem sought_last_iff
    (missed : targetSec ∉ covered DaySecSegment.startSec DaySecSegment.endSec segments)
    (noLater : ¬ ∃ sec ∈ covered DaySecSegment.startSec DaySecSegment.endSec segments,
      targetSec < sec)
    (nonempty : segments ≠ []) :
    (∃ sec, (findSegmentAtTime segments targetSec).position = some sec ∧
        (findSegmentAtTime segments targetSec).snapped = true ∧
        IsGreatest (covered DaySecSegment.startSec DaySecSegment.endSec segments) sec) ↔
      LastEndsLast segments := by
  have isLast := List.getLast?_eq_some_getLast nonempty
  obtain ⟨position, snapped⟩ := position_of_last proper missed noLater isLast
  have greatest := isGreatest_stop_iff (fun seg member => (proper seg member).1.le)
    (List.mem_of_getLast? isLast)
  rw [position, snapped, LastEndsLast, isLast]
  constructor
  · rintro ⟨sec, same, -, isGreatest⟩ last isLast
    obtain rfl := Option.some.inj same
    obtain rfl := Option.some.inj isLast
    exact greatest.mp isGreatest
  · intro endsLast
    exact ⟨_, rfl, rfl, greatest.mpr (endsLast _ rfl)⟩

end

end

/-! ## Seeking in the segments of a day -/

section

variable {getTime getLocalDayStartMs : String → ℚ} {segments : List ArchiveSegment}
variable {dayDateStr : String} {targetSec : ℚ}

/-- Behind all segments, seeking must find the one that starts last at the end. -/
theorem lastEndsLast_of_seeks
    (seeks : Seeks getTime (getLocalDayStartMs dayDateStr) segments targetSec
      (findSegmentAtTime
        (convertSegmentsToDaySec getTime getLocalDayStartMs segments dayDateStr) targetSec))
    (behind : ¬ ∃ sec ∈ coveredSeconds getTime (getLocalDayStartMs dayDateStr) segments,
      targetSec ≤ sec) :
    LastEndsLast (convertSegmentsToDaySec getTime getLocalDayStartMs segments dayDateStr) := by
  have proper := proper_convertSegmentsToDaySec getTime getLocalDayStartMs segments dayDateStr
  have last := seeks.last
  rw [← covered_convertSegmentsToDaySec] at behind last
  have missed := mt (fun hit => ⟨targetSec, hit, le_rfl⟩) behind
  by_cases empty : convertSegmentsToDaySec getTime getLocalDayStartMs segments dayDateStr = []
  · rw [empty]
    simp [LastEndsLast]
  · have noLater := mt (Exists.imp fun sec later => And.imp_right le_of_lt later) behind
    rw [← sought_last_iff proper missed noLater empty]
    exact last missed noLater (covered_nonempty proper empty)

/-- Seeking goes where it should if the target is not behind all segments, or the one that
starts last also ends last. -/
theorem seeks_of_lastEndsLast
    (condition : (∃ sec ∈ coveredSeconds getTime (getLocalDayStartMs dayDateStr) segments,
        targetSec ≤ sec) ∨
      LastEndsLast
        (convertSegmentsToDaySec getTime getLocalDayStartMs segments dayDateStr)) :
    Seeks getTime (getLocalDayStartMs dayDateStr) segments targetSec
      (findSegmentAtTime
        (convertSegmentsToDaySec getTime getLocalDayStartMs segments dayDateStr)
        targetSec) := by
  have sorted :=
    pairwise_convertSegmentsToDaySec getTime getLocalDayStartMs segments dayDateStr
  have proper := proper_convertSegmentsToDaySec getTime getLocalDayStartMs segments dayDateStr
  have coveredDay :=
    covered_convertSegmentsToDaySec getTime getLocalDayStartMs segments dayDateStr
  constructor
  case taken =>
    intro clamped found
    exact mem_convertSegmentsToDaySec.mp (mem_of_findSegmentAtTime clamped found)
  case missing =>
    intro missing seg member overlaps
    have clamped := mem_convertSegmentsToDaySec.mpr ⟨seg, member, overlaps, rfl⟩
    rw [eq_nil_of_findSegmentAtTime missing] at clamped
    exact List.not_mem_nil clamped
  case hit =>
    rw [← coveredDay]
    exact position_of_hit
  case next =>
    rw [← coveredDay]
    exact position_of_next proper sorted
  case last =>
    rw [← coveredDay] at condition ⊢
    rintro missed noLater ⟨someSec, seg, member, -⟩
    refine (sought_last_iff proper missed noLater (List.ne_nil_of_mem member)).mpr
      (condition.resolve_left ?_)
    rintro ⟨sec, isCovered, notBefore⟩
    rcases notBefore.lt_or_eq with after | rfl
    · exact noLater ⟨sec, isCovered, after⟩
    · exact missed isCovered

end

/-- Seeking goes where it should unless the second lies behind all segments and the one
that starts last does not end last. -/
theorem findSegmentAtTime_seeks_iff
    (getTime getLocalDayStartMs : String → ℚ)
    (segments : List ArchiveSegment)
    (dayDateStr : String)
    (targetSec : ℚ) :
    Seeks getTime (getLocalDayStartMs dayDateStr) segments targetSec
        (findSegmentAtTime
          (convertSegmentsToDaySec getTime getLocalDayStartMs segments dayDateStr) targetSec) ↔
      (∃ sec ∈ coveredSeconds getTime (getLocalDayStartMs dayDateStr) segments,
          targetSec ≤ sec) ∨
        LastEndsLast
          (convertSegmentsToDaySec getTime getLocalDayStartMs segments dayDateStr) := by
  constructor
  · intro seeks
    by_cases behind : ∃ sec ∈ coveredSeconds getTime (getLocalDayStartMs dayDateStr) segments,
        targetSec ≤ sec
    · exact .inl behind
    · exact .inr (lastEndsLast_of_seeks seeks behind)
  · exact seeks_of_lastEndsLast

/-- A long recording of the morning and a short one made meanwhile. -/
def nestedRecordings : List ArchiveSegment :=
  [⟨"morning", "1970-01-01T08:00:00Z", "1970-01-01T10:00:00Z"⟩,
    ⟨"alarm", "1970-01-01T09:00:00Z", "1970-01-01T09:10:00Z"⟩]

/-- Milliseconds of the dates, which are also those from midnight. -/
def clockTime (time : String) : ℚ :=
  if time = "1970-01-01T08:00:00Z" then 28800000
  else if time = "1970-01-01T09:00:00Z" then 32400000
  else if time = "1970-01-01T09:10:00Z" then 33000000
  else 36000000

/-- The long recording in seconds. -/
def morning : DaySecSegment :=
  ⟨"morning", 28800, 36000, 7200, "1970-01-01T08:00:00Z", "1970-01-01T10:00:00Z"⟩

/-- The short one. -/
def alarm : DaySecSegment :=
  ⟨"alarm", 32400, 33000, 600, "1970-01-01T09:00:00Z", "1970-01-01T09:10:00Z"⟩

theorem convert_nestedRecordings :
    convertSegmentsToDaySec clockTime (fun _ => 0) nestedRecordings "1970-01-01" =
      [morning, alarm] := by
  have clamped : nestedRecordings.filterMap (clampSegment clockTime 0) = [morning, alarm] := by
    decide +kernel
  rw [convertSegmentsToDaySec, clamped]
  apply List.mergeSort_of_pairwise
  decide +kernel

/-- A click at noon seeks to the end of the short recording at 09:10, although the long one
goes on until 10:00. -/
theorem seek_behind_nestedRecordings :
    findSegmentAtTime
        (convertSegmentsToDaySec clockTime (fun _ => 0) nestedRecordings "1970-01-01") 43200 =
      ⟨some alarm, 600, true⟩ ∧
    (36000 : ℚ) ∈ coveredSeconds clockTime 0 nestedRecordings ∧
    ¬ Seeks clockTime 0 nestedRecordings 43200
      (findSegmentAtTime
        (convertSegmentsToDaySec clockTime (fun _ => 0) nestedRecordings "1970-01-01") 43200) := by
  have coveredDay :=
    covered_convertSegmentsToDaySec clockTime (fun _ => 0) nestedRecordings "1970-01-01"
  rw [convert_nestedRecordings] at coveredDay ⊢
  have sought : findSegmentAtTime [morning, alarm] 43200 = ⟨some alarm, 600, true⟩ := by
    decide +kernel
  have member : (36000 : ℚ) ∈ coveredSeconds clockTime 0 nestedRecordings := by
    rw [← coveredDay]
    refine ⟨_, List.mem_cons_self, ?_⟩
    decide +kernel
  refine ⟨sought, member, fun seeks => ?_⟩
  have notAfter : ∀ sec ∈ coveredSeconds clockTime 0 nestedRecordings, sec ≤ 36000 := by
    rw [← coveredDay]
    rintro sec ⟨seg, isSegment, -, ends⟩
    refine ends.trans ?_
    clear ends
    revert seg
    decide +kernel
  have missed : (43200 : ℚ) ∉ coveredSeconds clockTime 0 nestedRecordings :=
    fun hit => absurd (notAfter 43200 hit) (by norm_num)
  have noLater : ¬ ∃ sec ∈ coveredSeconds clockTime 0 nestedRecordings, 43200 < sec :=
    fun ⟨sec, isCovered, after⟩ => by linarith [notAfter sec isCovered]
  obtain ⟨sec, position, -, greatest⟩ := seeks.last missed noLater ⟨36000, member⟩
  rw [sought] at position
  have reached : (32400 : ℚ) + 600 = sec := Option.some.inj position
  linarith [greatest.2 member]

end ArchiveTimeline
end RuseonCore
