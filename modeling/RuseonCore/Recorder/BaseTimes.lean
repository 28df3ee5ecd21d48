import RuseonCore.Recorder.Handling

/-!
# Base times of parts

The base time of a part is the timestamp of its first frame relative to that of
the file, a signed difference that is stored without its sign.  The base times of
a file are those of its parts and that of the part which is being collected.
They are in order as long as no keyframe comes before the one that began the part,
which a camera does not promise: its timestamps start anew with every session,
while the file goes on.
-/

namespace RuseonCore
namespace Recorder

open Buffer Rtsp Transition

/-- Base times that are not negative as signed numbers, and never fall. -/
structure Ascending (times : List UInt64) : Prop where
  signed : ∀ time ∈ times, 0 ≤ time.toInt64
  sorted : times.Pairwise (· ≤ ·)

/-- Base times of the parts of a file. -/
def OpenFile.baseTimes (file : OpenFile) : List UInt64 :=
  file.parts.map Part.baseTime

namespace Run

/-- The base times of every file are in order, with that of the part which is
being collected for the open file. -/
structure WellTimed (r : Run) : Prop where
  archived : ∀ file ∈ r.archive, Ascending file.baseTimes
  opened : ∀ file, r.file = some file →
    Ascending (file.baseTimes ++ [r.partStartBaseTime])

/-- The frame is the first one of a file. -/
def begins (r : Run) (f : Frame) (answers : FrameAnswers) : Bool :=
  (r.file.isNone || (f.isKeyFrame && answers.expired)) &&
    (r.handle f answers).file.isSome

/-- The frame is a keyframe that completes a part of the open file. -/
def completes (r : Run) (f : Frame) (answers : FrameAnswers) : Bool :=
  r.file.isSome && !(f.isKeyFrame && answers.expired) &&
    (f.isKeyFrame && r.hasSamples) && decide (answers.gop = .ok)

end Run

/-- The recorder, with the keyframe that began the part which is being
collected. -/
structure Anchored where
  run : Run
  began : Option Frame

namespace Anchored

def start : Anchored where
  run := Run.start
  began := none

/-- A step of the recorder; a part begins with the file, or with the keyframe that
completes the part before it. -/
def step (t : Anchored) (label : RunStep) : Option Anchored :=
  (t.run.step label).map fun next =>
    { run := next
      began :=
        match label with
        | .frame f answers =>
            if t.run.begins f answers || t.run.completes f answers then some f
            else t.began
        | _ => t.began }

def WellTimed (t : Anchored) : Prop :=
  t.run.WellTimed

/-- A keyframe that completes a part has a timestamp, in ticks of the 90 kHz clock,
not below that of the keyframe that began the part. -/
def InOrder (t : Anchored) : RunStep → Prop
  | .frame f answers =>
      t.run.completes f answers = true → ∀ first ∈ t.began,
        durationTo90k (timestamp first) ≤ durationTo90k (timestamp f)
  | _ => True

instance (t : Anchored) (label : RunStep) : Decidable (t.InOrder label) :=
  match label with
  | .frame _ _ => inferInstanceAs (Decidable (_ → _))
  | .poll _ | .exit _ => inferInstanceAs (Decidable True)

end Anchored

/-! ## Base times in order -/

namespace Ascending

/-- A later base time keeps the order exactly if it is not negative and not less
than the last one. -/
theorem concat_iff
    {times : List UInt64}
    {last : UInt64}
    (ascending : Ascending (times ++ [last]))
    (next : UInt64) :
    Ascending (times ++ [last] ++ [next]) ↔ 0 ≤ next.toInt64 ∧ last ≤ next := by
  have bounded : ∀ time ∈ times, time ≤ last := fun time member =>
    (List.pairwise_append.mp ascending.sorted).2.2 time member last
      (List.mem_singleton.mpr rfl)
  constructor
  · intro longer
    have later := (List.pairwise_append.mp longer.sorted).2.2 last (by simp) next
      (List.mem_singleton.mpr rfl)
    exact ⟨longer.signed next (by simp), later⟩
  · rintro ⟨signed, later⟩
    refine ⟨?_, List.pairwise_append.mpr ⟨ascending.sorted, List.pairwise_singleton _ _, ?_⟩⟩
    · intro time member
      rcases List.mem_append.mp member with old | new
      · exact ascending.signed time old
      · rw [List.mem_singleton.mp new]
        exact signed
    · intro time member new isNew
      rw [List.mem_singleton.mp isNew]
      rcases List.mem_append.mp member with old | isLast
      · exact UInt64.le_trans (bounded time old) later
      · rw [List.mem_singleton.mp isLast]
        exact later

/-- The base times stay in order without the last one. -/
theorem of_concat
    {times : List UInt64}
    {last : UInt64}
    (ascending : Ascending (times ++ [last])) :
    Ascending times where
  signed := fun time member => ascending.signed time (List.mem_append_left _ member)
  sorted := (List.pairwise_append.mp ascending.sorted).1

theorem nil : Ascending [] where
  signed := fun time member => by cases member
  sorted := List.Pairwise.nil

/-- The only part of a file may start with it. -/
theorem zero : Ascending [0] where
  signed := fun time member => by
    rw [List.mem_singleton.mp member]
    decide
  sorted := List.pairwise_singleton _ _

end Ascending

namespace Run

/-- The base time of the part that was collected joins those of the file. -/
theorem Extends.baseTimes
    {r : Run}
    {before after : OpenFile}
    (longer : r.Extends before after) :
    after.baseTimes = before.baseTimes ++ [r.partStartBaseTime] := by
  obtain ⟨part, parts, base, _⟩ := longer.parts
  rw [OpenFile.baseTimes, parts, List.map_append, List.map_singleton, base]
  rfl

/-- A file that is completed has its base times in order. -/
theorem Finishes.ascending
    {r : Run}
    {before after : OpenFile}
    (finishes : r.Finishes before after)
    (ascending : Ascending (before.baseTimes ++ [r.partStartBaseTime])) :
    Ascending after.baseTimes := by
  rcases finishes with rfl | longer
  · exact ascending.of_concat
  · rw [longer.baseTimes]
    exact ascending

theorem WellTimed.closes
    {r next : Run}
    (wellTimed : r.WellTimed)
    (closes : r.Closes next) :
    next.WellTimed where
  archived := by
    apply closes.archived (fun file => Ascending file.baseTimes) wellTimed.archived
    intro file after opened finishes
    exact finishes.ascending (wellTimed.opened file opened)
  opened := fun file found => by
    rw [closes.file] at found
    cases found

/-- A file that has just begun has no parts. -/
theorem WellTimed.begun
    {r : Run}
    (wellTimed : r.WellTimed)
    (f : Frame)
    (answers : FrameAnswers) :
    (((r.openFile answers).beginFile f).addSample f answers.built).WellTimed where
  archived := by
    rw [archive_addSample]
    exact wellTimed.archived
  opened := fun file found => by
    rw [file_addSample] at found
    rw [partStartBaseTime_addSample, ← Option.some.inj found]
    exact Ascending.zero

/-- A part that is written for a keyframe leaves the base times in order exactly
if the keyframe comes late enough. -/
theorem wellTimed_flushed_iff
    {r next : Run}
    (wellTimed : r.WellTimed)
    {file after : OpenFile}
    (opened : r.file = some file)
    (archive : next.archive = r.archive)
    (reopened : next.file = some after)
    (parts : after.baseTimes = file.baseTimes ++ [r.partStartBaseTime]) :
    next.WellTimed ↔
      0 ≤ next.partStartBaseTime.toInt64 ∧
        r.partStartBaseTime ≤ next.partStartBaseTime := by
  rw [← (wellTimed.opened file opened).concat_iff]
  constructor
  · intro nextTimed
    have ascending := nextTimed.opened after reopened
    rwa [parts] at ascending
  · intro ascending
    refine ⟨?_, ?_⟩
    · rw [archive]
      exact wellTimed.archived
    · intro other found
      rw [reopened] at found
      rw [← Option.some.inj found, parts]
      exact ascending

end Run

/-- Differences of ticks that are not negative are ordered like the ticks, also
without their sign. -/
theorem baseTime_le_iff
    (opening first later : Int64)
    (nonneg : 0 ≤ durationTo90k first - durationTo90k opening) :
    (0 ≤ durationTo90k later - durationTo90k opening ∧
      (durationTo90k first - durationTo90k opening).toUInt64 ≤
        (durationTo90k later - durationTo90k opening).toUInt64) ↔
      durationTo90k first ≤ durationTo90k later := by
  have boundOpening := toInt_durationTo90k_bounds opening
  have boundFirst := toInt_durationTo90k_bounds first
  have boundLater := toInt_durationTo90k_bounds later
  have firstGap := @toInt_sub_of_fits (durationTo90k first) (durationTo90k opening)
    (by omega) (by omega)
  have laterGap := @toInt_sub_of_fits (durationTo90k later) (durationTo90k opening)
    (by omega) (by omega)
  have ahead := Int64.le_iff_toInt_le.mp nonneg
  rw [Int64.toInt_zero] at ahead
  have same (signed : 0 ≤ durationTo90k later - durationTo90k opening) :
      (durationTo90k first - durationTo90k opening).toUInt64 ≤
          (durationTo90k later - durationTo90k opening).toUInt64 ↔
        durationTo90k first ≤ durationTo90k later := by
    have ahead := Int64.le_iff_toInt_le.mp signed
    rw [Int64.toInt_zero] at ahead
    rw [UInt64.le_iff_toNat_le, Int64.toNat_toUInt64_of_le nonneg,
      Int64.toNat_toUInt64_of_le signed, ← Int64.toNat_toInt, ← Int64.toNat_toInt,
      Int64.le_iff_toInt_le]
    omega
  refine ⟨fun ⟨signed, less⟩ => (same signed).mp less, fun ordered => ?_⟩
  have signed : 0 ≤ durationTo90k later - durationTo90k opening := by
    have := Int64.le_iff_toInt_le.mp ordered
    rw [Int64.le_iff_toInt_le, Int64.toInt_zero, laterGap]
    omega
  exact ⟨signed, (same signed).mpr ordered⟩

namespace Anchored

/-- The base time of the part is that of the keyframe which began it. -/
def Based (t : Anchored) : Prop :=
  t.run.file.isSome = true → ∃ opening first : Frame,
    t.run.initialPts = durationTo90k (timestamp opening) ∧ t.began = some first ∧
      t.run.partStartBaseTime = (durationTo90k (timestamp first) - t.run.initialPts).toUInt64

/-- A frame that finds no file, or replaces it, completes no part of it. -/
theorem not_completes_of_replaced
    {r : Run}
    {f : Frame}
    {answers : FrameAnswers}
    (replaced : r.file.isSome = true → (f.isKeyFrame && answers.expired) = true) :
    r.completes f answers = false := by
  unfold Run.completes
  cases opened : r.file.isSome with
  | false => rfl
  | true => rw [replaced opened]; rfl

theorem based_of_closed {t : Anchored} (closed : t.run.file = none) : t.Based := by
  intro opened
  rw [closed] at opened
  cases opened

/-- Handling a frame remembers the keyframe that began the part, and leaves the base
times in order exactly if the frame does not come too early. -/
theorem Based.handle
    {t : Anchored}
    (based : t.Based)
    (f : Frame)
    (answers : FrameAnswers) :
    Based
        { run := t.run.handle f answers
          began :=
            if t.run.begins f answers || t.run.completes f answers then some f
            else t.began } ∧
      (t.WellTimed →
        ((t.run.handle f answers).WellTimed ↔ t.InOrder (.frame f answers))) := by
  have passes : t.run.completes f answers = false → t.InOrder (.frame f answers) := by
    intro incomplete completes
    rw [incomplete] at completes
    cases completes
  cases t.run.handles_handle f answers with
  | dropped replaced closes =>
      exact ⟨based_of_closed closes.file, fun wellTimed =>
        iff_of_true (Run.WellTimed.closes wellTimed closes)
          (passes (not_completes_of_replaced replaced))⟩
  | unheaded rotated replaced closes file closed archive empty =>
      refine ⟨based_of_closed file, fun wellTimed =>
        iff_of_true ⟨?_, ?_⟩ (passes (not_completes_of_replaced replaced))⟩
      · rw [archive]
        intro other member
        rcases List.mem_append.mp member with old | new
        · exact (Run.WellTimed.closes wellTimed closes).archived other old
        · rw [List.mem_singleton.mp new, OpenFile.baseTimes, empty]
          exact Ascending.nil
      · intro other found
        rw [file] at found
        cases found
  | begun rotated replaced closes built result =>
      rw [result]
      refine ⟨fun isOpen => ⟨f, f, ?_, ?_, ?_⟩, fun wellTimed =>
        iff_of_true ((Run.WellTimed.closes wellTimed closes).begun f answers)
          (passes (not_completes_of_replaced replaced))⟩
      · rw [Run.initialPts_addSample]
        rfl
      · have begins : t.run.begins f answers = true := by
          rw [Run.begins, result, isOpen, Bool.and_true]
          cases opened : t.run.file with
          | none => rfl
          | some file => exact replaced (by rw [opened]; rfl)
        simp [begins]
      · rw [Run.partStartBaseTime_addSample, Run.initialPts_addSample]
        change 0 = (durationTo90k (timestamp f) - durationTo90k (timestamp f)).toUInt64
        rw [Int64.sub_self]
        rfl
  | held opened current unflushed result =>
      have incomplete : t.run.completes f answers = false := by
        simp [Run.completes, unflushed]
      have same : (t.run.begins f answers || t.run.completes f answers) = false := by
        simp [Run.begins, incomplete, current, Option.isSome_iff_ne_none.mp opened]
      rw [result]
      refine ⟨fun _ => ?_, fun wellTimed => iff_of_true ⟨?_, ?_⟩ (passes incomplete)⟩
      · simpa [same, Run.initialPts_addSample, Run.partStartBaseTime_addSample] using
          based opened
      · rw [Run.archive_addSample]
        exact wellTimed.archived
      · rw [Run.file_addSample, Run.partStartBaseTime_addSample]
        exact wellTimed.opened
  | flushed file after opened current flushes written reopened longer archive
      baseTime _ _ _ initialPts =>
      have isOpen : t.run.file.isSome = true := by
        rw [opened]
        rfl
      have completes : t.run.completes f answers = true := by
        simp [Run.completes, isOpen, current, flushes, written]
      obtain ⟨opening, first, initial, began, base⟩ := based isOpen
      refine ⟨fun _ => ⟨opening, f, initialPts.trans initial, by simp [completes], ?_⟩,
        fun wellTimed => ?_⟩
      · rw [baseTime, Run.currentPts, initialPts]
      · have signed := (wellTimed.opened file opened).signed _
          (List.mem_append_right _ (List.mem_singleton.mpr rfl))
        rw [base, initial, Int64.toInt64_toUInt64] at signed
        rw [Run.wellTimed_flushed_iff wellTimed opened archive reopened longer.baseTimes,
          baseTime, Int64.toInt64_toUInt64, base, Run.currentPts, initial,
          baseTime_le_iff _ _ _ signed]
        simp [InOrder, completes, began]
  | broken opened current flushes unwritten closes =>
      refine ⟨based_of_closed closes.file, fun wellTimed =>
        iff_of_true (Run.WellTimed.closes wellTimed closes) (passes ?_)⟩
      simp [Run.completes, unwritten]

theorem Based.step
    {t next : Anchored}
    {label : RunStep}
    (based : t.Based)
    (taken : t.step label = some next) :
    next.Based := by
  obtain ⟨after, stepped, rfl⟩ := Option.map_eq_some_iff.mp taken
  cases Run.steps_of_step stepped with
  | polled found phase _ => exact based
  | handled f answers _ => exact (based.handle f answers).1
  | cancelled answers _ => exact based
  | finished answers _ => exact based_of_closed (t.run.file_finish answers)

/-- A step leaves the base times in order exactly if its frame does not come too
early. -/
theorem wellTimed_step_iff
    {t next : Anchored}
    {label : RunStep}
    (based : t.Based)
    (wellTimed : t.WellTimed)
    (taken : t.step label = some next) :
    next.WellTimed ↔ t.InOrder label := by
  obtain ⟨after, stepped, rfl⟩ := Option.map_eq_some_iff.mp taken
  cases Run.steps_of_step stepped with
  | polled found phase _ =>
      exact iff_of_true ⟨wellTimed.archived, wellTimed.opened⟩ trivial
  | handled f answers _ => exact (based.handle f answers).2 wellTimed
  | cancelled answers _ =>
      exact iff_of_true ⟨wellTimed.archived, wellTimed.opened⟩ trivial
  | finished answers _ =>
      have finished := Run.WellTimed.closes wellTimed (t.run.closes_finish answers)
      exact iff_of_true ⟨finished.archived, finished.opened⟩ trivial

theorem wellTimed_start : start.WellTimed where
  archived := fun file member => by cases member
  opened := fun file found => by cases found

end Anchored

/-- All along a run over frames with any timestamps, the base times of every file
are not negative and never fall, exactly if every keyframe that completes a part
comes, by the 90 kHz clock, no earlier than the keyframe that began the part. -/
theorem base_times_ascend_iff
    (labels : List RunStep)
    {finish : Anchored}
    (reached : run Anchored.step Anchored.start labels = some finish) :
    Always Anchored.step Anchored.WellTimed Anchored.start labels ↔
      Meets Anchored.step Anchored.InOrder Anchored.start labels := by
  exact always_iff_meets (fun _ _ _ => Anchored.Based.step)
    (fun _ _ _ => Anchored.wellTimed_step_iff) (Anchored.based_of_closed rfl)
    Anchored.wellTimed_start reached

/-- A file with three parts is rotated, and the timestamps of the next one are
lower. -/
def rotated : List RunStep :=
  [.poll true, .frame (keyframeAt 10) smoothly, .frame (keyframeAt 11) smoothly,
    .frame (keyframeAt 12) smoothly,
    .frame (keyframeAt 0) { smoothly with expired := true },
    .frame (keyframeAt 1) smoothly]

theorem base_times_ascend_iff_rotated :
    (run Anchored.step Anchored.start rotated).isSome = true ∧
      Always Anchored.step Anchored.WellTimed Anchored.start rotated := by
  refine ⟨by decide, ?_⟩
  obtain ⟨finish, reached⟩ := Option.isSome_iff_exists.mp
    (by decide : (run Anchored.step Anchored.start rotated).isSome = true)
  exact (base_times_ascend_iff rotated reached).mpr (by decide)

/-- The timestamps of a camera start anew after ten seconds, while the file goes
on: the keyframe at zero is ten seconds before the file, and the base time of its
part is close to `2 ^ 64`. -/
theorem base_time_wraps :
    ∃ finish file,
      run Anchored.step Anchored.start
        [.poll true, .frame (keyframeAt 10) smoothly, .frame (keyframeAt 11) smoothly,
          .frame (keyframeAt 0) smoothly, .frame (keyframeAt 1) smoothly] =
        some finish ∧
      finish.run.file = some file ∧
      file.baseTimes = [0, 90000, 18446744073708651616] ∧
      ¬ finish.WellTimed := by
  refine ⟨_, _, rfl, rfl, ?_, ?_⟩
  · decide
  · intro wellTimed
    have signed := (wellTimed.opened _ rfl).signed 18446744073708651616
    revert signed
    decide

end Recorder
end RuseonCore
