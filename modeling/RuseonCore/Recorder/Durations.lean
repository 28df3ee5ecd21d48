import RuseonCore.Recorder.Parts

/-!
# Durations of samples

A sample gets its duration from the frame after it, or the last plausible one
when there is no such frame or the gap is not plausible.  That fallback survives
from file to file.

What holds for the parts of all files is kept by the phases of an iteration if it
holds for each part that is written (`kept_handle`); finalizing a file changes
none of them.
-/

namespace RuseonCore
namespace Recorder

open Buffer Rtsp Transition

/-! ## Files -/

namespace Run

/-- The files that were finalized, and the open one. -/
def files (r : Run) : List OpenFile :=
  r.archive.map ClosedFile.toOpenFile ++ r.file.toList

theorem mem_files {r : Run} {file : OpenFile} (opened : r.file = some file) :
    file ∈ r.files :=
  List.mem_append_right _ (Option.mem_toList.mpr opened)

/-- The parts of every file have the property. -/
def Kept (property : List Part → Prop) (r : Run) : Prop :=
  ∀ file ∈ r.files, property file.parts

section Kept

variable {property : List Part → Prop} {r : Run}

/-- Finalizing a file moves it to the others. -/
theorem files_finalize
    (r : Run)
    (isError : Bool)
    (recordEndTime : String)
    (storeError : Option String) :
    (r.finalize isError recordEndTime storeError).files = r.files := by
  cases opened : r.file with
  | none => rw [finalize_closed opened]
  | some file =>
      rw [finalize_open opened, files, files, opened]
      simp

theorem kept_finalize
    (kept : r.Kept property)
    (isError : Bool)
    (recordEndTime : String)
    (storeError : Option String) :
    (r.finalize isError recordEndTime storeError).Kept property := by
  rw [Kept, files_finalize]
  exact kept

theorem kept_fail
    (kept : r.Kept property)
    (storeError : Option String) :
    (r.fail storeError).Kept property :=
  kept_finalize (r := { r with degraded := some true }) kept true "" storeError

theorem files_appendPending (r : Run) (duration : UInt32) :
    (r.appendPending duration).files = r.files := by
  rw [files, archive_appendPending, file_appendPending, files]

theorem kept_appendPending
    (kept : r.Kept property)
    (duration : UInt32) :
    (r.appendPending duration).Kept property := by
  rw [Kept, files_appendPending]
  exact kept

theorem files_addSample (r : Run) (f : Frame) (built : Bool) :
    (r.addSample f built).files = r.files := by
  rw [files, archive_addSample, file_addSample, files]

/-- A part is added to the open file. -/
theorem kept_marshalPart
    (kept : r.Kept property)
    (written : ∀ file, r.file = some file → property (file.parts ++ [r.currentPart]))
    (outcome : Outcome) :
    (r.marshalPart outcome).Kept property := by
  intro file member
  rcases List.mem_append.mp member with archived | opened
  · exact kept file (List.mem_append_left _ archived)
  · rw [Option.mem_toList] at opened
    obtain ⟨before, found, -⟩ := Option.map_eq_some_iff.mp opened
    obtain ⟨after, same, parts⟩ := parts_marshalPart found outcome
    rw [Option.some.inj (opened.symm.trans same), parts]
    exact written before found

/-- The last part of a file has the property with those before it. -/
def MayClose (property : List Part → Prop) (r : Run) : Prop :=
  ∀ file, r.file = some file →
    property (file.parts ++ [(r.appendPending r.lastGoodDuration).currentPart])

theorem kept_lastPart
    (kept : r.Kept property)
    (closing : r.MayClose property)
    (outcome : Outcome) :
    ((r.appendPending r.lastGoodDuration).marshalPart outcome).Kept property := by
  apply kept_marshalPart (kept_appendPending kept _)
  intro file opened
  rw [file_appendPending] at opened
  exact closing file opened

theorem kept_rotate
    (kept : r.Kept property)
    (closing : r.MayClose property)
    (f : Frame)
    (answers : FrameAnswers) :
    (r.rotate f answers).1.Kept property := by
  unfold rotate
  split
  · have waiting := kept_appendPending kept r.lastGoodDuration
    have complete := kept_lastPart kept closing
    dsimp only
    split
    · exact kept_finalize waiting _ _ _
    · split
      · exact kept_finalize (r := countPart _) (complete _) _ _ _
      · exact kept_fail (complete _) _
      · exact kept_fail (complete _) _
  · exact kept

theorem kept_create
    (kept : r.Kept property)
    (empty : property [])
    (f : Frame)
    (answers : FrameAnswers) :
    (r.create f answers).1.Kept property := by
  have headed : (r.openFile answers).Kept property := by
    intro file member
    rcases List.mem_append.mp member with archived | opened
    · exact kept file (List.mem_append_left _ archived)
    · rw [Option.mem_toList] at opened
      rw [← Option.some.inj opened]
      exact empty
  unfold create
  split
  · exact kept
  · split
    · exact kept
    · split
      · exact kept
      · split
        · exact headed
        · exact kept_fail headed _
        · exact kept_fail headed _

theorem kept_flushPart
    (kept : r.Kept property)
    (flushing : r.partSamples ≠ [] →
      ∀ file, r.file = some file → property (file.parts ++ [r.currentPart]))
    (f : Frame)
    (answers : FrameAnswers) :
    (r.flushPart f answers).Kept property := by
  unfold flushPart
  split
  · rename_i flushes
    have nonempty : r.partSamples ≠ [] := by
      rintro none
      simp [none] at flushes
    have complete := kept_marshalPart kept (flushing nonempty) answers.gop
    dsimp only
    split
    · exact complete
    · exact kept_fail complete _
    · exact kept_fail complete _
  · exact kept

/-- An iteration goes on with the open file or with a new one. -/
theorem create_goesOn
    {r next : Run}
    {f : Frame}
    {answers : FrameAnswers}
    (created : r.create f answers = (next, true)) :
    (r.file.isSome = true ∧ next = r) ∨
      (r.file = none ∧ next = (r.openFile answers).beginFile f) := by
  cases opened : r.file with
  | some file =>
      simp only [create, opened, Option.isSome_some, if_true, Prod.mk.injEq] at created
      exact .inl ⟨rfl, created.1.symm⟩
  | none =>
      rcases create_cases opened f answers with
        ⟨_, other, -⟩ | ⟨_, other, -⟩ | begun
      · rw [other] at created
        cases created
      · rw [other] at created
        cases created
      · rw [begun] at created
        cases created
        exact .inr ⟨rfl, rfl⟩

/-- The first frame of a file leaves no samples but its own. -/
theorem partSamples_begun
    (r : Run)
    (f : Frame)
    (answers : FrameAnswers)
    (built : Bool) :
    (((r.openFile answers).beginFile f).addSample f built).partSamples = [] := by
  rw [← List.isEmpty_iff, isEmpty_addSample]
  rfl

/-- What holds for the parts of all files is kept if it holds for the part that the
frame completes, and for the last part of the file. -/
theorem kept_handle
    (kept : r.Kept property)
    (empty : property [])
    (closing : r.MayClose property)
    (f : Frame)
    (answers : FrameAnswers)
    (flushing : ∀ file, r.file = some file →
      property (file.parts ++ [(r.addSample f answers.built).currentPart])) :
    (r.handle f answers).Kept property := by
  have rotated := kept_rotate kept closing f answers
  unfold handle
  split
  · rename_i rotation
    rw [rotation] at rotated
    exact rotated
  · rename_i next rotation
    rw [rotation] at rotated
    have created := kept_create rotated empty f answers
    split
    · rename_i creation
      rw [creation] at created
      exact created
    · rename_i begun creation
      rw [creation] at created
      apply kept_flushPart
      · rw [Kept, files_addSample]
        exact created
      · intro nonempty file opened
        rw [file_addSample] at opened
        rcases create_goesOn creation with ⟨goesOn, rfl⟩ | ⟨-, rfl⟩
        · rcases rotate_cases r f answers with ⟨same, -⟩ | ⟨-, closes, -⟩
          · rw [rotation, Prod.mk.injEq] at same
            obtain ⟨rfl, -⟩ := same
            exact flushing file opened
          · rw [rotation] at closes
            rw [closes.file] at goesOn
            cases goesOn
        · exact absurd (partSamples_begun next f answers answers.built) nonempty

theorem kept_finish
    (kept : r.Kept property)
    (closing : r.MayClose property)
    (answers : ExitAnswers) :
    (r.finish answers).Kept property := by
  unfold finish
  split
  · have waiting := kept_appendPending kept r.lastGoodDuration
    have complete := kept_lastPart kept closing
    dsimp only
    split
    · exact kept_finalize waiting _ _ _
    · split
      · exact kept_finalize (r := countPart _) (complete _) _ _ _
      · exact kept_finalize (complete _) _ _ _
      · exact kept_fail (complete _) _
  · exact kept

end Kept

/-! ## Durations -/

/-- A duration between one tick and five seconds. -/
def Plausible (duration : UInt32) : Prop :=
  1 ≤ duration ∧ duration ≤ 450000

instance (duration : UInt32) : Decidable (Plausible duration) :=
  inferInstanceAs (Decidable (_ ∧ _))

/-- The fallback is plausible, and so are the samples of the part that is being
collected. -/
structure Measured (r : Run) : Prop where
  fallback : Plausible r.lastGoodDuration
  samples : ∀ s ∈ r.partSamples, Plausible s.duration

/-- The samples of the parts have plausible durations. -/
def MeasuredParts (parts : List Part) : Prop :=
  ∀ part ∈ parts, ∀ s ∈ part.samples, Plausible s.duration

/-- The gap to the next frame, if it is plausible. -/
theorem pendingDuration_eq
    (r : Run)
    (f : Frame) :
    (0 < r.currentPts f - r.lastPts ∧ r.currentPts f - r.lastPts ≤ 450000 ∧
        r.pendingDuration f = (r.currentPts f - r.lastPts).toInt.toNat.toUInt32) ∨
      r.pendingDuration f = r.lastGoodDuration := by
  rw [pendingDuration]
  split
  · exact .inr rfl
  · rename_i inRange
    rw [Bool.or_eq_true, not_or, decide_eq_true_eq, decide_eq_true_eq] at inRange
    exact .inl ⟨Int64.not_le.mp inRange.1, Int64.not_lt.mp inRange.2, rfl⟩

theorem plausible_gap
    {gap : Int64}
    (positive : 0 < gap)
    (small : gap ≤ 450000) :
    Plausible gap.toInt.toNat.toUInt32 := by
  rw [Int64.lt_iff_toInt_lt] at positive
  rw [Int64.le_iff_toInt_le] at small
  have zero : (0 : Int64).toInt = 0 := by decide
  have limit : (450000 : Int64).toInt = 450000 := by decide
  rw [zero] at positive
  rw [limit] at small
  have same : (gap.toInt.toNat.toUInt32).toNat = gap.toInt.toNat := by
    rw [Nat.toUInt32_eq, UInt32.toNat_ofNat']
    omega
  constructor
  · rw [UInt32.le_iff_toNat_le, same]
    change 1 ≤ _
    omega
  · rw [UInt32.le_iff_toNat_le, same]
    change _ ≤ 450000
    omega

namespace Measured

variable {r : Run}

theorem pendingDuration (measured : r.Measured) (f : Frame) :
    Plausible (r.pendingDuration f) := by
  rcases r.pendingDuration_eq f with ⟨positive, small, same⟩ | same
  · rw [same]
    exact plausible_gap positive small
  · rw [same]
    exact measured.fallback

theorem appendPending
    (measured : r.Measured)
    {duration : UInt32}
    (inRange : Plausible duration) :
    (r.appendPending duration).Measured := by
  unfold Run.appendPending
  split
  · refine ⟨measured.fallback, ?_⟩
    intro s member
    rcases List.mem_append.mp member with old | new
    · obtain ⟨before, waiting, rfl⟩ := List.mem_map.mp old
      unfold setDuration
      split
      · exact inRange
      · exact measured.samples before waiting
    · rw [List.mem_singleton.mp new]
      exact inRange
  · exact measured

theorem addSample
    (measured : r.Measured)
    (f : Frame)
    (built : Bool) :
    (r.addSample f built).Measured := by
  have inRange := measured.pendingDuration f
  have settled : (r.settlePending f).Measured := by
    unfold settlePending
    split
    · exact ⟨inRange, (measured.appendPending inRange).samples⟩
    · exact measured
  unfold Run.addSample
  split
  · exact ⟨settled.fallback, settled.samples⟩
  · exact ⟨settled.fallback, settled.samples⟩

theorem finalize
    (measured : r.Measured)
    (isError : Bool)
    (recordEndTime : String)
    (storeError : Option String) :
    (r.finalize isError recordEndTime storeError).Measured := by
  unfold Run.finalize
  split
  · exact ⟨measured.fallback, measured.samples⟩
  · exact measured

theorem fail (measured : r.Measured) (storeError : Option String) :
    (r.fail storeError).Measured :=
  finalize (r := { r with degraded := some true }) ⟨measured.fallback, measured.samples⟩ _ _ _

theorem rotate
    (measured : r.Measured)
    (f : Frame)
    (answers : FrameAnswers) :
    (r.rotate f answers).1.Measured := by
  have waiting := measured.appendPending measured.fallback
  unfold Run.rotate
  split
  · dsimp only
    split
    · exact ⟨(waiting.finalize _ _ _).fallback, by simp [finishRotation, reset]⟩
    · have complete : ∀ outcome, (((r.appendPending r.lastGoodDuration).marshalPart
          outcome).Measured) := fun _ => ⟨waiting.fallback, waiting.samples⟩
      split
      · have counted : ((r.appendPending r.lastGoodDuration).marshalPart
            answers.rotation).countPart.Measured := ⟨waiting.fallback, waiting.samples⟩
        exact ⟨(counted.finalize _ _ _).fallback, by simp [finishRotation, reset]⟩
      · exact ⟨((complete _).fail _).fallback, by simp [reset]⟩
      · exact ⟨((complete _).fail _).fallback, ((complete _).fail _).samples⟩
  · exact measured

theorem create
    (measured : r.Measured)
    (f : Frame)
    (answers : FrameAnswers) :
    (r.create f answers).1.Measured := by
  have headed : (r.openFile answers).Measured := ⟨measured.fallback, measured.samples⟩
  unfold Run.create
  split
  · exact measured
  · split
    · exact measured
    · split
      · exact ⟨measured.fallback, measured.samples⟩
      · split
        · exact ⟨measured.fallback, by simp [beginFile]⟩
        · exact headed.fail _
        · have failed := headed.fail answers.storeError
          exact ⟨failed.fallback, failed.samples⟩

theorem flushPart
    (measured : r.Measured)
    (f : Frame)
    (answers : FrameAnswers) :
    (r.flushPart f answers).Measured := by
  have complete : (r.marshalPart answers.gop).Measured :=
    ⟨measured.fallback, measured.samples⟩
  unfold Run.flushPart
  split
  · dsimp only
    split
    · exact ⟨measured.fallback, by simp⟩
    · exact ⟨(complete.fail _).fallback, by simp [reset]⟩
    · exact ⟨(complete.fail _).fallback, (complete.fail _).samples⟩
  · exact measured

theorem handle
    (measured : r.Measured)
    (f : Frame)
    (answers : FrameAnswers) :
    (r.handle f answers).Measured := by
  have rotated := measured.rotate f answers
  unfold Run.handle
  split
  · rename_i rotation
    rw [rotation] at rotated
    exact rotated
  · rename_i rotation
    rw [rotation] at rotated
    have created := rotated.create f answers
    split
    · rename_i creation
      rw [creation] at created
      exact created
    · rename_i creation
      rw [creation] at created
      exact (created.addSample f answers.built).flushPart f answers

theorem finish
    (measured : r.Measured)
    (answers : ExitAnswers) :
    (r.finish answers).Measured := by
  have waiting := measured.appendPending measured.fallback
  have complete : ((r.appendPending r.lastGoodDuration).marshalPart
      answers.flush).Measured := ⟨waiting.fallback, waiting.samples⟩
  unfold Run.finish
  split
  · dsimp only
    split
    · exact waiting.finalize _ _ _
    · split
      · have counted : ((r.appendPending r.lastGoodDuration).marshalPart
            answers.flush).countPart.Measured := ⟨waiting.fallback, waiting.samples⟩
        exact counted.finalize _ _ _
      · exact complete.finalize _ _ _
      · exact complete.fail _
  · exact measured

end Measured

theorem MeasuredParts.concat
    {parts : List Part}
    (measured : MeasuredParts parts)
    {r : Run}
    (last : r.Measured) :
    MeasuredParts (parts ++ [r.currentPart]) := by
  intro part member
  rcases List.mem_append.mp member with old | new
  · exact measured part old
  · rw [List.mem_singleton.mp new]
    exact last.samples

/-- The durations in all files, and of the samples that wait, are plausible. -/
structure AllMeasured (r : Run) : Prop where
  written : r.Kept MeasuredParts
  waiting : r.Measured

theorem AllMeasured.step
    {r next : Run}
    {label : RunStep}
    (measured : r.AllMeasured)
    (taken : r.step label = some next) :
    next.AllMeasured := by
  have each : ∀ file, r.file = some file → MeasuredParts file.parts :=
    fun file opened => measured.written file (mem_files opened)
  have closing : r.MayClose MeasuredParts := fun file opened =>
    (each file opened).concat (measured.waiting.appendPending measured.waiting.fallback)
  cases steps_of_step taken with
  | polled => exact ⟨measured.written, measured.waiting.fallback, measured.waiting.samples⟩
  | handled f answers =>
      refine ⟨kept_handle measured.written ?_ closing f answers ?_,
        measured.waiting.handle f answers⟩
      · intro part member
        cases member
      · intro file opened
        exact (each file opened).concat (measured.waiting.addSample f answers.built)
  | cancelled => exact ⟨measured.written, measured.waiting.fallback, measured.waiting.samples⟩
  | finished answers =>
      have finished := measured.waiting.finish answers
      exact ⟨kept_finish measured.written closing answers, finished.fallback,
        finished.samples⟩

theorem allMeasured_start : start.AllMeasured where
  written := by simp [Kept, files, start]
  waiting := ⟨by decide, by simp [start]⟩

end Run
end Recorder
end RuseonCore
