import RuseonCore.Recorder.Run

/-!
# What an iteration does to the files

The phases of an iteration of the recorder are summed up as changes of files: a
file is closed with at most one more part, a file is begun with its header, or
the open file goes on.  Samples are followed by their numbers.
-/

namespace RuseonCore
namespace Recorder

open Buffer

/-- Codec parameters that a `Marshal` call writes. -/
def Marshal.init? (marshal : Marshal) : Option CodecParams :=
  match marshal.content with
  | .init params => some params
  | .part _ => none

namespace OpenFile

/-- Codec parameters in the header of a file. -/
def header (file : OpenFile) : Option CodecParams :=
  file.marshals.findSome? Marshal.init?

/-- Numbers of the samples in the parts of a file. -/
def stored (file : OpenFile) : List Nat :=
  file.parts.flatMap fun part => part.samples.map Sample.id

end OpenFile

namespace Run

/-- Numbers of the samples that wait to be written. -/
def taken (r : Run) : List Nat :=
  (r.partSamples ++ r.pendingSample.toList).map Sample.id

/-- The file got one more part, made of samples that were waiting. -/
structure Extends (r : Run) (before after : OpenFile) : Prop where
  header : after.header = before.header
  parts : ∃ part, after.parts = before.parts ++ [part] ∧
    part.baseTime = r.partStartBaseTime ∧ ∀ s ∈ part.samples, s.id ∈ r.taken

/-- The file got at most one more part. -/
def Finishes (r : Run) (before after : OpenFile) : Prop :=
  after = before ∨ r.Extends before after

/-- The open file, if there is one, was completed but not yet finalized. -/
structure Prepares (r next : Run) : Prop where
  archive : next.archive = r.archive
  idle : r.file = none → next.file = none
  opened : ∀ file, r.file = some file →
    ∃ after, next.file = some after ∧ r.Finishes file after

/-- The open file, if there was one, was completed and finalized. -/
structure Closes (r next : Run) : Prop where
  file : next.file = none
  idle : r.file = none → next.archive = r.archive
  opened : ∀ file, r.file = some file →
    ∃ closed : ClosedFile, next.archive = r.archive ++ [closed] ∧
      r.Finishes file closed.toOpenFile

/-- What handling a frame can do.  The frame may find no file, or close the one
it finds, and then begin another; or the open file goes on, and a keyframe
completes a part. -/
inductive Handles (r : Run) (f : Frame) (answers : FrameAnswers) (next : Run) :
    Prop
  | dropped
      (replaced : r.file.isSome = true → (f.isKeyFrame && answers.expired) = true)
      (closes : r.Closes next)
  | unheaded (rotated : Run)
      (replaced : r.file.isSome = true → (f.isKeyFrame && answers.expired) = true)
      (closes : r.Closes rotated)
      (file : next.file = none)
      (closed : ClosedFile)
      (archive : next.archive = rotated.archive ++ [closed])
      (empty : closed.parts = [])
  | begun (rotated : Run)
      (replaced : r.file.isSome = true → (f.isKeyFrame && answers.expired) = true)
      (closes : r.Closes rotated)
      (built : rotated.samplesBuilt = r.samplesBuilt)
      (result : next =
        ((rotated.openFile answers).beginFile f).addSample f answers.built)
  | held
      (opened : r.file.isSome = true)
      (current : (f.isKeyFrame && answers.expired) = false)
      (unflushed : (f.isKeyFrame && r.hasSamples) = false)
      (result : next = r.addSample f answers.built)
  | flushed (file after : OpenFile)
      (opened : r.file = some file)
      (current : (f.isKeyFrame && answers.expired) = false)
      (flushes : (f.isKeyFrame && r.hasSamples) = true)
      (written : answers.gop = .ok)
      (reopened : next.file = some after)
      (longer : r.Extends file after)
      (archive : next.archive = r.archive)
      (baseTime : next.partStartBaseTime = (r.currentPts f).toUInt64)
      (samples : next.partSamples = [])
      (pending : next.pendingSample = (r.addSample f answers.built).pendingSample)
      (built : next.samplesBuilt = (r.addSample f answers.built).samplesBuilt)
      (initialPts : next.initialPts = r.initialPts)
  | broken
      (opened : r.file.isSome = true)
      (current : (f.isKeyFrame && answers.expired) = false)
      (flushes : (f.isKeyFrame && r.hasSamples) = true)
      (unwritten : answers.gop ≠ .ok)
      (closes : r.Closes next)

/-! ## Samples -/

theorem mem_taken {r : Run} {id : Nat} :
    id ∈ r.taken ↔ ∃ s, (s ∈ r.partSamples ∨ r.pendingSample = some s) ∧ s.id = id := by
  rw [taken, List.mem_map]
  simp only [List.mem_append, Option.mem_toList]

@[simp] theorem id_setDuration (id : Nat) (duration : UInt32) (s : Sample) :
    (setDuration id duration s).id = s.id := by
  unfold setDuration
  split <;> rfl

/-- The samples of the part were waiting, or are the pending one. -/
theorem mem_taken_of_appendPending
    {r : Run}
    {duration : UInt32}
    {s : Sample}
    (member : s ∈ (r.appendPending duration).partSamples) :
    s.id ∈ r.taken := by
  unfold appendPending at member
  split at member
  · rename_i pending found
    rcases List.mem_append.mp member with old | new
    · obtain ⟨before, waiting, rfl⟩ := List.mem_map.mp old
      rw [id_setDuration]
      exact mem_taken.mpr ⟨before, .inl waiting, rfl⟩
    · rw [List.mem_singleton.mp new]
      exact mem_taken.mpr ⟨pending, .inr found, rfl⟩
  · exact mem_taken.mpr ⟨s, .inl member, rfl⟩

theorem partSamples_addSample (r : Run) (f : Frame) (built : Bool) :
    (r.addSample f built).partSamples = (r.settlePending f).partSamples := by
  unfold addSample
  split <;> rfl

/-- The sample that is pending when the last one has its duration. -/
theorem mem_taken_of_settlePending
    {r : Run}
    {f : Frame}
    {s : Sample}
    (pending : (r.settlePending f).pendingSample = some s) :
    s.id ∈ r.taken := by
  unfold settlePending appendPending at pending
  cases found : r.pendingSample with
  | none =>
      rw [found] at pending
      simp [found] at pending
  | some before =>
      simp only [found, Option.isSome_some, if_true, Option.some.injEq] at pending
      rw [← pending]
      exact mem_taken.mpr ⟨before, .inr found, rfl⟩

/-- The samples of the part after a frame were waiting before it. -/
theorem mem_taken_of_addSample
    {r : Run}
    {f : Frame}
    {built : Bool}
    {s : Sample}
    (member : s ∈ (r.addSample f built).partSamples) :
    s.id ∈ r.taken := by
  rw [partSamples_addSample, settlePending] at member
  split at member
  · exact @mem_taken_of_appendPending r (r.pendingDuration f) s member
  · exact mem_taken.mpr ⟨s, .inl member, rfl⟩

theorem isEmpty_addSample (r : Run) (f : Frame) (built : Bool) :
    (r.addSample f built).partSamples.isEmpty = !r.hasSamples := by
  rw [partSamples_addSample, settlePending]
  split
  · exact isEmpty_appendPending r _
  · rename_i unpending
    simp [hasSamples, unpending]

@[simp] theorem partStartBaseTime_appendPending (r : Run) (duration : UInt32) :
    (r.appendPending duration).partStartBaseTime = r.partStartBaseTime := by
  unfold appendPending
  split <;> rfl

@[simp] theorem samplesBuilt_appendPending (r : Run) (duration : UInt32) :
    (r.appendPending duration).samplesBuilt = r.samplesBuilt := by
  unfold appendPending
  split <;> rfl

@[simp] theorem partStartBaseTime_addSample (r : Run) (f : Frame) (built : Bool) :
    (r.addSample f built).partStartBaseTime = r.partStartBaseTime := by
  have settled : (r.settlePending f).partStartBaseTime = r.partStartBaseTime := by
    unfold settlePending
    split
    · exact partStartBaseTime_appendPending r _
    · rfl
  unfold addSample
  split <;> exact settled

@[simp] theorem initialPts_addSample (r : Run) (f : Frame) (built : Bool) :
    (r.addSample f built).initialPts = r.initialPts := by
  have settled : (r.settlePending f).initialPts = r.initialPts := by
    unfold settlePending appendPending
    split
    · split <;> rfl
    · rfl
  unfold addSample
  split <;> exact settled

@[simp] theorem samplesBuilt_finalize
    (r : Run)
    (isError : Bool)
    (recordEndTime : String)
    (storeError : Option String) :
    (r.finalize isError recordEndTime storeError).samplesBuilt = r.samplesBuilt := by
  unfold finalize
  split <;> rfl

@[simp] theorem samplesBuilt_fail (r : Run) (storeError : Option String) :
    (r.fail storeError).samplesBuilt = r.samplesBuilt :=
  samplesBuilt_finalize _ true "" storeError

@[simp] theorem samplesBuilt_recover (r : Run) (storeError : Option String) :
    (r.recover storeError).samplesBuilt = r.samplesBuilt :=
  samplesBuilt_fail r storeError

@[simp] theorem samplesBuilt_marshalPart (r : Run) (outcome : Outcome) :
    (r.marshalPart outcome).samplesBuilt = r.samplesBuilt :=
  rfl

@[simp] theorem samplesBuilt_addSample (r : Run) (f : Frame) (built : Bool) :
    (r.addSample f built).samplesBuilt = r.samplesBuilt + built.toNat := by
  cases built with
  | true => rfl
  | false =>
      unfold addSample settlePending
      simp only [Bool.false_eq_true, if_false, Bool.toNat_false, Nat.add_zero]
      split
      · exact samplesBuilt_appendPending r _
      · rfl

@[simp] theorem samplesBuilt_flushPart (r : Run) (f : Frame) (answers : FrameAnswers) :
    (r.flushPart f answers).samplesBuilt = r.samplesBuilt := by
  unfold flushPart
  split
  · dsimp only
    split
    · rfl
    · exact samplesBuilt_fail (r.marshalPart answers.gop) answers.storeError
    · exact samplesBuilt_recover (r.marshalPart answers.gop) answers.storeError
  · rfl

@[simp] theorem samplesBuilt_create (r : Run) (f : Frame) (answers : FrameAnswers) :
    (r.create f answers).1.samplesBuilt = r.samplesBuilt := by
  unfold create
  split
  · rfl
  · split
    · rfl
    · split
      · rfl
      · split
        · rfl
        · exact samplesBuilt_fail (r.openFile answers) answers.storeError
        · exact samplesBuilt_recover (r.openFile answers) answers.storeError

@[simp] theorem samplesBuilt_finish (r : Run) (answers : ExitAnswers) :
    (r.finish answers).samplesBuilt = r.samplesBuilt := by
  unfold finish
  split
  · dsimp only
    split
    · simp
    · split <;> simp [countPart]
  · rfl

theorem pendingSample_addSample_of_built (r : Run) (f : Frame) :
    (r.addSample f true).pendingSample = some ⟨r.samplesBuilt, f, 0⟩ :=
  rfl

theorem pendingSample_addSample_of_not_built (r : Run) (f : Frame) :
    (r.addSample f false).pendingSample = (r.settlePending f).pendingSample := by
  simp [addSample]

/-- The sample of a frame joins those that wait, and the others were there. -/
theorem mem_taken_addSample
    {r : Run}
    {f : Frame}
    {built : Bool}
    {id : Nat}
    (member : id ∈ (r.addSample f built).taken) :
    id ∈ r.taken ∨ (built = true ∧ id = r.samplesBuilt) := by
  obtain ⟨s, waiting | pending, rfl⟩ := mem_taken.mp member
  · exact .inl (mem_taken_of_addSample waiting)
  · cases built with
    | true =>
        rw [pendingSample_addSample_of_built] at pending
        rw [← Option.some.inj pending]
        exact .inr ⟨rfl, rfl⟩
    | false =>
        rw [pendingSample_addSample_of_not_built] at pending
        exact .inl (mem_taken_of_settlePending pending)

/-! ## Closing a file -/

/-- The part that a `Marshal` call writes joins those of the file. -/
theorem extends_part
    {r : Run}
    (part : Part)
    (base : part.baseTime = r.partStartBaseTime)
    (samples : ∀ s ∈ part.samples, s.id ∈ r.taken)
    (file : OpenFile)
    (outcome : Outcome) :
    r.Extends file
      { file with marshals := file.marshals ++ [⟨.part part, outcome⟩] } where
  header := by
    simp only [OpenFile.header, List.findSome?_append]
    cases file.marshals.findSome? Marshal.init? <;> rfl
  parts := by
    refine ⟨part, ?_, base, samples⟩
    simp [OpenFile.parts, Marshal.part?]

/-- A file that got no part is ready to be closed. -/
theorem prepares_same
    {r next : Run}
    (archive : next.archive = r.archive)
    (file : next.file = r.file) :
    r.Prepares next where
  archive := archive
  idle := fun closed => file.trans closed
  opened := fun before opened => ⟨before, file.trans opened, .inl rfl⟩

/-- A file is ready to be closed after its last part. -/
theorem prepares_marshalPart
    {r next : Run}
    (archive : next.archive = r.archive)
    (file : next.file = r.file)
    (base : next.partStartBaseTime = r.partStartBaseTime)
    (samples : ∀ s ∈ next.partSamples, s.id ∈ r.taken)
    (outcome : Outcome) :
    r.Prepares (next.marshalPart outcome) where
  archive := archive
  idle := fun closed => by
    simp [marshalPart, marshal, file, closed]
  opened := fun before opened => by
    refine ⟨_, ?_, .inr (extends_part next.currentPart base samples before outcome)⟩
    simp [marshalPart, marshal, file, opened]

theorem Prepares.finalize
    {r next : Run}
    (prepares : r.Prepares next)
    (isError : Bool)
    (recordEndTime : String)
    (storeError : Option String) :
    r.Closes (next.finalize isError recordEndTime storeError) where
  file := file_finalize next isError recordEndTime storeError
  idle := fun closed => by
    rw [finalize_closed (prepares.idle closed)]
    exact prepares.archive
  opened := fun file opened => by
    obtain ⟨after, found, finishes⟩ := prepares.opened file opened
    rw [finalize_open found, ← prepares.archive]
    exact ⟨_, rfl, finishes⟩

theorem Prepares.fail
    {r next : Run}
    (prepares : r.Prepares next)
    (storeError : Option String) :
    r.Closes (next.fail storeError) := by
  have degraded : r.Prepares { next with degraded := some true } :=
    ⟨prepares.archive, prepares.idle, prepares.opened⟩
  exact degraded.finalize true "" storeError

theorem Prepares.countPart {r next : Run} (prepares : r.Prepares next) :
    r.Prepares next.countPart :=
  ⟨prepares.archive, prepares.idle, prepares.opened⟩

theorem prepares_appendPending (r : Run) (duration : UInt32) :
    r.Prepares (r.appendPending duration) :=
  prepares_same (archive_appendPending r duration) (file_appendPending r duration)

/-- The last part of a file has the samples that were waiting. -/
theorem prepares_lastPart (r : Run) (duration : UInt32) (outcome : Outcome) :
    r.Prepares ((r.appendPending duration).marshalPart outcome) :=
  prepares_marshalPart (archive_appendPending r duration) (file_appendPending r duration)
    (partStartBaseTime_appendPending r duration)
    (fun _ => mem_taken_of_appendPending) outcome

/-- There is nothing to close. -/
theorem closes_idle {r : Run} (idle : r.file = none) : r.Closes r where
  file := idle
  idle := fun _ => rfl
  opened := fun file found => by
    rw [idle] at found
    cases found

/-- What held for the archived files, and holds for the open file once it is
completed, holds for all archived files after the file was closed. -/
theorem Closes.archived
    {r next : Run}
    (closes : r.Closes next)
    (holds : OpenFile → Prop)
    (before : ∀ file ∈ r.archive, holds file.toOpenFile)
    (completed : ∀ file after, r.file = some file → r.Finishes file after → holds after) :
    ∀ file ∈ next.archive, holds file.toOpenFile := by
  cases opened : r.file with
  | none =>
      rw [closes.idle opened]
      exact before
  | some file =>
      obtain ⟨closed, archive, finishes⟩ := closes.opened file opened
      rw [archive]
      intro other member
      rcases List.mem_append.mp member with old | new
      · exact before other old
      · rw [List.mem_singleton.mp new]
        exact completed file closed.toOpenFile opened finishes

/-- A rotation closes the file, or does not take place. -/
theorem rotate_cases (r : Run) (f : Frame) (answers : FrameAnswers) :
    (r.rotate f answers = (r, true) ∧
      (r.file.isSome && f.isKeyFrame && answers.expired) = false) ∨
    ((f.isKeyFrame && answers.expired) = true ∧ r.Closes (r.rotate f answers).1 ∧
      (r.rotate f answers).1.samplesBuilt = r.samplesBuilt) := by
  unfold rotate
  split
  · rename_i rotates
    rw [Bool.and_assoc, Bool.and_eq_true] at rotates
    refine .inr ⟨rotates.2, ?_⟩
    have waiting := r.prepares_appendPending r.lastGoodDuration
    have complete := r.prepares_lastPart r.lastGoodDuration
    have built := samplesBuilt_appendPending r r.lastGoodDuration
    dsimp only
    generalize r.appendPending r.lastGoodDuration = settled at waiting complete built
    split
    · have closes := waiting.finalize false answers.recordEndTime
        answers.rotationStoreError
      exact ⟨⟨closes.file, closes.idle, closes.opened⟩, by
        simpa [finishRotation, reset] using built⟩
    · cases answers.rotation with
      | ok =>
          have closes := (complete .ok).countPart.finalize false answers.recordEndTime
            answers.rotationStoreError
          exact ⟨⟨closes.file, closes.idle, closes.opened⟩, by
            simpa [finishRotation, reset, countPart, marshalPart, marshal] using built⟩
      | failed =>
          have closes := (complete .failed).fail answers.rotationStoreError
          exact ⟨⟨closes.file, closes.idle, closes.opened⟩, by
            simpa [reset, fail, marshalPart, marshal] using built⟩
      | panicked =>
          have closes := (complete .panicked).fail answers.rotationStoreError
          exact ⟨⟨closes.file, closes.idle, closes.opened⟩, by
            simpa [recover, fail, marshalPart, marshal] using built⟩
  · rename_i stays
    exact .inl ⟨rfl, by simpa using stays⟩

/-- A file whose header fails is closed without parts. -/
theorem unheaded_fail
    (r : Run)
    (answers : FrameAnswers)
    (storeError : Option String) :
    ∃ closed : ClosedFile,
      ((r.openFile answers).fail storeError).archive = r.archive ++ [closed] ∧
        closed.parts = [] := by
  have headed : { r.openFile answers with degraded := some true }.file =
      some ⟨answers.recordStartTime, [⟨.init answers.params, answers.header⟩]⟩ :=
    rfl
  rw [fail, finalize_open headed]
  exact ⟨_, rfl, rfl⟩

/-- Without a file, nothing happens, or the header of a new one fails, or one is
begun. -/
theorem create_cases
    {r : Run}
    (closed : r.file = none)
    (f : Frame)
    (answers : FrameAnswers) :
    (∃ next, r.create f answers = (next, false) ∧ next.file = none ∧
      next.archive = r.archive) ∨
    (∃ next, r.create f answers = (next, false) ∧ next.file = none ∧
      ∃ file : ClosedFile, next.archive = r.archive ++ [file] ∧ file.parts = []) ∨
    r.create f answers = ((r.openFile answers).beginFile f, true) := by
  unfold create
  simp only [closed, Option.isSome_none, Bool.false_eq_true, if_false]
  split
  · exact .inl ⟨r, rfl, closed, rfl⟩
  · split
    · exact .inl ⟨_, rfl, rfl, rfl⟩
    · split
      · exact .inr (.inr rfl)
      · exact .inr (.inl ⟨_, rfl, file_fail _ _, unheaded_fail r answers _⟩)
      · exact .inr (.inl ⟨_, rfl, file_fail _ _, unheaded_fail r answers _⟩)

/-! ## Handling a frame -/

/-- The first frame of a file completes no part. -/
theorem flushPart_begun (r : Run) (f : Frame) (answers : FrameAnswers) :
    (((r.openFile answers).beginFile f).addSample f answers.built).flushPart f answers =
      ((r.openFile answers).beginFile f).addSample f answers.built := by
  have empty : (((r.openFile answers).beginFile f).addSample f
      answers.built).partSamples.isEmpty = true := by
    rw [isEmpty_addSample]
    rfl
  simp [flushPart, empty]

/-- A file that goes on is closed when the part of a keyframe cannot be
written. -/
theorem closes_flushPart
    {r : Run}
    {f : Frame}
    {answers : FrameAnswers}
    (flushes : (f.isKeyFrame && r.hasSamples) = true)
    (unwritten : answers.gop ≠ .ok) :
    r.Closes ((r.addSample f answers.built).flushPart f answers) := by
  have complete := prepares_marshalPart (archive_addSample r f answers.built)
    (file_addSample r f answers.built) (partStartBaseTime_addSample r f answers.built)
    (fun _ => mem_taken_of_addSample) answers.gop
  have closes := complete.fail answers.storeError
  rw [flushPart, isEmpty_addSample, Bool.not_not, if_pos flushes]
  dsimp only
  split
  · rename_i written
    exact absurd written unwritten
  · exact ⟨closes.file, closes.idle, closes.opened⟩
  · exact ⟨closes.file, closes.idle, closes.opened⟩

/-- A frame that finds no file, or whose rotation closed it. -/
theorem handles_create
    {r rotated : Run}
    {f : Frame}
    {answers : FrameAnswers}
    (replaced : r.file.isSome = true → (f.isKeyFrame && answers.expired) = true)
    (closes : r.Closes rotated)
    (built : rotated.samplesBuilt = r.samplesBuilt)
    (rotation : r.rotate f answers = (rotated, true)) :
    r.Handles f answers (r.handle f answers) := by
  unfold handle
  rw [rotation]
  dsimp only
  rcases create_cases closes.file f answers with
    ⟨next, created, file, archive⟩ | ⟨next, created, file, closed, archive, empty⟩ |
      created
  · rw [created]
    refine .dropped replaced ⟨file, fun idle => archive.trans (closes.idle idle), ?_⟩
    intro before opened
    rw [archive]
    exact closes.opened before opened
  · rw [created]
    exact .unheaded rotated replaced closes file closed archive empty
  · rw [created]
    exact .begun rotated replaced closes built (flushPart_begun rotated f answers)

/-- A frame of a file that goes on. -/
theorem handles_append
    {r : Run}
    {f : Frame}
    {answers : FrameAnswers}
    (opened : r.file.isSome = true)
    (current : (f.isKeyFrame && answers.expired) = false) :
    r.Handles f answers ((r.addSample f answers.built).flushPart f answers) := by
  cases flushes : f.isKeyFrame && r.hasSamples with
  | false =>
      refine .held opened current flushes ?_
      rw [flushPart, isEmpty_addSample, Bool.not_not, flushes]
      rfl
  | true =>
      by_cases written : answers.gop = .ok
      · obtain ⟨file, found⟩ := Option.isSome_iff_exists.mp opened
        have longer : r.Extends file _ := extends_part
          (r.addSample f answers.built).currentPart
          (partStartBaseTime_addSample r f answers.built)
          (fun _ => mem_taken_of_addSample) file .ok
        rw [flushPart, isEmpty_addSample, Bool.not_not, if_pos flushes]
        simp only [written]
        refine .flushed file _ found current flushes written ?_ longer
          (archive_addSample r f answers.built) ?_ rfl rfl rfl
          (initialPts_addSample r f answers.built)
        · simp [countPart, marshalPart, marshal, found]
        · simp only [currentPts, initialPts_addSample]
      · exact .broken opened current flushes written
          (closes_flushPart flushes written)

/-- Every frame is handled in one of the six ways. -/
theorem handles_handle (r : Run) (f : Frame) (answers : FrameAnswers) :
    r.Handles f answers (r.handle f answers) := by
  rcases rotate_cases r f answers with ⟨kept, stays⟩ | ⟨expired, closes, built⟩
  · cases opened : r.file with
    | none =>
        refine handles_create ?_ (closes_idle opened) rfl kept
        intro isOpen
        rw [opened] at isOpen
        cases isOpen
    | some file =>
        have current : (f.isKeyFrame && answers.expired) = false := by
          simpa [opened] using stays
        have continues : r.handle f answers =
            (r.addSample f answers.built).flushPart f answers := by
          simp [handle, kept, create, opened]
        rw [continues]
        exact handles_append (by rw [opened]; rfl) current
  · cases rotation : r.rotate f answers with
    | mk rotated goesOn =>
        rw [rotation] at closes built
        cases goesOn with
        | false =>
            rw [handle, rotation]
            exact .dropped (fun _ => expired) closes
        | true => exact handles_create (fun _ => expired) closes built rotation

/-- A frame is built into at most one sample. -/
theorem samplesBuilt_handle (r : Run) (f : Frame) (answers : FrameAnswers) :
    (r.handle f answers).samplesBuilt = r.samplesBuilt ∨
      (r.handle f answers).samplesBuilt = r.samplesBuilt + 1 := by
  have rotated : (r.rotate f answers).1.samplesBuilt = r.samplesBuilt := by
    rcases rotate_cases r f answers with ⟨kept, _⟩ | ⟨_, _, built⟩
    · rw [kept]
    · exact built
  unfold handle
  split
  · rename_i rotation
    rw [rotation] at rotated
    exact .inl rotated
  · rename_i next rotation
    rw [rotation] at rotated
    have created := samplesBuilt_create next f answers
    split
    · rename_i creation
      rw [creation] at created
      exact .inl (created.trans rotated)
    · rename_i creation
      rw [creation] at created
      rw [samplesBuilt_flushPart, samplesBuilt_addSample, created, rotated]
      cases answers.built with
      | true => exact .inr rfl
      | false => exact .inl rfl

/-- At its end, the recorder closes the file. -/
theorem closes_finish (r : Run) (answers : ExitAnswers) :
    r.Closes (r.finish answers) := by
  have complete := r.prepares_lastPart r.lastGoodDuration answers.flush
  unfold finish
  split
  · dsimp only
    split
    · exact (r.prepares_appendPending r.lastGoodDuration).finalize _ _ _
    · split
      · exact complete.countPart.finalize _ _ _
      · exact complete.finalize _ _ _
      · exact complete.fail _
  · rename_i closed
    exact closes_idle (Option.not_isSome_iff_eq_none.mp closed)

end Run
end Recorder
end RuseonCore
