import RuseonCore.Recorder.Run

/-!
# Finalization of recordings

A recording should be published only if everything was written to it, and be set
aside or deleted otherwise.  Every write error within the loop finalizes the file
as a failure at once, so a file that is open has no failed write.  At the end of
the loop the error of the last part is ignored.
-/

namespace RuseonCore
namespace Recorder

open Transition

/-- Every `Marshal` call succeeded. -/
def OpenFile.written (file : OpenFile) : Bool :=
  file.marshals.all fun marshal => marshal.outcome == .ok

def Event.isReady : Event → Bool
  | .archiveSegmentReady _ => true
  | .recordingFailed _ _ => false

def Event.isFailed : Event → Bool
  | .recordingFailed _ _ => true
  | .archiveSegmentReady _ => false

namespace ClosedFile

/-- The file has its final name or was announced as ready. -/
def published (file : ClosedFile) : Bool :=
  match file.fate with
  | .ready _ => file.storeError.isNone || file.events.any Event.isReady
  | _ => file.events.any Event.isReady

/-- The file is renamed as corrupted, with an event, or deleted. -/
def discarded (file : ClosedFile) : Bool :=
  match file.fate with
  | .corrupted _ => file.events.any Event.isFailed
  | .deleted => true
  | .ready _ => false

/-- The file is published only if everything was written; otherwise it is
discarded, provided that the store does so. -/
def Honest (file : ClosedFile) : Prop :=
  (file.published = true → file.written = true) ∧
    (file.written = false → file.storeError = none → file.discarded = true)

instance (file : ClosedFile) : Decidable file.Honest := by
  unfold Honest
  infer_instance

theorem honest_of_written
    {file : ClosedFile}
    (written : file.written = true) :
    file.Honest :=
  ⟨fun _ => written, fun unwritten => absurd (unwritten.symm.trans written)
    Bool.false_ne_true⟩

end ClosedFile

namespace Run

/-- Every finalized file is published or discarded as it should be. -/
def Honest (r : Run) : Prop :=
  ∀ file ∈ r.archive, file.Honest

instance (r : Run) : Decidable r.Honest := by
  unfold Honest
  infer_instance

/-- Nothing has failed to be written to the open file. -/
def Unfailed (r : Run) : Prop :=
  ∀ file, r.file = some file → file.written = true

/-- If the last part of a file fails at the end of the loop, no part was written
before, or the file cannot be renamed. -/
def EndsCleanly (r : Run) : RunStep → Prop
  | .exit answers =>
      r.phase = .recording → r.file.isSome = true → r.hasSamples = true →
        answers.flush = .failed → answers.storeError = none → r.partsWritten = 0
  | _ => True

instance (r : Run) (label : RunStep) : Decidable (r.EndsCleanly label) := by
  cases label <;> unfold EndsCleanly <;> infer_instance

/-! ## Files in the phases of an iteration -/

theorem honest_append
    {r : Run}
    (honest : r.Honest)
    {file : ClosedFile} :
    (∀ other ∈ r.archive ++ [file], other.Honest) ↔ file.Honest := by
  constructor
  · intro all
    exact all file (by simp)
  · intro added other member
    rcases List.mem_append.mp member with old | new
    · exact honest other old
    · rw [List.mem_singleton.mp new]
      exact added

/-- A failure is never published. -/
theorem Honest.fail
    {r : Run}
    (honest : r.Honest)
    (storeError : Option String) :
    (r.fail storeError).Honest := by
  cases opened : r.file with
  | none =>
      rw [Run.fail, finalize_closed (r := { r with degraded := some true }) opened]
      exact honest
  | some file =>
      rw [Honest, Run.fail, finalize_open (r := { r with degraded := some true }) opened]
      refine (honest_append honest).mpr ⟨?_, fun _ _ => rfl⟩
      intro published
      cases published

/-- A file without failures may be published. -/
theorem Honest.finalize
    {r : Run}
    (honest : r.Honest)
    (unfailed : r.Unfailed)
    (recordEndTime : String)
    (storeError : Option String) :
    (r.finalize false recordEndTime storeError).Honest := by
  unfold Honest
  cases opened : r.file with
  | none =>
      rw [finalize_closed opened]
      exact honest
  | some file =>
      rw [finalize_open opened]
      exact (honest_append honest).mpr
        (ClosedFile.honest_of_written (unfailed file opened))

theorem unfailed_of_closed {r : Run} (none : r.file = none) : r.Unfailed := by
  intro file opened
  rw [none] at opened
  cases opened

/-- A successful write leaves no failure. -/
theorem Unfailed.marshal
    {r : Run}
    (unfailed : r.Unfailed)
    (content : Content) :
    (r.marshal content .ok).Unfailed := by
  intro file opened
  obtain ⟨before, found, rfl⟩ := Option.map_eq_some_iff.mp opened
  have written := unfailed before found
  simp only [OpenFile.written] at written ⊢
  simp [written]

/-- Files are treated as they should be, and the open one has no failure. -/
structure Keeps (r next : Run) : Prop where
  honest : r.Honest → next.Honest
  unfailed : next.Unfailed

theorem honest_appendPending
    (r : Run)
    (duration : UInt32) :
    (r.appendPending duration).Honest ↔ r.Honest := by
  rw [Honest, Honest, archive_appendPending]

theorem Unfailed.appendPending
    {r : Run}
    (unfailed : r.Unfailed)
    (duration : UInt32) :
    (r.appendPending duration).Unfailed := by
  rw [Unfailed, file_appendPending]
  exact unfailed

theorem keeps_fail
    {r next : Run}
    (same : next.archive = r.archive)
    (storeError : Option String) :
    r.Keeps (next.fail storeError) where
  honest := fun honest => Honest.fail (by rw [Honest, same]; exact honest) storeError
  unfailed := unfailed_of_closed (file_fail next storeError)

theorem keeps_finalize
    {r next : Run}
    (same : next.archive = r.archive)
    (unfailed : next.Unfailed)
    (recordEndTime : String)
    (storeError : Option String) :
    r.Keeps (next.finalize false recordEndTime storeError) where
  honest := fun honest =>
    Honest.finalize (by rw [Honest, same]; exact honest) unfailed recordEndTime storeError
  unfailed := unfailed_of_closed (file_finalize next false recordEndTime storeError)

theorem Unfailed.rotate
    {r : Run}
    (unfailed : r.Unfailed)
    (f : Buffer.Frame)
    (answers : FrameAnswers) :
    r.Keeps (r.rotate f answers).1 := by
  unfold Run.rotate
  split
  · have clean := unfailed.appendPending r.lastGoodDuration
    have archive := archive_appendPending r r.lastGoodDuration
    dsimp only
    generalize r.appendPending r.lastGoodDuration = settled at clean archive
    split
    · have kept := keeps_finalize archive clean answers.recordEndTime
        answers.rotationStoreError
      exact ⟨kept.honest, kept.unfailed⟩
    · cases answers.rotation with
      | ok =>
          have same : (settled.marshalPart .ok).countPart.archive = r.archive := archive
          have kept := keeps_finalize same (clean.marshal _) answers.recordEndTime
            answers.rotationStoreError
          exact ⟨kept.honest, kept.unfailed⟩
      | failed =>
          have same : (settled.marshalPart .failed).archive = r.archive := archive
          have kept := keeps_fail same answers.rotationStoreError
          exact ⟨kept.honest, kept.unfailed⟩
      | panicked =>
          have same : (settled.marshalPart .panicked).archive = r.archive := archive
          have kept := keeps_fail same answers.rotationStoreError
          exact ⟨kept.honest, kept.unfailed⟩
  · exact ⟨id, unfailed⟩

theorem Unfailed.create
    {r : Run}
    (unfailed : r.Unfailed)
    (f : Buffer.Frame)
    (answers : FrameAnswers) :
    r.Keeps (r.create f answers).1 := by
  unfold Run.create
  split
  · exact ⟨id, unfailed⟩
  · split
    · exact ⟨id, unfailed⟩
    · split
      · exact ⟨id, unfailed⟩
      · have same : (r.openFile answers).archive = r.archive := rfl
        cases header : answers.header with
        | ok =>
            refine ⟨id, ?_⟩
            rintro _ ⟨⟩
            simp [OpenFile.written, header]
        | failed => exact keeps_fail same answers.storeError
        | panicked =>
            have kept := keeps_fail same answers.storeError
            exact ⟨kept.honest, kept.unfailed⟩

theorem Unfailed.flushPart
    {r : Run}
    (unfailed : r.Unfailed)
    (f : Buffer.Frame)
    (answers : FrameAnswers) :
    r.Keeps (r.flushPart f answers) := by
  unfold Run.flushPart
  split
  · cases answers.gop with
    | ok => exact ⟨id, unfailed.marshal _⟩
    | failed =>
        have same : (r.marshalPart .failed).archive = r.archive := rfl
        have kept := keeps_fail same answers.storeError
        exact ⟨kept.honest, kept.unfailed⟩
    | panicked =>
        have same : (r.marshalPart .panicked).archive = r.archive := rfl
        have kept := keeps_fail same answers.storeError
        exact ⟨kept.honest, kept.unfailed⟩
  · exact ⟨id, unfailed⟩

/-- Handling a frame treats files as it should. -/
theorem Unfailed.handle
    {r : Run}
    (unfailed : r.Unfailed)
    (f : Buffer.Frame)
    (answers : FrameAnswers) :
    r.Keeps (r.handle f answers) := by
  have rotated := unfailed.rotate f answers
  unfold Run.handle
  split
  · rename_i found
    rw [found] at rotated
    exact rotated
  · rename_i found
    rw [found] at rotated
    have created := rotated.unfailed.create f answers
    split
    · rename_i found
      rw [found] at created
      exact ⟨created.honest ∘ rotated.honest, created.unfailed⟩
    · rename_i last found
      rw [found] at created
      have added : (last.addSample f answers.built).Unfailed := by
        rw [Unfailed, file_addSample]
        exact created.unfailed
      have flushed := added.flushPart f answers
      refine ⟨fun honest => flushed.honest ?_, flushed.unfailed⟩
      rw [Honest, archive_addSample]
      exact created.honest (rotated.honest honest)

/-! ## The end of the loop -/

/-- A file with a failure that is finalized as a success is published unless it
is empty or cannot be renamed. -/
theorem honest_finalize_unwritten
    {r : Run}
    (honest : r.Honest)
    {file : OpenFile}
    (opened : r.file = some file)
    (unwritten : file.written = false)
    (recordEndTime : String)
    (storeError : Option String) :
    (r.finalize false recordEndTime storeError).Honest ↔
      (storeError = none → r.partsWritten = 0) := by
  rw [Honest, finalize_open opened, honest_append honest]
  unfold ClosedFile.Honest
  rw [show OpenFile.written _ = false from unwritten]
  by_cases empty : r.partsWritten = 0
  · have concluded : r.conclude file false recordEndTime storeError = (.deleted, []) := by
      simp [conclude, empty]
    rw [concluded]
    simp [ClosedFile.published, ClosedFile.discarded, empty]
  · cases storeError with
    | none =>
        have concluded : r.conclude file false recordEndTime none =
            (.ready (finalName file.recordStartTime recordEndTime),
              [.archiveSegmentReady (finalName file.recordStartTime recordEndTime)]) := by
          simp [conclude, Nat.pos_of_ne_zero empty]
        rw [concluded]
        simp [ClosedFile.published, empty]
    | some err =>
        have concluded : r.conclude file false recordEndTime (some err) =
            (.ready (finalName file.recordStartTime recordEndTime),
              [.recordingFailed ("failed to rename recording: " ++ err)
                (ongoingName file.recordStartTime)]) := by
          simp [conclude, Nat.pos_of_ne_zero empty]
        rw [concluded]
        simp [ClosedFile.published, Event.isReady]

/-- At its end, the loop treats the file as it should exactly if the last part
does not fail after others were written. -/
theorem honest_finish_iff
    {r : Run}
    (honest : r.Honest)
    (unfailed : r.Unfailed)
    (answers : ExitAnswers) :
    (r.finish answers).Honest ↔
      (r.file.isSome = true → r.hasSamples = true → answers.flush = .failed →
        answers.storeError = none → r.partsWritten = 0) := by
  unfold finish
  cases opened : r.file with
  | none => simpa using honest
  | some file =>
      have settled := (honest_appendPending r r.lastGoodDuration).mpr honest
      have clean := unfailed.appendPending r.lastGoodDuration
      have sameFile : (r.appendPending r.lastGoodDuration).file = some file := by
        rw [file_appendPending, opened]
      have samples := isEmpty_appendPending r r.lastGoodDuration
      have parts := partsWritten_appendPending r r.lastGoodDuration
      generalize r.appendPending r.lastGoodDuration = left at settled clean sameFile samples parts
      simp only [Option.isSome_some, if_true, samples, true_imp_iff]
      cases r.hasSamples with
      | false =>
          simp only [Bool.not_false, if_true, Bool.false_eq_true, false_imp_iff, iff_true]
          exact settled.finalize clean _ _
      | true =>
          simp only [Bool.not_true, Bool.false_eq_true, if_false, true_imp_iff]
          cases answers.flush with
          | ok =>
              have honest : (left.marshalPart .ok).countPart.Honest := settled
              simp only [reduceCtorEq, false_imp_iff, iff_true]
              exact honest.finalize (clean.marshal _) _ _
          | failed =>
              have honest : (left.marshalPart .failed).Honest := settled
              have marshalled : (left.marshalPart .failed).file =
                  some { file with
                    marshals := file.marshals ++ [⟨.part left.currentPart, .failed⟩] } := by
                simp [marshalPart, marshal, sameFile]
              have exact := honest_finalize_unwritten honest marshalled
                (by simp [OpenFile.written]) answers.recordEndTime answers.storeError
              simp only [true_imp_iff, ← parts]
              exact exact
          | panicked =>
              have honest : (left.marshalPart .panicked).Honest := settled
              simp only [reduceCtorEq, false_imp_iff, iff_true]
              exact honest.fail _

/-- A step treats files as it should exactly if it ends cleanly, and an open file
has no failure afterwards. -/
theorem honest_step
    {r next : Run}
    {label : RunStep}
    (unfailed : r.Unfailed)
    (taken : r.step label = some next) :
    (r.Honest → (next.Honest ↔ r.EndsCleanly label)) ∧ next.Unfailed := by
  cases steps_of_step taken with
  | polled found phase waiting =>
      exact ⟨fun honest => iff_of_true honest trivial, unfailed⟩
  | handled f answers recording =>
      have handled := unfailed.handle f answers
      exact ⟨fun honest => iff_of_true (handled.honest honest) trivial,
        handled.unfailed⟩
  | cancelled answers waiting =>
      refine ⟨fun honest => iff_of_true honest ?_, unfailed⟩
      intro recording
      rw [waiting] at recording
      cases recording
  | finished answers recording =>
      refine ⟨fun honest => ?_, unfailed_of_closed (file_finish r answers)⟩
      refine (honest_finish_iff honest unfailed answers).trans ?_
      exact ⟨fun clean _ => clean, fun clean => clean recording⟩

end Run

/-- All along a run, every file is published only if everything was written to
it, and is otherwise discarded, exactly if the last part of a file does not fail
at the end of the loop after other parts were written, unless the file cannot be
renamed. -/
theorem files_honest_iff
    (labels : List RunStep)
    {finish : Run}
    (reached : run Run.step Run.start labels = some finish) :
    Always Run.step Run.Honest Run.start labels ↔
      Meets Run.step Run.EndsCleanly Run.start labels := by
  have invariantStep : ∀ (r : Run) label next, r.Unfailed → r.step label = some next →
      next.Unfailed :=
    fun _ _ _ unfailed taken => (Run.honest_step unfailed taken).2
  have exactStep : ∀ (r : Run) label next, r.Unfailed → r.Honest →
      r.step label = some next → (next.Honest ↔ r.EndsCleanly label) :=
    fun _ _ _ unfailed honest taken => (Run.honest_step unfailed taken).1 honest
  exact always_iff_meets invariantStep exactStep (Run.unfailed_of_closed rfl)
    (fun _ none => by cases none) reached

theorem files_honest_iff_smoothly :
    ∃ finish,
      run Run.step Run.start
        [.poll true, .frame (keyframeAt 0) smoothly, .frame (keyframeAt 1) smoothly,
          .exit ⟨.ok, "10-00-02", none⟩] = some finish ∧
      Always Run.step Run.Honest Run.start
        [.poll true, .frame (keyframeAt 0) smoothly, .frame (keyframeAt 1) smoothly,
          .exit ⟨.ok, "10-00-02", none⟩] := by
  refine ⟨_, rfl, ?_⟩
  refine (files_honest_iff [.poll true, .frame (keyframeAt 0) smoothly,
    .frame (keyframeAt 1) smoothly, .exit ⟨.ok, "10-00-02", none⟩] rfl).mpr ?_
  decide

/-- The first part of a file is written, and the second fails at the end of the
loop: the file is renamed as complete and announced. -/
theorem truncated_file_published :
    ∃ finish file,
      run Run.step Run.start
        [.poll true, .frame (keyframeAt 0) smoothly, .frame (keyframeAt 1) smoothly,
          .exit ⟨.failed, "10-00-02", none⟩] = some finish ∧
      finish.archive = [file] ∧
      file.fate = .ready "2024-01-01_10-00-00_to_10-00-02.mp4" ∧
      file.events = [.archiveSegmentReady "2024-01-01_10-00-00_to_10-00-02.mp4"] ∧
      file.written = false ∧
      ¬ finish.Honest := by
  refine ⟨_, _, rfl, rfl, ?_, ?_, ?_, ?_⟩
  · decide
  · decide
  · decide
  · decide

end Recorder
end RuseonCore
