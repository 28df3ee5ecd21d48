import RuseonCore.Foundation.Cutting
import RuseonCore.Recorder.Handling

/-!
# Parts of recordings

As long as nothing fails, the recorder writes the frames from the first keyframe
on, one part for each keyframe and the frames up to the next one, and numbers the
parts of each file from one.  The samples on their way to a file are the pending
one and those of the part that is not complete yet.
-/

namespace RuseonCore
namespace Recorder

open Buffer Transition

/-! ## Answers without errors -/

/-- Nothing fails while the frame is handled. -/
def FrameAnswers.clean (answers : FrameAnswers) : Bool :=
  answers.rotation == .ok && answers.createError.isNone && answers.header == .ok &&
    answers.built && answers.gop == .ok

/-- Nothing fails in the step. -/
def RunStep.clean : RunStep → Bool
  | .poll _ => true
  | .frame _ answers => answers.clean
  | .exit answers => answers.flush == .ok

/-- Frames of the samples of a part. -/
def Part.frames (part : Part) : List Frame :=
  part.samples.map Sample.frame

namespace Run

/-- Parts of all files. -/
def parts (r : Run) : List Part :=
  r.archive.flatMap (fun file => file.parts) ++ (r.file.map OpenFile.parts).getD []

/-- Frames on their way to the open file. -/
def openFrames (r : Run) : List Frame :=
  (r.partSamples ++ r.pendingSample.toList).map Sample.frame

/-- Parts as groups of frames. -/
def cutting (r : Run) : Cutting Frame where
  done := r.parts.map Part.frames
  current := r.file.map fun _ => r.openFrames

/-- A part of the frames on their way. -/
structure Flushes (r : Run) (part : Part) : Prop where
  frames : part.frames = r.openFrames
  number : part.sequenceNumber = r.seq

/-- A frame is pending, preceded by the given frames. -/
structure Holds (r : Run) (frames : List Frame) : Prop where
  frames : r.openFrames = frames
  pending : r.pendingSample.isSome = true

/-- A file has just begun with the frame. -/
structure Begins (r : Run) (f : Frame) : Prop where
  file : ∃ file, r.file = some file ∧ file.parts = []
  holds : r.Holds [f]
  seq : r.seq = 1

/-- What a frame does when nothing fails. -/
inductive Records (r : Run) (f : Frame) (next : Run) : Prop
  | skipped
      (closed : r.file = none)
      (delta : f.isKeyFrame = false)
      (same : next = r)
  | started
      (closed : r.file = none)
      (key : f.isKeyFrame = true)
      (archive : next.archive = r.archive)
      (begins : next.Begins f)
  | extended
      (file : OpenFile)
      (opened : r.file = some file)
      (delta : f.isKeyFrame = false)
      (same : next.file = some file)
      (archive : next.archive = r.archive)
      (holds : next.Holds (r.openFrames ++ [f]))
      (seq : next.seq = r.seq)
  | flushed
      (file : OpenFile)
      (opened : r.file = some file)
      (key : f.isKeyFrame = true)
      (part : Part)
      (flushes : r.Flushes part)
      (after : OpenFile)
      (same : next.file = some after)
      (parts : after.parts = file.parts ++ [part])
      (archive : next.archive = r.archive)
      (holds : next.Holds [f])
      (seq : next.seq = r.seq + 1)
  | rotated
      (file : OpenFile)
      (opened : r.file = some file)
      (key : f.isKeyFrame = true)
      (part : Part)
      (flushes : r.Flushes part)
      (closed : ClosedFile)
      (parts : closed.parts = file.parts ++ [part])
      (archive : next.archive = r.archive ++ [closed])
      (begins : next.Begins f)

/-! ## Samples -/

theorem map_frame_setDuration
    (id : Nat)
    (duration : UInt32)
    (samples : List Sample) :
    (samples.map (setDuration id duration)).map Sample.frame =
      samples.map Sample.frame := by
  rw [List.map_map]
  refine List.map_congr_left fun s _ => ?_
  unfold setDuration
  simp only [Function.comp_apply]
  split <;> rfl

/-- The pending sample joins the others. -/
theorem frames_appendPending (r : Run) (duration : UInt32) :
    (r.appendPending duration).partSamples.map Sample.frame = r.openFrames := by
  unfold appendPending openFrames
  cases r.pendingSample with
  | none => simp
  | some s => simp only [List.map_append, map_frame_setDuration]; simp

theorem seq_appendPending (r : Run) (duration : UInt32) :
    (r.appendPending duration).seq = r.seq := by
  unfold appendPending
  split <;> rfl

/-! ## Handling a frame -/

theorem FrameAnswers.clean_iff {answers : FrameAnswers} :
    answers.clean = true ↔
      answers.rotation = .ok ∧ answers.createError = none ∧ answers.header = .ok ∧
        answers.built = true ∧ answers.gop = .ok := by
  simp [FrameAnswers.clean, and_assoc]

section Clean

variable {r : Run} {f : Frame} {answers : FrameAnswers}

theorem create_key
    (closed : r.file = none)
    (key : f.isKeyFrame = true)
    (clean : answers.clean = true) :
    r.create f answers = ((r.openFile answers).beginFile f, true) := by
  obtain ⟨_, created, header, _⟩ := FrameAnswers.clean_iff.mp clean
  simp [create, closed, key, created, header]

theorem flushPart_delta (delta : f.isKeyFrame = false) :
    r.flushPart f answers = r := by
  simp [flushPart, delta]

theorem flushPart_key
    (key : f.isKeyFrame = true)
    (nonempty : r.partSamples ≠ [])
    (written : answers.gop = .ok) :
    r.flushPart f answers =
      { (r.marshalPart .ok).countPart with
        partSamples := []
        seq := r.seq + 1
        partStartBaseTime := (r.currentPts f).toUInt64 } := by
  simp [flushPart, key, nonempty, written]

/-- Samples before a further frame of a file. -/
theorem frames_addSample (pending : r.pendingSample.isSome = true) :
    (r.addSample f true).partSamples.map Sample.frame = r.openFrames := by
  simp only [addSample, settlePending, pending, if_true]
  exact frames_appendPending r _

/-- A further frame of a file. -/
theorem holds_addSample (pending : r.pendingSample.isSome = true) :
    (r.addSample f true).Holds (r.openFrames ++ [f]) where
  frames := by
    rw [openFrames, List.map_append, frames_addSample pending]
    rfl
  pending := rfl

theorem seq_addSample : (r.addSample f true).seq = r.seq := by
  simp only [addSample, if_true, settlePending]
  split
  · exact seq_appendPending r _
  · rfl

theorem openFrames_ne_nil (pending : r.pendingSample.isSome = true) :
    r.openFrames ≠ [] := by
  obtain ⟨s, found⟩ := Option.isSome_iff_exists.mp pending
  simp [openFrames, found]

/-- All samples are written to the file. -/
def flushed (r : Run) : Run :=
  ((r.appendPending r.lastGoodDuration).marshalPart .ok).countPart

theorem rotate_expired
    {file : OpenFile}
    (opened : r.file = some file)
    (pending : r.pendingSample.isSome = true)
    (key : f.isKeyFrame = true)
    (expired : answers.expired = true)
    (written : answers.rotation = .ok) :
    r.rotate f answers = (r.flushed.finishRotation answers, true) := by
  have nonempty : (r.appendPending r.lastGoodDuration).partSamples.isEmpty = false := by
    rw [isEmpty_appendPending]
    simp [hasSamples, pending]
  simp [rotate, opened, key, expired, nonempty, written, flushed]

theorem rotate_current
    (current : f.isKeyFrame = false ∨ answers.expired = false ∨ r.file = none) :
    r.rotate f answers = (r, true) := by
  unfold rotate
  rcases current with delta | young | closed
  · simp [delta]
  · simp [young]
  · simp [closed]

/-- The rest of an iteration after a file was created. -/
def beginWith (r : Run) (f : Frame) (answers : FrameAnswers) : Run :=
  (((r.openFile answers).beginFile f).addSample f answers.built).flushPart f answers

theorem beginWith_eq (built : answers.built = true) :
    r.beginWith f answers = ((r.openFile answers).beginFile f).addSample f true := by
  rw [beginWith, flushPart_begun, built]

theorem begins_beginWith (built : answers.built = true) :
    (r.beginWith f answers).Begins f := by
  rw [beginWith_eq built]
  refine ⟨⟨_, file_addSample _ f true, rfl⟩, ⟨?_, rfl⟩, seq_addSample⟩
  simp [addSample, settlePending, beginFile, openFrames]

theorem phase_beginWith (built : answers.built = true) :
    (r.beginWith f answers).phase = r.phase := by
  rw [beginWith_eq built, phase_addSample]
  rfl

theorem archive_beginWith (built : answers.built = true) :
    (r.beginWith f answers).archive = r.archive := by
  rw [beginWith_eq built, archive_addSample]
  rfl

/-- A part that is written from the samples. -/
theorem parts_marshalPart
    {file : OpenFile}
    (opened : r.file = some file)
    (outcome : Outcome) :
    ∃ after, (r.marshalPart outcome).file = some after ∧
      after.parts = file.parts ++ [r.currentPart] := by
  refine ⟨{ file with marshals := file.marshals ++ [⟨.part r.currentPart, outcome⟩] },
    ?_, ?_⟩
  · simp [marshalPart, marshal, opened]
  · simp [OpenFile.parts, Marshal.part?]

/-- The file that is finalized when all samples were written. -/
theorem archive_finalize_flushed
    {file : OpenFile}
    (opened : r.file = some file)
    (recordEndTime : String)
    (storeError : Option String) :
    ∃ closed : ClosedFile,
      (r.flushed.finalize false recordEndTime storeError).archive =
        r.archive ++ [closed] ∧
      closed.parts =
        file.parts ++ [(r.appendPending r.lastGoodDuration).currentPart] := by
  have settled : (r.appendPending r.lastGoodDuration).file = some file :=
    (file_appendPending r _).trans opened
  obtain ⟨after, same, parts⟩ := parts_marshalPart settled .ok
  have written : r.flushed.file = some after := same
  have archive : r.flushed.archive = r.archive := archive_appendPending r _
  rw [finalize_open written, ← archive]
  exact ⟨_, rfl, parts⟩

theorem flushes_pending :
    r.Flushes (r.appendPending r.lastGoodDuration).currentPart where
  frames := frames_appendPending r _
  number := seq_appendPending r _

/-! The four ways through an iteration. -/

theorem handle_closed_delta
    (closed : r.file = none)
    (delta : f.isKeyFrame = false) :
    r.handle f answers = r := by
  simp [handle, rotate_current (.inr (.inr closed)), create, closed, delta]

theorem handle_closed_key
    (closed : r.file = none)
    (key : f.isKeyFrame = true)
    (clean : answers.clean = true) :
    r.handle f answers = r.beginWith f answers := by
  simp only [handle, rotate_current (.inr (.inr closed)), create_key closed key clean]
  rfl

theorem handle_current
    {file : OpenFile}
    (opened : r.file = some file)
    (current : f.isKeyFrame = false ∨ answers.expired = false)
    (built : answers.built = true) :
    r.handle f answers = (r.addSample f true).flushPart f answers := by
  have kept : r.rotate f answers = (r, true) := by
    rcases current with delta | young
    · exact rotate_current (.inl delta)
    · exact rotate_current (.inr (.inl young))
  simp [handle, kept, create, opened, built]

theorem handle_expired
    {file : OpenFile}
    (opened : r.file = some file)
    (pending : r.pendingSample.isSome = true)
    (key : f.isKeyFrame = true)
    (expired : answers.expired = true)
    (clean : answers.clean = true) :
    r.handle f answers = (r.flushed.finishRotation answers).beginWith f answers := by
  obtain ⟨written, _⟩ := FrameAnswers.clean_iff.mp clean
  have closed : (r.flushed.finishRotation answers).file = none :=
    file_finalize _ _ _ _
  simp only [handle, rotate_expired opened pending key expired written,
    create_key closed key clean]
  rfl

/-- Without errors, every frame is recorded in one of the five ways, and the
goroutine stays where it is. -/
theorem records
    (pending : r.file.isSome = true → r.pendingSample.isSome = true)
    (clean : answers.clean = true) :
    r.Records f (r.handle f answers) ∧ (r.handle f answers).phase = r.phase := by
  obtain ⟨_, _, _, built, gop⟩ := FrameAnswers.clean_iff.mp clean
  cases opened : r.file with
  | none =>
      cases key : f.isKeyFrame with
      | false =>
          rw [handle_closed_delta opened key]
          exact ⟨.skipped opened key rfl, rfl⟩
      | true =>
          rw [handle_closed_key opened key clean]
          exact ⟨.started opened key (archive_beginWith built) (begins_beginWith built),
            phase_beginWith built⟩
  | some file =>
      have held : r.pendingSample.isSome = true := pending (by rw [opened]; rfl)
      cases key : f.isKeyFrame with
      | false =>
          rw [handle_current opened (.inl key) built, flushPart_delta key]
          exact ⟨.extended file opened key ((file_addSample r f true).trans opened)
            (archive_addSample r f true) (holds_addSample held) seq_addSample,
            phase_addSample r f true⟩
      | true =>
          cases expired : answers.expired with
          | false =>
              have frames := frames_addSample held (f := f)
              have nonempty : (r.addSample f true).partSamples ≠ [] := by
                intro empty
                rw [empty] at frames
                exact openFrames_ne_nil held frames.symm
              obtain ⟨after, same, parts⟩ :=
                parts_marshalPart ((file_addSample r f true).trans opened) .ok
              rw [handle_current opened (.inr expired) built,
                flushPart_key key nonempty gop]
              exact ⟨.flushed file opened key (r.addSample f true).currentPart
                ⟨frames, seq_addSample⟩ after same parts (archive_addSample r f true)
                ⟨rfl, rfl⟩ (congrArg (· + 1) seq_addSample), phase_addSample r f true⟩
          | true =>
              obtain ⟨closed, archive, parts⟩ := archive_finalize_flushed opened
                answers.recordEndTime answers.rotationStoreError
              rw [handle_expired opened held key expired clean]
              refine ⟨.rotated file opened key _ flushes_pending closed parts
                ((archive_beginWith built).trans archive) (begins_beginWith built), ?_⟩
              rw [phase_beginWith built]
              exact (phase_finalize r.flushed _ _ _).trans (phase_appendPending r _)

end Clean

/-! ## Runs -/

/-- The parts of a file are numbered from one. -/
def Numbered (parts : List Part) : Prop :=
  parts.map Part.sequenceNumber = List.range' 1 parts.length

theorem Numbered.concat
    {parts : List Part}
    {part : Part}
    (numbered : Numbered parts)
    (number : part.sequenceNumber = parts.length + 1) :
    Numbered (parts ++ [part]) := by
  unfold Numbered at numbered ⊢
  rw [List.map_append, numbered, List.length_append, List.length_singleton,
    List.range'_1_concat, List.map_singleton, number, Nat.add_comm]

/-- The parts and the frames on their way are cut from the frames delivered so
far. -/
structure Recorded (input : List Frame) (r : Run) : Prop where
  follows : r.cutting.Follows Frame.isKeyFrame input
  tight : r.cutting.Tight Frame.isKeyFrame
  archived : ∀ file ∈ r.archive, Numbered file.parts
  current : ∀ file, r.file = some file →
    Numbered file.parts ∧ r.seq = file.parts.length + 1
  pending : r.file.isSome = true → r.pendingSample.isSome = true
  waiting : r.phase = .waiting → r.file = none

theorem parts_open
    {r : Run}
    {file : OpenFile}
    (opened : r.file = some file) :
    r.parts = r.archive.flatMap (fun file => file.parts) ++ file.parts := by
  simp [parts, opened]

theorem parts_closed
    {r : Run}
    (closed : r.file = none) :
    r.parts = r.archive.flatMap (fun file => file.parts) := by
  simp [parts, closed]

theorem cutting_open
    {r : Run}
    {file : OpenFile}
    (opened : r.file = some file) :
    r.cutting = ⟨r.parts.map Part.frames, some r.openFrames⟩ := by
  simp [cutting, opened]

theorem cutting_closed
    {r : Run}
    (closed : r.file = none) :
    r.cutting = ⟨r.parts.map Part.frames, none⟩ := by
  simp [cutting, closed]

theorem groups_closed
    {r : Run}
    (closed : r.file = none) :
    r.cutting.groups = r.parts.map Part.frames := by
  rw [cutting_closed closed, Cutting.groups, Option.toList_none, List.append_nil]

/-- Cutter steps of the recorder: it cuts at every keyframe. -/
theorem takes_records
    {r next : Run}
    {f : Frame}
    (records : r.Records f next) :
    Cutting.Takes Frame.isKeyFrame r.cutting f next.cutting ∧
      (f.isKeyFrame = true → next.cutting.current = some [f]) := by
  cases records with
  | skipped closed delta same =>
      rw [same, cutting_closed closed]
      exact ⟨.skip f delta _, fun key => absurd (delta.symm.trans key) Bool.false_ne_true⟩
  | started closed key archive begins =>
      obtain ⟨file, opened, empty⟩ := begins.file
      have parts : next.parts = r.parts := by
        rw [parts_open opened, empty, archive, List.append_nil, parts_closed closed]
      rw [cutting_closed closed, cutting_open opened, parts, begins.holds.frames]
      exact ⟨.start f key _, fun _ => rfl⟩
  | extended file opened delta same archive holds =>
      have parts : next.parts = r.parts := by
        rw [parts_open same, archive, parts_open opened]
      rw [cutting_open opened, cutting_open same, parts, holds.frames]
      exact ⟨.extend f _ _, fun key => absurd (delta.symm.trans key) Bool.false_ne_true⟩
  | flushed file opened key part flushes after same added archive holds =>
      have parts : next.parts = r.parts ++ [part] := by
        rw [parts_open same, archive, added, parts_open opened, List.append_assoc]
      rw [cutting_open opened, cutting_open same, parts, holds.frames, List.map_append,
        List.map_singleton, flushes.frames]
      exact ⟨.cut f key _ _, fun _ => rfl⟩
  | rotated file opened key part flushes closed added archive begins =>
      obtain ⟨after, fresh, empty⟩ := begins.file
      have parts : next.parts = r.parts ++ [part] := by
        rw [parts_open fresh, empty, archive, parts_open opened]
        simp [added]
      rw [cutting_open opened, cutting_open fresh, parts, begins.holds.frames,
        List.map_append, List.map_singleton, flushes.frames]
      exact ⟨.cut f key _ _, fun _ => rfl⟩

theorem Begins.numbered
    {r : Run}
    {f : Frame}
    (begins : r.Begins f) :
    ∀ file, r.file = some file → Numbered file.parts ∧ r.seq = file.parts.length + 1 := by
  intro file opened
  obtain ⟨found, same, empty⟩ := begins.file
  obtain rfl := Option.some.inj (opened.symm.trans same)
  rw [empty, begins.seq]
  exact ⟨rfl, rfl⟩

/-- A file that is finalized with the frames on their way as its last part is
numbered like the others. -/
theorem Recorded.archived_concat
    {input : List Frame}
    {r : Run}
    (recorded : r.Recorded input)
    {file : OpenFile}
    (opened : r.file = some file)
    {part : Part}
    (flushes : r.Flushes part)
    {closed : ClosedFile}
    (parts : closed.parts = file.parts ++ [part]) :
    ∀ other ∈ r.archive ++ [closed], Numbered other.parts := by
  obtain ⟨numbered, number⟩ := recorded.current file opened
  intro other member
  rcases List.mem_append.mp member with old | new
  · exact recorded.archived other old
  · rw [List.mem_singleton.mp new, parts]
    exact numbered.concat (flushes.number.trans number)

theorem Recorded.records
    {input : List Frame}
    {r next : Run}
    {f : Frame}
    (recorded : r.Recorded input)
    (going : next.phase ≠ .waiting)
    (records : r.Records f next) :
    next.Recorded (input ++ [f]) := by
  have waiting : next.phase = .waiting → next.file = none :=
    fun waits => absurd waits going
  obtain ⟨takes, cuts⟩ := takes_records records
  have follows := recorded.follows.takes takes
  have tight := recorded.tight.takes takes cuts
  cases records with
  | skipped closed delta same =>
      subst same
      exact ⟨follows, tight, recorded.archived, recorded.current, recorded.pending,
        waiting⟩
  | started closed key archive begins =>
      refine ⟨follows, tight, ?_, begins.numbered, fun _ => begins.holds.pending, waiting⟩
      rw [archive]
      exact recorded.archived
  | extended file opened delta same archive holds seq =>
      refine ⟨follows, tight, ?_, ?_, fun _ => holds.pending, waiting⟩
      · rw [archive]
        exact recorded.archived
      · rw [same, seq, ← opened]
        exact recorded.current
  | flushed file opened key part flushes after same parts archive holds seq =>
      obtain ⟨numbered, number⟩ := recorded.current file opened
      refine ⟨follows, tight, ?_, ?_, fun _ => holds.pending, waiting⟩
      · rw [archive]
        exact recorded.archived
      · intro found fresh
        obtain rfl := Option.some.inj (same.symm.trans fresh)
        rw [parts, seq, List.length_append, List.length_singleton, number]
        exact ⟨numbered.concat (flushes.number.trans number), rfl⟩
  | rotated file opened key part flushes closed parts archive begins =>
      refine ⟨follows, tight, ?_, begins.numbered, fun _ => begins.holds.pending, waiting⟩
      rw [archive]
      exact recorded.archived_concat opened flushes parts

/-- Without errors, every step before the end of the loop keeps the parts cut
from the frames delivered so far. -/
theorem Recorded.step
    {input : List Frame}
    {r next : Run}
    {label : RunStep}
    (recorded : r.Recorded input)
    (clean : label.clean = true)
    (taken : r.step label = some next)
    (going : next.phase ≠ .ended) :
    next.Recorded (input ++ label.delivered.toList) := by
  cases steps_of_step taken with
  | polled found phase waiting =>
      change Recorded (input ++ []) _
      rw [List.append_nil]
      exact ⟨recorded.follows, recorded.tight, recorded.archived, recorded.current,
        recorded.pending, fun _ => recorded.waiting waiting⟩
  | handled f answers recording =>
      obtain ⟨records, phase⟩ := Run.records recorded.pending clean
      refine recorded.records ?_ records
      rw [phase, recording]
      decide
  | cancelled answers waiting => exact absurd rfl going
  | finished answers recording => exact absurd rfl going

theorem recorded_start : Recorded [] start where
  follows := Cutting.follows_empty
  tight := Cutting.tight_empty
  archived := by
    intro file member
    cases member
  current := by
    intro file opened
    cases opened
  pending := by
    intro opened
    cases opened
  waiting := fun _ => rfl

theorem finish_open
    {r : Run}
    (opened : r.file.isSome = true)
    (pending : r.pendingSample.isSome = true)
    {answers : ExitAnswers}
    (written : answers.flush = .ok) :
    r.finish answers =
      r.flushed.finalize false answers.recordEndTime answers.storeError := by
  have held : r.hasSamples = true := by
    rw [hasSamples, pending]
    rfl
  simp only [Run.finish, opened, isEmpty_appendPending, held, written]
  rfl

/-- The end of the loop moves the frames on their way to a last part. -/
theorem Recorded.finish
    {input : List Frame}
    {r : Run}
    (recorded : r.Recorded input)
    {answers : ExitAnswers}
    (written : answers.flush = .ok) :
    (r.finish answers).parts.map Part.frames = r.cutting.groups ∧
      ∀ file ∈ (r.finish answers).archive, Numbered file.parts := by
  cases opened : r.file with
  | none =>
      have same : r.finish answers = r := by
        simp [Run.finish, opened]
      rw [same, groups_closed opened]
      exact ⟨rfl, recorded.archived⟩
  | some file =>
      have isOpen : r.file.isSome = true := by
        rw [opened]
        rfl
      obtain ⟨closed, archive, parts⟩ := archive_finalize_flushed opened
        answers.recordEndTime answers.storeError
      rw [finish_open isOpen (recorded.pending isOpen) written]
      refine ⟨?_, ?_⟩
      · have all : (r.flushed.finalize false answers.recordEndTime
            answers.storeError).parts =
            r.parts ++ [(r.appendPending r.lastGoodDuration).currentPart] := by
          rw [parts_closed (file_finalize _ _ _ _), archive, parts_open opened]
          simp [parts]
        rw [all, cutting_open opened, List.map_append, List.map_singleton,
          flushes_pending.frames]
        rfl
      · rw [archive]
        exact recorded.archived_concat opened flushes_pending parts

theorem Recorded.exit
    {input : List Frame}
    {r next : Run}
    {answers : ExitAnswers}
    (recorded : r.Recorded input)
    (written : answers.flush = .ok)
    (taken : r.step (.exit answers) = some next) :
    next.parts.map Part.frames = r.cutting.groups ∧
      (∀ file ∈ next.archive, Numbered file.parts) ∧ next.file = none := by
  cases steps_of_step taken with
  | cancelled _ waiting =>
      have closed := recorded.waiting waiting
      refine ⟨?_, recorded.archived, closed⟩
      rw [groups_closed closed]
      rfl
  | finished _ recording =>
      obtain ⟨parts, numbered⟩ := recorded.finish written
      exact ⟨parts, numbered, file_finish r answers⟩

theorem phase_of_step
    {r next : Run}
    {label : RunStep}
    (taken : r.step label = some next) :
    r.phase ≠ .ended := by
  intro ended
  cases label <;> simp [Run.step, ended] at taken

/-- Without errors, every state before the end of the loop has recorded the
frames delivered so far. -/
theorem recorded_run
    {labels : List RunStep}
    {middle : Run}
    (reached : run Run.step start labels = some middle)
    (clean : ∀ label ∈ labels, label.clean = true)
    (going : middle.phase ≠ .ended) :
    middle.Recorded (labels.filterMap RunStep.delivered) := by
  have preserved : ∀ input (r : Run) label next,
      (r.phase ≠ .ended → r.Recorded input) → label.clean = true →
      r.step label = some next →
      (next.phase ≠ .ended → next.Recorded (input ++ label.delivered.toList)) :=
    fun _ _ _ _ before clean taken => (before (phase_of_step taken)).step clean taken
  exact run_invariant_input preserved (fun _ => recorded_start) clean reached going

end Run

/-- If nothing fails, the parts of all files up to the end of the loop hold the
delivered frames from the first keyframe on, each once and in order; every part
begins with a keyframe and has no other one; and the parts of each file are
numbered from one. -/
theorem parts_hold_frames
    (labels : List RunStep)
    (answers : ExitAnswers)
    {finish : Run}
    (reached : run Run.step Run.start (labels ++ [.exit answers]) = some finish)
    (clean : ∀ label ∈ labels ++ [.exit answers], label.clean = true) :
    finish.parts.flatMap Part.frames =
        (labels.filterMap RunStep.delivered).dropWhile (fun f => !f.isKeyFrame) ∧
      (∀ part ∈ finish.parts, ∃ first rest,
        part.samples = first :: rest ∧ first.frame.isKeyFrame = true ∧
        ∀ sample ∈ rest, sample.frame.isKeyFrame = false) ∧
      (∀ file ∈ finish.archive,
        file.parts.map Part.sequenceNumber = List.range' 1 file.parts.length) ∧
      finish.file = none := by
  rw [run_append, Option.bind_eq_some_iff] at reached
  obtain ⟨middle, before, last⟩ := reached
  obtain ⟨_, taken, done⟩ := run_cons_eq_some.mp last
  obtain rfl := Option.some.inj done
  have written : answers.flush = .ok := by
    have cleanExit := clean (.exit answers) (by simp)
    simpa [RunStep.clean] using cleanExit
  have recorded := Run.recorded_run before
    (fun label member => clean label (List.mem_append_left _ member))
    (Run.phase_of_step taken)
  obtain ⟨parts, numbered, closed⟩ := recorded.exit written taken
  refine ⟨?_, ?_, numbered, closed⟩
  · rw [← recorded.follows.items, ← parts, List.flatMap_def]
  · intro part member
    have grouped : part.frames ∈ middle.cutting.groups := by
      rw [← parts]
      exact List.mem_map_of_mem member
    obtain ⟨item, later, begins, key⟩ := recorded.follows.headed _ grouped
    have tight := recorded.tight _ grouped
    obtain ⟨first, rest, samples, rfl, rfl⟩ := List.map_eq_cons_iff.mp begins
    refine ⟨first, rest, samples, key, ?_⟩
    intro sample among
    rw [begins, List.tail_cons] at tight
    exact tight _ (List.mem_map_of_mem among)

/-- Three keyframes, with a rotation at the last one. -/
theorem parts_hold_frames_rotated :
    ∃ finish,
      run Run.step Run.start
        ([.poll true, .frame (keyframeAt 0) smoothly, .frame (keyframeAt 1) smoothly,
          .frame (keyframeAt 2) { smoothly with expired := true }] ++
          [.exit ⟨.ok, "11-00-01", none⟩]) = some finish ∧
      finish.archive.length = 2 ∧
      finish.parts.flatMap Part.frames = [keyframeAt 0, keyframeAt 1, keyframeAt 2] := by
  refine ⟨_, rfl, ?_, ?_⟩
  · decide
  · exact (parts_hold_frames
      [.poll true, .frame (keyframeAt 0) smoothly, .frame (keyframeAt 1) smoothly,
        .frame (keyframeAt 2) { smoothly with expired := true }]
      ⟨.ok, "11-00-01", none⟩ rfl (by decide)).1

end Recorder
end RuseonCore
