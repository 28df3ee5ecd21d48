import RuseonCore.Foundation.Transition
import RuseonCore.Rtsp.Timestamp

/-!
# The recorder

Model of `Recorder.run` in `internal/recorder/recorder.go`: the goroutine that
writes the frames of a ring buffer to fragmented MP4 files.  What its
surroundings answer (the clock, the blob store, the outcome of each `Marshal`
call) is part of the labels.  A file is a sequence of `Marshal` calls, and is
renamed or deleted when it is finalized.

File names are relative to the directory of the stream.  The third-party sample
of a frame is represented by the frame.  Samples are numbered as they are built,
because the source shares one sample between `pendingSample` and `partSamples`
when the next one cannot be built.  The part counters do not overflow here, which
agrees with the 32-bit counters of the source for fewer than `2 ^ 32` parts.  The
counters of the metrics are left out, and an event bus is present.
-/

namespace RuseonCore
namespace Recorder

open Buffer Rtsp

/-! ## Files -/

/-- Result of a call that writes to the file. -/
inductive Outcome
  | ok
  | failed
  | panicked
  deriving DecidableEq

/-- A sample of the track. -/
structure Sample where
  id : Nat
  frame : Frame
  duration : UInt32
  deriving DecidableEq

/-- A fragment of the file. -/
structure Part where
  sequenceNumber : Nat
  baseTime : UInt64
  samples : List Sample
  deriving DecidableEq

/-- What is written: the header with the codec parameters, or a part. -/
inductive Content
  | init (params : CodecParams)
  | part (part : Part)
  deriving DecidableEq

/-- A `Marshal` call. -/
structure Marshal where
  content : Content
  outcome : Outcome
  deriving DecidableEq

/-- What is asked of the blob store when a file is finalized. -/
inductive Fate
  | ready (name : String)
  | corrupted (name : String)
  | deleted
  deriving DecidableEq

/-- Events on the bus. -/
inductive Event
  | recordingFailed (error file : String)
  | archiveSegmentReady (file : String)
  deriving DecidableEq

/-- The file that is being written. -/
structure OpenFile where
  recordStartTime : String
  marshals : List Marshal
  deriving DecidableEq

/-- A finalized file, with the answer of the blob store and the events that were
published about it. -/
structure ClosedFile extends OpenFile where
  fate : Fate
  storeError : Option String
  events : List Event
  deriving DecidableEq

/-- The part that a `Marshal` call writes. -/
def Marshal.part? (marshal : Marshal) : Option Part :=
  match marshal.content with
  | .part part => some part
  | .init _ => none

/-- Parts of a file. -/
def OpenFile.parts (file : OpenFile) : List Part :=
  file.marshals.filterMap Marshal.part?

/-- Name of a file while it is written. -/
def ongoingName (recordStartTime : String) : String :=
  recordStartTime ++ "_ongoing.mp4"

/-- Name of a complete file. -/
def finalName (recordStartTime recordEndTime : String) : String :=
  recordStartTime ++ "_to_" ++ recordEndTime ++ ".mp4"

/-- Name of a file after a failure. -/
def corruptedName (name : String) : String :=
  (if name.toList.drop (name.toList.length - 4) == ".mp4".toList then
      String.ofList (name.toList.take (name.toList.length - 4))
    else name) ++ ".corrupted"

/-! ## Variables and answers -/

/-- Where the goroutine is: waiting for codec parameters, in its loop, or at its
end. -/
inductive Phase
  | waiting
  | recording
  | ended
  deriving DecidableEq

/-- Variables of the goroutine, with all files it has finalized, the events about
files that could not be created, and what it has last reported to
`onDegraded`. -/
structure Run where
  phase : Phase
  file : Option OpenFile
  archive : List ClosedFile
  creationEvents : List Event
  degraded : Option Bool
  seq : Nat
  partsWritten : Nat
  partSamples : List Sample
  pendingSample : Option Sample
  samplesBuilt : Nat
  partStartBaseTime : UInt64
  lastPts : Int64
  initialPts : Int64
  lastGoodDuration : UInt32

/-- Answers while a frame is handled: whether the file is older than an hour,
the outcome of the part written by a rotation, the time of that rotation and the
answer of the store to it; the answer of the store to the creation of a file, the
time of the creation, the codec parameters and the outcome of the header; whether
the sample can be built, the outcome of a part, and the answer of the store to
the renaming after a failed header or part. -/
structure FrameAnswers where
  expired : Bool
  rotation : Outcome
  recordEndTime : String
  rotationStoreError : Option String
  createError : Option String
  recordStartTime : String
  params : CodecParams
  header : Outcome
  built : Bool
  gop : Outcome
  storeError : Option String
  deriving DecidableEq

/-- Answers at the end of the loop. -/
structure ExitAnswers where
  flush : Outcome
  recordEndTime : String
  storeError : Option String
  deriving DecidableEq

/-- What the goroutine reacts to; `poll` looks for codec parameters. -/
inductive RunStep
  | poll (found : Bool)
  | frame (f : Frame) (answers : FrameAnswers)
  | exit (answers : ExitAnswers)

/-- Frame that a step delivers. -/
def RunStep.delivered : RunStep → Option Frame
  | .frame f _ => some f
  | _ => none

namespace Run

/-- The goroutine is launched. -/
def start : Run where
  phase := .waiting
  file := none
  archive := []
  creationEvents := []
  degraded := none
  seq := 0
  partsWritten := 0
  partSamples := []
  pendingSample := none
  samplesBuilt := 0
  partStartBaseTime := 0
  lastPts := 0
  initialPts := -1
  lastGoodDuration := 90000 / 25

/-! ## Finalization -/

/-- Fate of the file, and the events that are published. -/
def conclude
    (r : Run)
    (file : OpenFile)
    (isError : Bool)
    (recordEndTime : String)
    (storeError : Option String) : Fate × List Event :=
  let currentFilename := ongoingName file.recordStartTime
  if isError then
    (.corrupted (corruptedName currentFilename),
      [.recordingFailed "recording write failure" currentFilename])
  else if r.partsWritten > 0 then
    let finalFilename := finalName file.recordStartTime recordEndTime
    (.ready finalFilename,
      match storeError with
      | some err =>
          [.recordingFailed ("failed to rename recording: " ++ err) currentFilename]
      | none => [.archiveSegmentReady finalFilename])
  else (.deleted, [])

/-- Close the file and rename or delete it. -/
def finalize
    (r : Run)
    (isError : Bool)
    (recordEndTime : String)
    (storeError : Option String) : Run :=
  match r.file with
  | some file =>
      let (fate, events) := r.conclude file isError recordEndTime storeError
      { r with
        file := none
        archive := r.archive ++
          [{ file with fate := fate, storeError := storeError, events := events }] }
  | none => r

/-- After a write error. -/
def fail (r : Run) (storeError : Option String) : Run :=
  { r with degraded := some true }.finalize true "" storeError

/-- After a panic, which ends the goroutine. -/
def recover (r : Run) (storeError : Option String) : Run :=
  { r.fail storeError with phase := .ended }

/-- Forget the samples of a file that was finalized. -/
def reset (r : Run) : Run :=
  { r with pendingSample := none, partSamples := [], initialPts := -1 }

/-! ## Samples and parts -/

/-- Give a sample its duration. -/
def setDuration (id : Nat) (duration : UInt32) (s : Sample) : Sample :=
  if s.id = id then { s with duration := duration } else s

/-- Move the pending sample to the samples of the part. -/
def appendPending (r : Run) (duration : UInt32) : Run :=
  match r.pendingSample with
  | some s =>
      { r with
        pendingSample := some { s with duration := duration }
        partSamples := r.partSamples.map (setDuration s.id duration) ++
          [{ s with duration := duration }] }
  | none => r

/-- A `Marshal` call on the file. -/
def marshal (r : Run) (content : Content) (outcome : Outcome) : Run :=
  { r with
    file := r.file.map fun file =>
      { file with marshals := file.marshals ++ [⟨content, outcome⟩] } }

/-- The part that the samples make up. -/
def currentPart (r : Run) : Part where
  sequenceNumber := r.seq
  baseTime := r.partStartBaseTime
  samples := r.partSamples

/-- Write the samples as a part. -/
def marshalPart (r : Run) (outcome : Outcome) : Run :=
  r.marshal (.part r.currentPart) outcome

/-- Count a part that was written. -/
def countPart (r : Run) : Run :=
  { r with partsWritten := r.partsWritten + 1 }

/-! ## Phases of an iteration

Each phase returns whether the iteration goes on. -/

/-- Finish the file before a rotation. -/
def finishRotation (r : Run) (answers : FrameAnswers) : Run :=
  { (r.finalize false answers.recordEndTime answers.rotationStoreError).reset with
    partsWritten := 0 }

/-- Start a new file with a keyframe when the current one is an hour old. -/
def rotate (r : Run) (f : Frame) (answers : FrameAnswers) : Run × Bool :=
  if r.file.isSome && f.isKeyFrame && answers.expired then
    let r := r.appendPending r.lastGoodDuration
    if r.partSamples.isEmpty then (r.finishRotation answers, true)
    else
      let r := r.marshalPart answers.rotation
      match answers.rotation with
      | .ok => (r.countPart.finishRotation answers, true)
      | .failed => ((r.fail answers.rotationStoreError).reset, false)
      | .panicked => (r.recover answers.rotationStoreError, false)
  else (r, true)

/-- The new file with its header. -/
def openFile (r : Run) (answers : FrameAnswers) : Run :=
  { r with
    file := some ⟨answers.recordStartTime, []⟩
    degraded := some false }.marshal (.init answers.params) answers.header

/-- The variables for the first frame of a file. -/
def beginFile (r : Run) (f : Frame) : Run :=
  { r with
    initialPts := durationTo90k (timestamp f)
    partStartBaseTime := 0
    lastPts := 0
    seq := 1
    partsWritten := 0
    pendingSample := none
    partSamples := [] }

/-- Create a file; only a keyframe starts one. -/
def create (r : Run) (f : Frame) (answers : FrameAnswers) : Run × Bool :=
  if r.file.isSome then (r, true)
  else if !f.isKeyFrame then (r, false)
  else
    match answers.createError with
    | some err =>
        ({ r with
            degraded := some true
            creationEvents := r.creationEvents ++
              [.recordingFailed err (ongoingName answers.recordStartTime)] }, false)
    | none =>
        match answers.header with
        | .ok => ((r.openFile answers).beginFile f, true)
        | .failed => ((r.openFile answers).fail answers.storeError, false)
        | .panicked => ((r.openFile answers).recover answers.storeError, false)

/-- Timestamp of the frame relative to the start of the file. -/
def currentPts (r : Run) (f : Frame) : Int64 :=
  durationTo90k (timestamp f) - r.initialPts

/-- Duration of the pending sample when the frame follows. -/
def pendingDuration (r : Run) (f : Frame) : UInt32 :=
  let dur := r.currentPts f - r.lastPts
  if dur ≤ 0 || dur > 90000 * 5 then r.lastGoodDuration else dur.toInt.toNat.toUInt32

/-- Append the pending sample with its duration. -/
def settlePending (r : Run) (f : Frame) : Run :=
  if r.pendingSample.isSome then
    { r.appendPending (r.pendingDuration f) with
      lastGoodDuration := r.pendingDuration f }
  else r

/-- Make the frame the pending sample. -/
def addSample (r : Run) (f : Frame) (built : Bool) : Run :=
  let settled := r.settlePending f
  if built then
    { settled with
      pendingSample := some ⟨r.samplesBuilt, f, 0⟩
      samplesBuilt := r.samplesBuilt + 1
      lastPts := r.currentPts f }
  else { settled with lastPts := r.currentPts f }

/-- Write the samples before a keyframe as a part. -/
def flushPart (r : Run) (f : Frame) (answers : FrameAnswers) : Run :=
  if f.isKeyFrame && !r.partSamples.isEmpty then
    let r' := r.marshalPart answers.gop
    match answers.gop with
    | .ok =>
        { r'.countPart with
          partSamples := []
          seq := r.seq + 1
          partStartBaseTime := (r.currentPts f).toUInt64 }
    | .failed => { (r'.fail answers.storeError).reset with partsWritten := 0 }
    | .panicked => r'.recover answers.storeError
  else r

/-- Handle a frame. -/
def handle (r : Run) (f : Frame) (answers : FrameAnswers) : Run :=
  match r.rotate f answers with
  | (rotated, false) => rotated
  | (rotated, true) =>
      match rotated.create f answers with
      | (created, false) => created
      | (created, true) => (created.addSample f answers.built).flushPart f answers

/-- Write what is left and finalize the file. -/
def finish (r : Run) (answers : ExitAnswers) : Run :=
  if r.file.isSome then
    let r := r.appendPending r.lastGoodDuration
    if r.partSamples.isEmpty then
      r.finalize false answers.recordEndTime answers.storeError
    else
      let r := r.marshalPart answers.flush
      match answers.flush with
      | .ok => r.countPart.finalize false answers.recordEndTime answers.storeError
      | .failed => r.finalize false answers.recordEndTime answers.storeError
      | .panicked => r.fail answers.storeError
  else r

/-- Effect of one step. -/
def step (r : Run) : RunStep → Option Run
  | .poll found =>
      match r.phase with
      | .waiting => some { r with phase := if found then .recording else .waiting }
      | _ => none
  | .frame f answers =>
      match r.phase with
      | .recording => some (r.handle f answers)
      | _ => none
  | .exit answers =>
      match r.phase with
      | .waiting => some { r with phase := .ended }
      | .recording => some { r.finish answers with phase := .ended }
      | .ended => none

/-- There are samples that were not written yet. -/
def hasSamples (r : Run) : Bool :=
  r.pendingSample.isSome || !r.partSamples.isEmpty

/-- What a step can do. -/
inductive Steps (r : Run) : RunStep → Run → Prop
  | polled (found : Bool) (phase : Phase)
      (waiting : r.phase = .waiting) :
      r.Steps (.poll found) { r with phase := phase }
  | handled (f : Frame) (answers : FrameAnswers)
      (recording : r.phase = .recording) :
      r.Steps (.frame f answers) (r.handle f answers)
  | cancelled (answers : ExitAnswers)
      (waiting : r.phase = .waiting) :
      r.Steps (.exit answers) { r with phase := .ended }
  | finished (answers : ExitAnswers)
      (recording : r.phase = .recording) :
      r.Steps (.exit answers) { r.finish answers with phase := .ended }

theorem steps_of_step
    {r next : Run}
    {label : RunStep}
    (taken : r.step label = some next) :
    r.Steps label next := by
  cases label with
  | poll found =>
      simp only [step] at taken
      split at taken
      · rw [← Option.some.inj taken]
        exact .polled found _ ‹_›
      · cases taken
  | frame f answers =>
      simp only [step] at taken
      split at taken
      · rw [← Option.some.inj taken]
        exact .handled f answers ‹_›
      · cases taken
  | exit answers =>
      simp only [step] at taken
      split at taken
      · rw [← Option.some.inj taken]
        exact .cancelled answers ‹_›
      · rw [← Option.some.inj taken]
        exact .finished answers ‹_›
      · cases taken

/-! ## Fields that the phases keep -/

@[simp] theorem file_appendPending (r : Run) (duration : UInt32) :
    (r.appendPending duration).file = r.file := by
  unfold appendPending
  split <;> rfl

@[simp] theorem archive_appendPending (r : Run) (duration : UInt32) :
    (r.appendPending duration).archive = r.archive := by
  unfold appendPending
  split <;> rfl

@[simp] theorem partsWritten_appendPending (r : Run) (duration : UInt32) :
    (r.appendPending duration).partsWritten = r.partsWritten := by
  unfold appendPending
  split <;> rfl

theorem isEmpty_appendPending (r : Run) (duration : UInt32) :
    (r.appendPending duration).partSamples.isEmpty = !r.hasSamples := by
  unfold appendPending hasSamples
  cases r.pendingSample with
  | none => simp
  | some s => simp

@[simp] theorem file_settlePending (r : Run) (f : Frame) :
    (r.settlePending f).file = r.file := by
  unfold settlePending
  split
  · exact file_appendPending r _
  · rfl

@[simp] theorem archive_settlePending (r : Run) (f : Frame) :
    (r.settlePending f).archive = r.archive := by
  unfold settlePending
  split
  · exact archive_appendPending r _
  · rfl

@[simp] theorem file_addSample (r : Run) (f : Frame) (built : Bool) :
    (r.addSample f built).file = r.file := by
  unfold addSample
  split <;> exact file_settlePending r f

@[simp] theorem archive_addSample (r : Run) (f : Frame) (built : Bool) :
    (r.addSample f built).archive = r.archive := by
  unfold addSample
  split <;> exact archive_settlePending r f

@[simp] theorem phase_appendPending (r : Run) (duration : UInt32) :
    (r.appendPending duration).phase = r.phase := by
  unfold appendPending
  split <;> rfl

theorem phase_addSample (r : Run) (f : Frame) (built : Bool) :
    (r.addSample f built).phase = r.phase := by
  have settled : (r.settlePending f).phase = r.phase := by
    unfold settlePending
    split
    · exact phase_appendPending r _
    · rfl
  unfold addSample
  split <;> exact settled

theorem finalize_open
    {r : Run}
    {file : OpenFile}
    (opened : r.file = some file)
    (isError : Bool)
    (recordEndTime : String)
    (storeError : Option String) :
    r.finalize isError recordEndTime storeError =
      { r with
        file := none
        archive := r.archive ++
          [{ file with
              fate := (r.conclude file isError recordEndTime storeError).1
              storeError := storeError
              events := (r.conclude file isError recordEndTime storeError).2 }] } := by
  unfold finalize
  rw [opened]

theorem finalize_closed
    {r : Run}
    (none : r.file = none)
    (isError : Bool)
    (recordEndTime : String)
    (storeError : Option String) :
    r.finalize isError recordEndTime storeError = r := by
  unfold finalize
  rw [none]

@[simp] theorem file_finalize
    (r : Run)
    (isError : Bool)
    (recordEndTime : String)
    (storeError : Option String) :
    (r.finalize isError recordEndTime storeError).file = none := by
  cases opened : r.file with
  | none => rw [finalize_closed opened, opened]
  | some file => rw [finalize_open opened]

@[simp] theorem phase_finalize
    (r : Run)
    (isError : Bool)
    (recordEndTime : String)
    (storeError : Option String) :
    (r.finalize isError recordEndTime storeError).phase = r.phase := by
  unfold finalize
  split <;> rfl

@[simp] theorem file_fail (r : Run) (storeError : Option String) :
    (r.fail storeError).file = none :=
  file_finalize _ true "" storeError

theorem file_finish
    (r : Run)
    (answers : ExitAnswers) :
    (r.finish answers).file = none := by
  unfold finish
  split
  · dsimp only
    split
    · exact file_finalize _ _ _ _
    · split
      · exact file_finalize _ _ _ _
      · exact file_finalize _ _ _ _
      · exact file_fail _ _
  · rename_i closed
    exact Option.not_isSome_iff_eq_none.mp closed

end Run

/-- An SPS for 128x96 pixels, and a PPS. -/
def smallParams : CodecParams :=
  ⟨none, some [0x67, 0x42, 0x00, 0x0a, 0xf8, 0x41, 0xa2], some [0x68, 0xce, 0x38, 0x80]⟩

/-- Answers without an error. -/
def smoothly : FrameAnswers where
  expired := false
  rotation := .ok
  recordEndTime := "11-00-00"
  rotationStoreError := none
  createError := none
  recordStartTime := "2024-01-01_10-00-00"
  params := smallParams
  header := .ok
  built := true
  gop := .ok
  storeError := none

/-- A keyframe at the given second. -/
def keyframeAt (seconds : Nat) : Frame where
  timestamp := seconds * 1000000000
  isKeyFrame := true
  nalus := [[0x65]]

end Recorder
end RuseonCore
