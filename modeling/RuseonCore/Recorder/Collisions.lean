import RuseonCore.Foundation.Folder
import RuseonCore.Recorder.FileNames

/-!
# Recordings of one camera

Successive recorders of one camera write to one directory.  Here the recorder of
`internal/recorder/recorder.go` runs beside the clock it reads and the directory it
works on: the blob store calls of every step are carried out in turn, `Create`
truncates the file that has the name and `Rename` replaces it.  A name of the
directory stands for the number of the recording whose data it holds.

The names show only seconds, and the recorder does not look at the directory.  It
meets no earlier data if every file is begun in a second of its own
(`recordings_kept`); recordings that begin and end within the same second replace
each other.
-/

namespace RuseonCore
namespace Recorder

open Archive Buffer Transition

/-! ## Calls of the blob store -/

/-- A call that names files, with the error that it returns. -/
inductive BlobCall
  | create (name : String) (error : Option String)
  | rename (old new : String) (error : Option String)
  | delete (name : String) (error : Option String)
  deriving DecidableEq

/-- The name under which a call leaves a file. -/
def BlobCall.target : BlobCall → Option String
  | .create name _ => some name
  | .rename _ new _ => some new
  | .delete _ _ => none

/-- The error that a call returns. -/
def BlobCall.error : BlobCall → Option String
  | .create _ error => error
  | .rename _ _ error => error
  | .delete _ error => error

/-- The call that ended a file. -/
def ClosedFile.call (file : ClosedFile) : BlobCall :=
  match file.fate with
  | .ready name => .rename (ongoingName file.recordStartTime) name file.storeError
  | .corrupted name => .rename (ongoingName file.recordStartTime) name file.storeError
  | .deleted => .delete (ongoingName file.recordStartTime) file.storeError

/-- The file was not deleted. -/
def ClosedFile.remains (file : ClosedFile) : Bool :=
  !(file.fate == .deleted && file.storeError.isNone)

/-- Starts of the files that were not deleted. -/
def keptStarts (files : List ClosedFile) : List String :=
  (files.filter ClosedFile.remains).map (·.recordStartTime)

namespace Run

/-- Start of the open file. -/
def openStart (r : Run) : Option String :=
  r.file.map (·.recordStartTime)

/-- Calls about the files that were closed since. -/
def closings (r next : Run) : List BlobCall :=
  (next.archive.drop r.archive.length).map ClosedFile.call

/-- The frame makes the recorder create a file. -/
def creates (r : Run) (f : Frame) : Bool :=
  r.file.isNone && f.isKeyFrame

/-- Calls of a step, in their order. -/
def calls (r : Run) (label : RunStep) (next : Run) : List BlobCall :=
  match label with
  | .poll _ => []
  | .frame f answers =>
      match r.rotate f answers with
      | (rotated, false) => r.closings rotated
      | (rotated, true) =>
          r.closings rotated ++
            (if rotated.creates f then
              [.create (ongoingName answers.recordStartTime) answers.createError]
            else []) ++
            rotated.closings next
  | .exit _ => r.closings next

end Run

/-! ## The directory -/

/-- The directory of the camera, the number of files that were created in it, and
the names with data of another recording that calls have met. -/
structure Disk where
  folder : Folder String Nat
  created : Nat
  clashes : List String

namespace Disk

/-- Take note of a call to a name that holds data. -/
def note (disk : Disk) (call : BlobCall) : Disk :=
  { disk with
    clashes := disk.clashes ++ call.target.toList.filter fun name => (disk.folder.get name).isSome }

/-- Effect of a call that succeeds. -/
def effect (disk : Disk) : BlobCall → Disk
  | .create name _ =>
      { disk with
        folder := disk.folder.put name disk.created
        created := disk.created + 1 }
  | .rename old new _ => { disk with folder := disk.folder.tryMove (fun _ => true) old new }
  | .delete name _ => { disk with folder := disk.folder.remove name }

/-- Carry out a call; a call that returns an error has no effect. -/
def perform (disk : Disk) (call : BlobCall) : Disk :=
  if call.error.isSome then disk.note call else (disk.note call).effect call

/-- Carry out several calls. -/
def performAll (disk : Disk) (calls : List BlobCall) : Disk :=
  calls.foldl perform disk

end Disk

/-! ## The camera -/

/-- The recorder of the camera, the files of the recorders before it, the
directory, the latest reading of the clock, and `recordStartTime`. -/
structure CameraRun where
  run : Run
  earlier : List ClosedFile
  disk : Disk
  clock : Int
  recordStartTime : Int

/-- Readings of the clock in a step: for the age of the file, for the end of the
file, and for the start of the next file. -/
structure Readings where
  age : Int
  finish : Int
  start : Int
  deriving DecidableEq

/-- Another recorder is launched, or the recorder takes a step. -/
inductive CameraRunStep
  | launch
  | run (label : RunStep) (readings : Readings)

namespace CameraRun

/-- Nothing was recorded yet. -/
def start (clock : Int) : CameraRun where
  run := Run.start
  earlier := []
  disk := ⟨Folder.empty, 0, []⟩
  clock := clock
  recordStartTime := 0

/-- All files that were closed. -/
def closed (c : CameraRun) : List ClosedFile :=
  c.earlier ++ c.run.archive

/-- The offset of local time at an instant. -/
abbrev Zone := Int → Int

variable (zone : Zone)

/-- The answers of a step agree with the clock, which does not go back. -/
def Reads (c : CameraRun) (label : RunStep) (readings : Readings) : Prop :=
  c.clock ≤ readings.age ∧ readings.age ≤ readings.finish ∧ readings.finish ≤ readings.start ∧
    match label with
    | .poll _ => True
    | .frame _ answers =>
        (c.run.file.isSome = true →
          answers.expired = decide (readings.age - c.recordStartTime > 3600 * 1000000000)) ∧
        answers.recordEndTime = endText (readings.finish + zone readings.finish) ∧
        answers.recordStartTime = startText (readings.start + zone readings.start)
    | .exit answers => answers.recordEndTime = endText (readings.finish + zone readings.finish)

instance (c : CameraRun) (label : RunStep) (readings : Readings) :
    Decidable (c.Reads zone label readings) :=
  match label with
  | .poll _ => inferInstanceAs (Decidable (_ ∧ _ ∧ _ ∧ True))
  | .frame _ _ => inferInstanceAs (Decidable (_ ∧ _ ∧ _ ∧ (_ → _) ∧ _ = _ ∧ _ = _))
  | .exit _ => inferInstanceAs (Decidable (_ ∧ _ ∧ _ ∧ _ = _))

/-- The step reads the clock for the start of a file. -/
def begins (r : Run) : RunStep → Bool
  | .frame f answers =>
      match r.rotate f answers with
      | (rotated, goesOn) => goesOn && rotated.creates f
  | _ => false

/-- Effect of one step. -/
def step (c : CameraRun) : CameraRunStep → Option CameraRun
  | .launch =>
      if c.run.phase = .ended then some { c with run := Run.start, earlier := c.closed } else none
  | .run label readings =>
      if c.Reads zone label readings then
        (c.run.step label).map fun next =>
          { c with
            run := next
            disk := c.disk.performAll (c.run.calls label next)
            clock := readings.start
            recordStartTime :=
              if begins c.run label then readings.start else c.recordStartTime }
      else none

/-- No call has met data of another recording. -/
def Kept (c : CameraRun) : Prop :=
  c.disk.clashes = []

/-- Starts of the files that are in the directory. -/
def starts (c : CameraRun) : List String :=
  keptStarts c.closed ++ c.run.openStart.toList

/-- A keyframe that may begin a file comes in a second in which no file of the
directory was begun. -/
def Fresh (c : CameraRun) : CameraRunStep → Prop
  | .run (.frame f answers) _ =>
      f.isKeyFrame = true → (c.run.file.isSome = true → answers.expired = true) →
        answers.recordStartTime ∉ c.starts
  | _ => True

instance (c : CameraRun) (label : CameraRunStep) : Decidable (c.Fresh label) :=
  match label with
  | .launch => inferInstanceAs (Decidable True)
  | .run (.poll _) _ => inferInstanceAs (Decidable True)
  | .run (.frame _ _) _ => inferInstanceAs (Decidable (_ → (_ → _) → _ ∉ _))
  | .run (.exit _) _ => inferInstanceAs (Decidable True)

end CameraRun

/-! ## Names and starts -/

/-- The name is that of a file that was begun at the start. -/
def BearsStart (start name : String) : Prop :=
  name = ongoingName start ∨ name = corruptedName (ongoingName start) ∨
    ∃ finish, name = finalName start (endText finish)

/-- A name shows one start only. -/
theorem BearsStart.unique
    {start other name : String}
    (first : BearsStart start name)
    (second : BearsStart other name) :
    start = other := by
  rcases first with rfl | rfl | ⟨finish, rfl⟩
  · rcases second with same | same | ⟨last, same⟩
    · exact ongoingName_injective same
    · exact absurd same (ongoingName_ne_corruptedName _ _)
    · exact absurd same (ongoingName_ne_finalName _ _ _)
  · rcases second with same | same | ⟨last, same⟩
    · exact absurd same.symm (ongoingName_ne_corruptedName _ _)
    · exact corruptedName_inj same
    · exact absurd same.symm (finalName_ne_corruptedName _ _ _)
  · rcases second with same | same | ⟨last, same⟩
    · exact absurd same.symm (ongoingName_ne_finalName _ _ _)
    · exact absurd same (finalName_ne_corruptedName _ _ _)
    · exact (finalName_inj same).1

/-- A closed file got, or should have got, a name that shows its start. -/
def ClosedFile.WellNamed (file : ClosedFile) : Prop :=
  match file.fate with
  | .ready name => ∃ finish, name = finalName file.recordStartTime (endText finish)
  | .corrupted name => name = corruptedName (ongoingName file.recordStartTime)
  | .deleted => True

theorem mem_keptStarts_iff
    {files : List ClosedFile}
    {start : String} :
    start ∈ keptStarts files ↔
      ∃ file ∈ files, file.remains = true ∧ file.recordStartTime = start := by
  simp [keptStarts, and_assoc]

/-! ## A tidy directory -/

/-- No call has met other data.  Every file in the directory shows its start, and
the open file was begun in a second of its own. -/
structure Tidy (disk : Disk) (opened : Option String) (kept : List String) : Prop where
  clean : disk.clashes = []
  named : ∀ name, disk.folder.get name ≠ none →
    (∃ start, opened = some start ∧ name = ongoingName start) ∨
      ∃ start ∈ kept, BearsStart start name
  apart : ∀ start, opened = some start → start ∉ kept

section Tidy

variable {disk : Disk} {opened : Option String} {kept : List String} {start : String}

/-- A call to a free name meets nothing. -/
theorem perform_of_free
    {call : BlobCall}
    (free : ∀ name, call.target = some name → disk.folder.get name = none) :
    disk.perform call = if call.error.isSome then disk else disk.effect call := by
  have unmet : disk.note call = disk := by
    cases target : call.target with
    | none => simp [Disk.note, target]
    | some name => simp [Disk.note, target, free name target]
  rw [Disk.perform, unmet]

/-- A name that shows a start without files is free, if it is not that of the open
file. -/
theorem Tidy.free
    (tidy : Tidy disk opened kept)
    (unkept : start ∉ kept)
    {name : String}
    (bears : BearsStart start name)
    (unopened : ∀ other, opened = some other → name ≠ ongoingName other) :
    disk.folder.get name = none := by
  by_contra held
  rcases tidy.named name held with ⟨other, open_, same⟩ | ⟨other, member, shows⟩
  · exact unopened other open_ same
  · exact unkept (bears.unique shows ▸ member)

/-- A file is begun in a second of its own. -/
theorem Tidy.create
    (tidy : Tidy disk none kept)
    (unkept : start ∉ kept)
    (error : Option String) :
    Tidy (disk.perform (.create (ongoingName start) error))
      (if error.isSome then none else some start) kept := by
  have free : disk.folder.get (ongoingName start) = none :=
    tidy.free unkept (Or.inl rfl) (fun _ none => by cases none)
  rw [perform_of_free (by rintro _ ⟨⟩; exact free)]
  cases error with
  | some err => exact tidy
  | none =>
      refine ⟨tidy.clean, ?_, ?_⟩
      · intro name held
        by_cases here : name = ongoingName start
        · exact Or.inl ⟨start, rfl, here⟩
        · have before : disk.folder.get name ≠ none := by
            rw [← Folder.get_put_of_ne here]
            exact held
          rcases tidy.named name before with ⟨_, none, _⟩ | shown
          · cases none
          · exact Or.inr shown
      · rintro _ ⟨⟩
        exact unkept

section Close

variable
  {more : List String}
  (tidy : Tidy disk (some start) kept)
  (grows : kept ⊆ more)

include tidy grows

/-- The open file is ended but keeps its name. -/
theorem Tidy.leave (member : start ∈ more) : Tidy disk none more where
  clean := tidy.clean
  named := by
    intro name held
    rcases tidy.named name held with ⟨_, ⟨⟩, same⟩ | ⟨other, kept, shows⟩
    · exact Or.inr ⟨start, member, Or.inl same⟩
    · exact Or.inr ⟨other, grows kept, shows⟩
  apart := fun _ none => by cases none

/-- The open file loses its name; what is new in the directory shows its start. -/
theorem Tidy.moveAway
    {folder : Folder String Nat}
    (gone : folder.get (ongoingName start) = none)
    (others : ∀ name, name ≠ ongoingName start → folder.get name ≠ none →
      disk.folder.get name ≠ none ∨ start ∈ more ∧ BearsStart start name) :
    Tidy { disk with folder := folder } none more where
  clean := tidy.clean
  named := by
    intro name held
    have away : name ≠ ongoingName start := by
      rintro rfl
      exact held gone
    right
    rcases others name away held with before | ⟨member, bears⟩
    · rcases tidy.named name before with ⟨_, ⟨⟩, same⟩ | ⟨other, kept, shows⟩
      · exact absurd same away
      · exact ⟨other, grows kept, shows⟩
    · exact ⟨start, member, bears⟩
  apart := fun _ none => by cases none

/-- The open file is renamed. -/
theorem Tidy.rename
    (member : start ∈ more)
    {name : String}
    (bears : BearsStart start name)
    (different : ongoingName start ≠ name)
    (error : Option String) :
    Tidy (disk.perform (.rename (ongoingName start) name error)) none more := by
  have free : disk.folder.get name = none := by
    apply tidy.free (tidy.apart start rfl) bears
    rintro _ ⟨⟩
    exact different.symm
  rw [perform_of_free (by rintro _ ⟨⟩; exact free)]
  cases error with
  | some err => exact tidy.leave grows member
  | none =>
      apply tidy.moveAway grows
      · rw [Folder.get_tryMove_old different]
        simp
      · intro other away held
        by_cases isNew : other = name
        · exact Or.inr ⟨member, isNew ▸ bears⟩
        · rw [Folder.get_tryMove_of_ne away isNew] at held
          exact Or.inl held

/-- The open file is deleted. -/
theorem Tidy.delete
    (error : Option String)
    (member : error.isSome = true → start ∈ more) :
    Tidy (disk.perform (.delete (ongoingName start) error)) none more := by
  rw [perform_of_free (by rintro _ ⟨⟩)]
  cases error with
  | some err => exact tidy.leave grows (member rfl)
  | none =>
      apply tidy.moveAway grows Folder.get_remove_self
      intro other away held
      rw [Folder.get_remove_of_ne away] at held
      exact Or.inl held

end Close

/-- The open file is ended. -/
theorem Tidy.close
    {closed : ClosedFile}
    {files : List ClosedFile}
    (tidy : Tidy disk (some closed.recordStartTime) (keptStarts files))
    (wellNamed : closed.WellNamed) :
    Tidy (disk.perform closed.call) none (keptStarts (files ++ [closed])) := by
  have grows : keptStarts files ⊆ keptStarts (files ++ [closed]) := by
    intro start member
    simp only [keptStarts, List.filter_append, List.map_append]
    exact List.mem_append_left _ member
  have member : closed.remains = true →
      closed.recordStartTime ∈ keptStarts (files ++ [closed]) := by
    intro remains
    exact mem_keptStarts_iff.mpr ⟨closed, by simp, remains, rfl⟩
  rw [ClosedFile.WellNamed] at wellNamed
  rw [ClosedFile.remains] at member
  rw [ClosedFile.call]
  cases fate : closed.fate with
  | ready name =>
      rw [fate] at wellNamed member
      obtain ⟨finish, rfl⟩ := wellNamed
      exact tidy.rename grows (member rfl) (Or.inr (Or.inr ⟨finish, rfl⟩))
        (ongoingName_ne_finalName _ _ _) _
  | corrupted name =>
      rw [fate] at wellNamed member
      obtain rfl := wellNamed
      exact tidy.rename grows (member rfl) (Or.inr (Or.inl rfl))
        (ongoingName_ne_corruptedName _ _) _
  | deleted =>
      rw [fate] at member
      apply tidy.delete grows
      intro failed
      apply member
      cases error : closed.storeError with
      | none => rw [error] at failed; cases failed
      | some err => rfl

end Tidy

/-! ## Files in the phases of an iteration -/

namespace Run

/-- The open file goes on, or is closed under a name that shows its start. -/
structure Touches (r next : Run) : Prop where
  phase : next.phase = r.phase ∨ next.file = none
  files : (next.archive = r.archive ∧ next.openStart = r.openStart) ∨
    ∃ closed : ClosedFile, r.openStart = some closed.recordStartTime ∧ next.file = none ∧
      next.archive = r.archive ++ [closed] ∧ closed.WellNamed

section Touches

variable {r middle next : Run}

/-- The files of two states are the same. -/
theorem Touches.of_same
    (phase : next.phase = r.phase ∨ next.file = none)
    (archive : next.archive = r.archive)
    (opened : next.openStart = r.openStart) :
    r.Touches next :=
  ⟨phase, Or.inl ⟨archive, opened⟩⟩

/-- The files are the same at first. -/
theorem Touches.after
    (touches : middle.Touches next)
    (phase : middle.phase = r.phase)
    (archive : middle.archive = r.archive)
    (opened : middle.openStart = r.openStart) :
    r.Touches next := by
  obtain ⟨samePhase, files⟩ := touches
  rw [phase] at samePhase
  rw [archive, opened] at files
  exact ⟨samePhase, files⟩

/-- The files are the same in the end. -/
theorem Touches.before
    (touches : r.Touches middle)
    (phase : next.phase = middle.phase ∨ next.file = none)
    (archive : next.archive = middle.archive)
    (file : next.file = middle.file) :
    r.Touches next := by
  obtain ⟨samePhase, files⟩ := touches
  refine ⟨?_, ?_⟩
  · rcases phase with same | closed
    · rw [same, file]
      exact samePhase
    · exact Or.inr closed
  · rw [archive, file, openStart, file]
    exact files

theorem openStart_marshal (r : Run) (content : Content) (outcome : Outcome) :
    (r.marshal content outcome).openStart = r.openStart := by
  rw [openStart, marshal, openStart, Option.map_map]
  rfl

/-- The end of a file leaves it under a name that shows its start. -/
theorem touches_finalize
    (r : Run)
    (isError : Bool)
    {recordEndTime : String}
    (ends : isError = true ∨ ∃ finish, recordEndTime = endText finish)
    (storeError : Option String) :
    r.Touches (r.finalize isError recordEndTime storeError) := by
  cases opened : r.file with
  | none =>
      rw [finalize_closed opened]
      exact .of_same (Or.inl rfl) rfl rfl
  | some file =>
      rw [finalize_open opened]
      refine ⟨Or.inr rfl, Or.inr ⟨_, ?_, rfl, rfl, ?_⟩⟩
      · rw [openStart, opened]
        rfl
      · rw [ClosedFile.WellNamed]
        dsimp only
        unfold conclude
        cases isError with
        | true => rfl
        | false =>
            by_cases parts : r.partsWritten > 0
            · simp only [Bool.false_eq_true, if_false, if_pos parts]
              rcases ends with impossible | ⟨finish, rfl⟩
              · cases impossible
              · exact ⟨finish, rfl⟩
            · simp only [Bool.false_eq_true, if_false, if_neg parts]

theorem touches_fail (r : Run) (storeError : Option String) : r.Touches (r.fail storeError) :=
  (touches_finalize { r with degraded := some true } true (Or.inl rfl) storeError).after rfl rfl rfl

theorem touches_recover (r : Run) (storeError : Option String) :
    r.Touches (r.recover storeError) :=
  (touches_fail r storeError).before (Or.inr (file_fail r storeError)) rfl rfl

theorem Touches.after_appendPending
    {duration : UInt32}
    (touches : (r.appendPending duration).Touches next) :
    r.Touches next := by
  apply touches.after (phase_appendPending r _) (archive_appendPending r _)
  rw [openStart, file_appendPending, openStart]

theorem Touches.after_marshalPart
    {outcome : Outcome}
    (touches : (r.marshalPart outcome).Touches next) :
    r.Touches next :=
  touches.after rfl rfl (openStart_marshal r _ _)

theorem Touches.after_countPart (touches : r.countPart.Touches next) : r.Touches next :=
  touches.after rfl rfl rfl

variable {finish : Int}

/-- A rotation closes the open file. -/
theorem touches_rotate
    (r : Run)
    (f : Frame)
    {answers : FrameAnswers}
    (ends : answers.recordEndTime = endText finish) :
    r.Touches (r.rotate f answers).1 := by
  unfold rotate
  split
  · dsimp only
    generalize settled : r.appendPending r.lastGoodDuration = pending
    suffices pending.Touches _ by
      rw [← settled] at this
      exact this.after_appendPending
    split
    · have closes := touches_finalize pending false (Or.inr ⟨finish, ends⟩)
        answers.rotationStoreError
      exact closes.before (Or.inl rfl) rfl rfl
    · split
      · have closes := touches_finalize (pending.marshalPart answers.rotation).countPart false
          (Or.inr ⟨finish, ends⟩) answers.rotationStoreError
        exact closes.after_countPart.after_marshalPart.before (Or.inl rfl) rfl rfl
      · have closes := touches_fail (pending.marshalPart answers.rotation)
          answers.rotationStoreError
        exact closes.after_marshalPart.before (Or.inl rfl) rfl rfl
      · exact (touches_recover (pending.marshalPart answers.rotation) _).after_marshalPart
  · exact .of_same (Or.inl rfl) rfl rfl

theorem touches_flushPart (r : Run) (f : Frame) (answers : FrameAnswers) :
    r.Touches (r.flushPart f answers) := by
  unfold flushPart
  split
  · dsimp only
    split
    · exact .of_same (Or.inl rfl) rfl (openStart_marshal r _ _)
    · have closes := touches_fail (r.marshalPart answers.gop) answers.storeError
      exact closes.after_marshalPart.before (Or.inl rfl) rfl rfl
    · exact (touches_recover (r.marshalPart answers.gop) _).after_marshalPart
  · exact .of_same (Or.inl rfl) rfl rfl

/-- A frame that belongs to the open file. -/
theorem touches_addSample (r : Run) (f : Frame) (answers : FrameAnswers) :
    r.Touches ((r.addSample f answers.built).flushPart f answers) := by
  apply (touches_flushPart _ f answers).after
  · exact phase_addSample r f _
  · exact archive_addSample r f _
  · rw [openStart, file_addSample, openStart]

/-- The end of the loop. -/
theorem touches_finish
    (r : Run)
    {answers : ExitAnswers}
    (ends : answers.recordEndTime = endText finish) :
    r.Touches (r.finish answers) := by
  unfold Run.finish
  split
  · dsimp only
    generalize settled : r.appendPending r.lastGoodDuration = pending
    suffices pending.Touches _ by
      rw [← settled] at this
      exact this.after_appendPending
    split
    · exact touches_finalize pending false (Or.inr ⟨finish, ends⟩) _
    · split
      · exact (touches_finalize (pending.marshalPart answers.flush).countPart false
          (Or.inr ⟨finish, ends⟩) _).after_countPart.after_marshalPart
      · exact (touches_finalize (pending.marshalPart answers.flush) false
          (Or.inr ⟨finish, ends⟩) _).after_marshalPart
      · exact (touches_fail (pending.marshalPart answers.flush) _).after_marshalPart
  · exact .of_same (Or.inl rfl) rfl rfl

end Touches

/-! ## A step of the recorder -/

section Step

variable
  {disk : Disk}
  {earlier : List ClosedFile}
  {r next : Run}
  {f : Frame}
  {answers : FrameAnswers}

/-- The directory stays tidy when the open file goes on or is closed. -/
theorem Touches.tidy
    (touches : r.Touches next)
    (tidy : Tidy disk r.openStart (keptStarts (earlier ++ r.archive))) :
    Tidy (disk.performAll (r.closings next)) next.openStart
      (keptStarts (earlier ++ next.archive)) := by
  rcases touches.files with ⟨archive, opened⟩ | ⟨closed, opened, file, archive, wellNamed⟩
  · rw [closings, archive, opened, List.drop_length]
    exact tidy
  · rw [closings, archive, List.drop_left, openStart, file, ← List.append_assoc]
    rw [opened] at tidy
    exact tidy.close wellNamed

/-- Only a rotation closes a file before another is created. -/
theorem expired_of_rotate
    (opened : r.file.isSome = true)
    (closed : (r.rotate f answers).1.file = none) :
    answers.expired = true := by
  unfold rotate at closed
  split at closed
  · rename_i rotates
    simp only [Bool.and_eq_true] at rotates
    exact rotates.2
  · rw [closed] at opened
    cases opened

/-- The goroutine goes on after a rotation that the iteration survives. -/
theorem phase_of_rotate
    {rotated : Run}
    (goesOn : r.rotate f answers = (rotated, true)) :
    rotated.phase = r.phase := by
  unfold rotate at goesOn
  split at goesOn
  · dsimp only at goesOn
    split at goesOn
    · cases goesOn
      exact (phase_finalize _ _ _ _).trans (phase_appendPending r _)
    · split at goesOn
      · cases goesOn
        exact (phase_finalize _ _ _ _).trans (phase_appendPending r _)
      · cases goesOn
      · cases goesOn
  · cases goesOn
    rfl

/-- Starts of the files after the open file went on or was closed. -/
theorem Touches.mem_keptStarts
    (touches : r.Touches next)
    {start : String}
    (member : start ∈ keptStarts (earlier ++ next.archive)) :
    start ∈ keptStarts (earlier ++ r.archive) ++ r.openStart.toList := by
  rcases touches.files with ⟨archive, -⟩ | ⟨closed, opened, -, archive, -⟩
  · rw [archive] at member
    exact List.mem_append_left _ member
  · rw [archive, ← List.append_assoc] at member
    obtain ⟨file, present, remains, same⟩ := mem_keptStarts_iff.mp member
    rcases List.mem_append.mp present with old | new
    · exact List.mem_append_left _ (mem_keptStarts_iff.mpr ⟨file, old, remains, same⟩)
    · apply List.mem_append_right
      rw [opened, ← same, List.mem_singleton.mp new]
      exact List.mem_singleton_self _

/-- What follows a rotation. -/
def proceed (r : Run) (f : Frame) (answers : FrameAnswers) : Run :=
  match r.create f answers with
  | (created, false) => created
  | (created, true) => (created.addSample f answers.built).flushPart f answers

/-- The file that is created, or the open one, goes on or is closed. -/
theorem touches_proceed (r : Run) (f : Frame) (answers : FrameAnswers) :
    if r.creates f && answers.createError.isNone then
      (r.openFile answers).Touches (r.proceed f answers)
    else r.Touches (r.proceed f answers) := by
  cases opened : r.file with
  | some file =>
      have uncreated : r.creates f = false := by
        rw [creates, opened]
        rfl
      rw [uncreated, proceed, create, opened]
      exact touches_addSample r f answers
  | none =>
      cases key : f.isKeyFrame with
      | false =>
          have uncreated : r.creates f = false := by
            rw [creates, key, Bool.and_false]
          rw [uncreated, proceed, create, opened, key]
          exact .of_same (Or.inl rfl) rfl rfl
      | true =>
          have created : r.creates f = true := by
            rw [creates, opened, key]
            rfl
          rw [created, proceed, create, opened, key]
          cases failed : answers.createError with
          | some err =>
              have idle : r.openStart = none := by
                rw [openStart, opened]
                rfl
              exact .of_same (Or.inl rfl) rfl idle.symm
          | none =>
              cases header : answers.header with
              | ok =>
                  have added := touches_addSample ((r.openFile answers).beginFile f) f answers
                  exact added.after rfl rfl rfl
              | failed => exact touches_fail (r.openFile answers) answers.storeError
              | panicked => exact touches_recover (r.openFile answers) answers.storeError

/-- The directory stays tidy after a rotation, if a file that is created is begun
in a second of its own. -/
theorem tidy_proceed
    (fresh : r.creates f = true →
      answers.recordStartTime ∉ keptStarts (earlier ++ r.archive))
    (tidy : Tidy disk r.openStart (keptStarts (earlier ++ r.archive))) :
    Tidy
        (disk.performAll
          ((if r.creates f then
            [.create (ongoingName answers.recordStartTime) answers.createError]
          else []) ++ r.closings (r.proceed f answers)))
        (r.proceed f answers).openStart (keptStarts (earlier ++ (r.proceed f answers).archive)) ∧
      ((r.proceed f answers).phase = r.phase ∨ (r.proceed f answers).file = none) := by
  have touches := touches_proceed r f answers
  cases created : r.creates f with
  | false =>
      rw [created] at touches
      exact ⟨touches.tidy tidy, touches.phase⟩
  | true =>
      have idle : r.openStart = none := by
        simp only [creates, Bool.and_eq_true, Option.isNone_iff_eq_none] at created
        rw [openStart, created.1]
        rfl
      rw [created] at touches
      rw [idle] at tidy
      have begun := tidy.create (fresh created) answers.createError
      cases failed : answers.createError with
      | none =>
          rw [failed] at touches begun
          exact ⟨touches.tidy begun, touches.phase⟩
      | some err =>
          rw [failed] at touches begun
          refine ⟨touches.tidy ?_, touches.phase⟩
          rw [idle]
          exact begun

/-- Handling a frame keeps the directory tidy, if a file that is created is begun
in a second of its own. -/
theorem tidy_handle
    {finish : Int}
    (ends : answers.recordEndTime = endText finish)
    (fresh : f.isKeyFrame = true → (r.file.isSome = true → answers.expired = true) →
      answers.recordStartTime ∉ keptStarts (earlier ++ r.archive) ++ r.openStart.toList)
    (tidy : Tidy disk r.openStart (keptStarts (earlier ++ r.archive))) :
    Tidy (disk.performAll (r.calls (.frame f answers) (r.handle f answers)))
        (r.handle f answers).openStart (keptStarts (earlier ++ (r.handle f answers).archive)) ∧
      ((r.handle f answers).phase = r.phase ∨ (r.handle f answers).file = none) := by
  have rotates := touches_rotate r f ends
  have expires := @expired_of_rotate r f answers
  have first := rotates.tidy tidy
  cases found : r.rotate f answers with
  | mk rotated goesOn =>
      rw [found] at rotates expires first
      cases goesOn with
      | false =>
          simp only [calls, handle, found]
          exact ⟨first, rotates.phase⟩
      | true =>
          have handled : r.handle f answers = rotated.proceed f answers := by
            rw [handle, found]
            rfl
          rw [handled]
          simp only [calls, found, List.append_assoc]
          rw [Disk.performAll, List.foldl_append]
          have fresh' : rotated.creates f = true →
              answers.recordStartTime ∉ keptStarts (earlier ++ rotated.archive) := by
            intro created member
            simp only [creates, Bool.and_eq_true, Option.isNone_iff_eq_none] at created
            exact fresh created.2 (fun opened => expires opened created.1)
              (rotates.mem_keptStarts member)
          rw [← phase_of_rotate found]
          exact tidy_proceed fresh' first

end Step

end Run

namespace CameraRun

variable {zone : Zone} {c next : CameraRun}

/-- The directory is tidy, and a recorder that does not record has no open file. -/
structure Orderly (c : CameraRun) : Prop where
  tidy : Tidy c.disk c.run.openStart (keptStarts c.closed)
  idle : c.run.phase ≠ .recording → c.run.file = none

theorem orderly_start (clock : Int) : (start clock).Orderly where
  tidy :=
    { clean := rfl
      named := fun name held => absurd rfl held
      apart := fun _ none => by cases none }
  idle := fun _ => rfl

/-- A step of the recorder keeps the camera orderly, if a file that is created is
begun in a second of its own. -/
theorem Orderly.run
    (orderly : c.Orderly)
    {label : RunStep}
    {readings : Readings}
    {after : Run}
    (reads : c.Reads zone label readings)
    (fresh : c.Fresh (.run label readings))
    (taken : c.run.step label = some after) :
    Tidy (c.disk.performAll (c.run.calls label after)) after.openStart
        (keptStarts (c.earlier ++ after.archive)) ∧
      (after.phase ≠ .recording → after.file = none) := by
  cases Run.steps_of_step taken with
  | polled found phase waiting =>
      refine ⟨orderly.tidy, fun _ => orderly.idle ?_⟩
      rw [waiting]
      decide
  | handled f answers recording =>
      obtain ⟨tidy, phase⟩ := Run.tidy_handle reads.2.2.2.2.1 fresh orderly.tidy
      refine ⟨tidy, fun ended => ?_⟩
      rcases phase with same | closed
      · exact absurd (same.trans recording) ended
      · exact closed
  | cancelled answers waiting =>
      have uncalled : c.run.calls (.exit answers) { c.run with phase := .ended } = [] := by
        rw [Run.calls, Run.closings, List.drop_length]
        rfl
      rw [uncalled]
      refine ⟨orderly.tidy, fun _ => orderly.idle ?_⟩
      rw [waiting]
      decide
  | finished answers recording =>
      have touches := Run.touches_finish c.run reads.2.2.2
      exact ⟨touches.tidy orderly.tidy, fun _ => Run.file_finish c.run answers⟩

/-- A step keeps the camera orderly, if a file that is created is begun in a second
of its own. -/
theorem orderly_step
    (c : CameraRun)
    (label : CameraRunStep)
    (next : CameraRun)
    (orderly : c.Orderly)
    (fresh : c.Fresh label)
    (taken : c.step zone label = some next) :
    next.Orderly := by
  cases label with
  | launch =>
      simp only [step, Option.ite_none_right_eq_some, Option.some.injEq] at taken
      obtain ⟨ended, rfl⟩ := taken
      have idle : c.run.openStart = none := by
        rw [Run.openStart, orderly.idle (by rw [ended]; decide)]
        rfl
      refine ⟨?_, fun _ => rfl⟩
      have tidy := orderly.tidy
      rw [idle] at tidy
      rw [closed, closed, show Run.start.archive = [] from rfl, List.append_nil]
      exact tidy
  | run label readings =>
      simp only [step, Option.ite_none_right_eq_some, Option.map_eq_some_iff] at taken
      obtain ⟨reads, after, taken, rfl⟩ := taken
      obtain ⟨tidy, idle⟩ := orderly.run reads fresh taken
      exact ⟨tidy, idle⟩

end CameraRun

open CameraRun

/-- In every run of the recorders of a camera in which a file is begun only in a
second in which no file of the directory was begun, no call meets data of another
recording. -/
theorem recordings_kept
    (zone : Zone)
    (clock : Int)
    (labels : List CameraRunStep)
    {finish : CameraRun}
    (reached : run (step zone) (CameraRun.start clock) labels = some finish)
    (fresh : Meets (step zone) Fresh (CameraRun.start clock) labels) :
    finish.Kept :=
  (fresh.invariant orderly_step (orderly_start clock) reached).tidy.clean

/-- Local time is that of the clock. -/
def utc : Zone :=
  fun _ => 0

/-- Milliseconds after 15:04:05 on 31 July 2026. -/
def afternoon (milliseconds : Int) : Int :=
  1785510245000000000 + milliseconds * 1000000

/-- A keyframe is recorded at the given time. -/
def recorded (milliseconds : Nat) : CameraRunStep :=
  .run
    (.frame { keyframeAt 0 with timestamp := milliseconds * 1000000 }
      { smoothly with
        recordEndTime := endText (afternoon milliseconds)
        recordStartTime := startText (afternoon milliseconds) })
    ⟨afternoon milliseconds, afternoon milliseconds, afternoon milliseconds⟩

/-- The recorder is stopped at the given time. -/
def stopped (milliseconds : Int) : CameraRunStep :=
  .run (.exit ⟨.ok, endText (afternoon milliseconds), none⟩)
    ⟨afternoon milliseconds, afternoon milliseconds, afternoon milliseconds⟩

/-- The recorder finds codec parameters at the given time. -/
def found (milliseconds : Int) : CameraRunStep :=
  .run (.poll true) ⟨afternoon milliseconds, afternoon milliseconds, afternoon milliseconds⟩

/-- Two recordings with three keyframes in all, a second apart. -/
def secondApart : List CameraRunStep :=
  [found 0, recorded 0, recorded 100, stopped 200, .launch, found 1000, recorded 1000, stopped 1200]

theorem recordings_kept_apart :
    ∃ finish,
      run (step utc) (CameraRun.start (afternoon 0)) secondApart = some finish ∧ finish.Kept := by
  have goes : (run (step utc) (CameraRun.start (afternoon 0)) secondApart).isSome = true := by
    decide +kernel
  obtain ⟨finish, reached⟩ := Option.isSome_iff_exists.mp goes
  refine ⟨finish, reached, ?_⟩
  refine recordings_kept utc (afternoon 0) secondApart reached ?_
  decide +kernel

/-- Two recordings that begin and end within one second. -/
def sameSecond : List CameraRunStep :=
  [found 0, recorded 0, recorded 100, stopped 200, .launch, found 300, recorded 300, recorded 400,
    stopped 500]

/-- The second recording replaces the first. -/
theorem recording_overwritten :
    ∃ finish,
      run (step utc) (CameraRun.start (afternoon 0)) sameSecond = some finish ∧
      finish.closed.map (·.fate) =
        [.ready "2026-07-31_15-04-05_to_15-04-05.mp4",
          .ready "2026-07-31_15-04-05_to_15-04-05.mp4"] ∧
      finish.disk.folder.entries = [("2026-07-31_15-04-05_to_15-04-05.mp4", 1)] ∧
      finish.disk.clashes = ["2026-07-31_15-04-05_to_15-04-05.mp4"] ∧
      ¬ finish.Kept := by
  have goes : (run (step utc) (CameraRun.start (afternoon 0)) sameSecond).any (fun finish =>
      finish.closed.map (·.fate) =
        [.ready "2026-07-31_15-04-05_to_15-04-05.mp4",
          .ready "2026-07-31_15-04-05_to_15-04-05.mp4"] ∧
      finish.disk.folder.entries = [("2026-07-31_15-04-05_to_15-04-05.mp4", 1)] ∧
      finish.disk.clashes = ["2026-07-31_15-04-05_to_15-04-05.mp4"]) = true := by
    decide +kernel
  obtain ⟨finish, reached, holds⟩ := (Option.any_eq_true _ _).mp goes
  obtain ⟨fates, entries, clashes⟩ := of_decide_eq_true holds
  refine ⟨finish, reached, fates, entries, clashes, ?_⟩
  intro kept
  rw [Kept, clashes] at kept
  cases kept

end Recorder
end RuseonCore
