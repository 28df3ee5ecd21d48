import RuseonCore.Archive.Index
import RuseonCore.Foundation.Folder
import RuseonCore.Recorder.FileNames

/-!
# Recovery after a crash

Model of `internal/recorder/recovery.go`.  `RecoverCrashedFiles` looks through the
directories of all streams for files that were being written when the server went
down.  A file with a sound box structure gets the name of a complete recording,
with its modification time as its end, and any other file is set aside.

A directory is a folder of files and directories; `ReadDir` lists it as it is when
a stream is reached, and does not fail.  `Rename` replaces a file that has the new
name, and fails only if a directory has it.  Modification times are local times
with a fixed offset.  The events and the log lines are left out.

The names of the files that are renamed never meet, so a stream is recovered by a
list of moves between different names (`recoverStream_eq`).  A file that already
has one of the new names is replaced.
-/

namespace RuseonCore
namespace Recorder

open Archive

/-! ## Validation -/

/-- Type of the box that describes the tracks. -/
def moov : Bytes := [109, 111, 111, 118]

/-- Why a file is not accepted. -/
inductive Flaw
  | tooSmall (fileSize : Nat)
  | truncatedHeader (offset fileSize : Nat)
  | unreadableHeader (offset : Nat)
  | invalidSize (size : Nat) (boxType : Bytes) (offset : Nat)
  | exceedsFile (boxType : Bytes) (offset size fileSize : Nat)
  | missingMoov
  | missingFragments
  deriving DecidableEq

/-- Which types of boxes were found. -/
structure BoxTypes where
  hasMoov : Bool
  hasMoof : Bool
  hasMdat : Bool

/-- Take note of a box. -/
def BoxTypes.note (found : BoxTypes) (boxType : Bytes) : BoxTypes :=
  if boxType = moov then { found with hasMoov := true }
  else if boxType = moof then { found with hasMoof := true }
  else if boxType = mdat then { found with hasMdat := true }
  else found

/-- Go from box to box up to the end of the file. -/
def scanBoxes (contents : Bytes) (offset : Nat) (found : BoxTypes) : Except Flaw BoxTypes :=
  if offset < contents.length then
    if contents.length < offset + 8 then .error (.truncatedHeader offset contents.length)
    else
      match readBoxHeader contents offset with
      | none => .error (.unreadableHeader offset)
      | some header =>
          if header.size < 8 then .error (.invalidSize header.size header.boxType offset)
          else if contents.length < offset + header.size then
            .error (.exceedsFile header.boxType offset header.size contents.length)
          else scanBoxes contents (offset + header.size) (found.note header.boxType)
  else .ok found
termination_by contents.length - offset

def validateFMP4File (contents : Bytes) : Except Flaw Unit := do
  if contents.length < 32 then throw (.tooSmall contents.length)
  let found ← scanBoxes contents 0 ⟨false, false, false⟩
  if !found.hasMoov then throw .missingMoov
  if !found.hasMoof || !found.hasMdat then throw .missingFragments

/-- `ValidateFMP4File` accepts the contents. -/
def accepted (contents : Bytes) : Bool :=
  (validateFMP4File contents).isOk

/-! ## Recovery -/

/-- What a name in the directory of a stream stands for. -/
inductive Node
  | file (contents : Bytes) (modTime : Int)
  | directory
  deriving DecidableEq

def Node.isFile : Node → Bool
  | .file _ _ => true
  | .directory => false

def Node.contents? : Node → Option Bytes
  | .file contents _ => some contents
  | .directory => none

/-- The directory of a stream. -/
abbrev StreamDir := Folder String Node

/-- `Rename`, whose error is ignored. -/
def rename (dir : StreamDir) (old new : String) : StreamDir :=
  dir.tryMove Node.isFile old new

/-- `ValidateFMP4File` of the file that has the name now. -/
def valid (dir : StreamDir) (name : String) : Bool :=
  match dir.get name with
  | some (.file contents _) => accepted contents
  | _ => false

/-- Recover an entry that was listed. -/
def recoverFile (dir : StreamDir) (entry : String × Node) : StreamDir :=
  match entry with
  | (_, .directory) => dir
  | (name, .file _ modTime) =>
      if isOngoing name then
        if valid dir name then
          match split "_ongoing.mp4".toList name.toList with
          | [startTimeStr, _] =>
              rename dir name (finalName (String.ofList startTimeStr) (endText modTime))
          | _ => dir
        else rename dir name (corruptedName name)
      else dir

/-- Recover the files of a stream. -/
def recoverStream (dir : StreamDir) : StreamDir :=
  dir.entries.foldl recoverFile dir

/-- What a name in the directory of the recordings stands for. -/
inductive RecordEntry
  | file (contents : Bytes)
  | stream (dir : StreamDir)

/-- The directory of the recordings. -/
abbrev RecordDir := Folder String RecordEntry

def RecordEntry.recover : RecordEntry → RecordEntry
  | .file contents => .file contents
  | .stream dir => .stream (recoverStream dir)

def recoverCrashedFiles (root : RecordDir) : RecordDir :=
  root.map RecordEntry.recover

/-! ## What recovery is for -/

/-- Contents of the files of a stream. -/
def streamContents (dir : StreamDir) : Multiset Bytes :=
  dir.items.filterMap Node.contents?

def RecordEntry.contents : RecordEntry → Multiset Bytes
  | .file contents => {contents}
  | .stream dir => streamContents dir

/-- Contents of all files. -/
def allContents (root : RecordDir) : Multiset Bytes :=
  root.items.bind RecordEntry.contents

/-- What a name in the directory of a stream stands for. -/
def node (root : RecordDir) (stream name : String) : Option Node :=
  match root.get stream with
  | some (.stream dir) => dir.get name
  | _ => none

/-- The file has left its old name for the new one. -/
def Renamed (root : RecordDir) (stream old new : String) (file : Node) : Prop :=
  node root stream old = none ∧ node root stream new = some file

/-- Recovery loses no recording: all contents are still there, files that were not
being written keep their names, the others get the name that they should, and
there is nothing left to do. -/
structure LosesNothing (root : RecordDir) : Prop where
  contents : allContents (recoverCrashedFiles root) = allContents root
  beside : ∀ name contents, root.get name = some (.file contents) →
    (recoverCrashedFiles root).get name = some (.file contents)
  kept : ∀ stream name contents modTime, isOngoing name = false →
    node root stream name = some (.file contents modTime) →
    node (recoverCrashedFiles root) stream name = some (.file contents modTime)
  recovered : ∀ stream start contents modTime,
    node root stream (ongoingName start) = some (.file contents modTime) →
    accepted contents = true →
    Renamed (recoverCrashedFiles root) stream (ongoingName start)
      (finalName start (endText modTime)) (.file contents modTime)
  quarantined : ∀ stream start contents modTime,
    node root stream (ongoingName start) = some (.file contents modTime) →
    accepted contents = false →
    Renamed (recoverCrashedFiles root) stream (ongoingName start)
      (start ++ "_ongoing.corrupted") (.file contents modTime)
  settled : recoverCrashedFiles (recoverCrashedFiles root) = recoverCrashedFiles root

/-- The start shows no `_ongoing.mp4` of its own. -/
def PlainStart (start : String) : Prop :=
  cut "_ongoing.mp4".toList start.toList = none

instance (start : String) : Decidable (PlainStart start) :=
  inferInstanceAs (Decidable (_ = _))

/-- Nothing has the name that a file should get, and an accepted file shows its
start. -/
def Unobstructed (root : RecordDir) : Prop :=
  ∀ stream start contents modTime,
    node root stream (ongoingName start) = some (.file contents modTime) →
    if accepted contents then
      PlainStart start ∧ node root stream (finalName start (endText modTime)) = none
    else node root stream (start ++ "_ongoing.corrupted") = none

/-! ## The start in a name -/

/-- The start is what stands before the only `_ongoing.mp4`. -/
theorem split_of_plain
    {start : String}
    (plain : PlainStart start) :
    split "_ongoing.mp4".toList (ongoingName start).toList = [start.toList, []] := by
  have found : cut "_ongoing.mp4".toList (ongoingName start).toList = some (start.toList, []) := by
    rw [ongoingName, String.toList_append]
    exact cut_append_self (by decide) plain
  have shorter : 0 < (ongoingName start).toList.length := by
    simp [ongoingName]
  rw [split, found]
  simp only [List.length_nil, if_pos shorter]
  rw [split]
  rfl

/-- A start with an `_ongoing.mp4` of its own makes more than two parts. -/
theorem three_le_of_not_plain
    {start : String}
    (obscured : ¬ PlainStart start) :
    3 ≤ (split "_ongoing.mp4".toList (ongoingName start).toList).length := by
  obtain ⟨⟨before, after⟩, found⟩ := Option.ne_none_iff_exists'.mp obscured
  have first := cut_append_of_cut found "_ongoing.mp4".toList
  have second : ∃ parts,
      cut "_ongoing.mp4".toList (after ++ "_ongoing.mp4".toList) = some parts := by
    cases again : cut "_ongoing.mp4".toList after with
    | none => exact ⟨_, cut_append_self (by decide) again⟩
    | some parts => exact ⟨_, cut_append_of_cut again _⟩
  obtain ⟨parts, again⟩ := second
  have others := two_le_length_split (by decide) again
  rw [ongoingName, String.toList_append, split, first]
  simp only [if_pos (length_lt_of_cut (by decide) first), List.length_cons]
  omega

/-! ## The moves of a stream -/

/-- The name that an entry should get. -/
def newName : String × Node → Option String
  | (_, .directory) => none
  | (name, .file contents modTime) =>
      if isOngoing name then
        if accepted contents then
          match split "_ongoing.mp4".toList name.toList with
          | [startTimeStr, _] =>
              some (finalName (String.ofList startTimeStr) (endText modTime))
          | _ => none
        else some (corruptedName name)
      else none

/-- The moves that recover the files of a stream. -/
def moves (dir : StreamDir) : List (String × String) :=
  dir.entries.filterMap fun entry => (newName entry).map (entry.1, ·)

section NewName

variable {start name new : String} {contents : Bytes} {modTime : Int}

/-- An accepted file should get the name of a complete recording. -/
theorem newName_of_accepted
    (accepts : accepted contents = true)
    (plain : PlainStart start) :
    newName (ongoingName start, .file contents modTime) =
      some (finalName start (endText modTime)) := by
  simp only [newName, isOngoing_ongoingName, accepts, if_true, split_of_plain plain,
    String.ofList_toList]

/-- An accepted file whose start cannot be read off keeps its name. -/
theorem newName_of_obscured
    (accepts : accepted contents = true)
    (obscured : ¬ PlainStart start) :
    newName (ongoingName start, .file contents modTime) = none := by
  have parts := three_le_of_not_plain obscured
  simp only [newName, isOngoing_ongoingName, accepts, if_true]
  split
  · rename_i two
    rw [two] at parts
    simp at parts
  · rfl

/-- A rejected file should be set aside. -/
theorem newName_of_rejected (rejects : accepted contents = false) :
    newName (ongoingName start, .file contents modTime) =
      some (corruptedName (ongoingName start)) := by
  simp [newName, isOngoing_ongoingName, rejects]

/-- Only files that were being written get a new name. -/
theorem eq_of_newName
    {entry : String × Node}
    (planned : newName entry = some new) :
    ∃ start contents modTime, entry = (ongoingName start, .file contents modTime) ∧
      (new = finalName start (endText modTime) ∨ new = corruptedName (ongoingName start)) := by
  obtain ⟨name, node⟩ := entry
  cases node with
  | directory => cases planned
  | file contents modTime =>
      have ongoing : isOngoing name = true := by
        by_contra other
        simp [newName, other] at planned
      obtain ⟨start, rfl⟩ := isOngoing_iff.mp ongoing
      refine ⟨start, contents, modTime, rfl, ?_⟩
      cases accepts : accepted contents with
      | false =>
          rw [newName_of_rejected accepts] at planned
          exact Or.inr (Option.some.inj planned).symm
      | true =>
          by_cases plain : PlainStart start
          · rw [newName_of_accepted accepts plain] at planned
            exact Or.inl (Option.some.inj planned).symm
          · rw [newName_of_obscured accepts plain] at planned
            cases planned

theorem isOngoing_of_newName
    {entry : String × Node}
    (planned : newName entry = some new) :
    isOngoing entry.1 = true := by
  obtain ⟨start, contents, modTime, rfl, -⟩ := eq_of_newName planned
  exact isOngoing_ongoingName start

/-- A new name is not that of a file that is being written. -/
theorem not_ongoing_of_newName
    {entry : String × Node}
    (planned : newName entry = some new) :
    isOngoing new = false := by
  obtain ⟨start, contents, modTime, -, rfl | rfl⟩ := eq_of_newName planned
  · exact isOngoing_finalName start modTime
  · exact isOngoing_corruptedName start

/-- Different files get different names. -/
theorem newName_inj
    {entry other : String × Node}
    (planned : newName entry = some new)
    (again : newName other = some new) :
    entry.1 = other.1 := by
  obtain ⟨start, contents, modTime, rfl, first⟩ := eq_of_newName planned
  obtain ⟨start', contents', modTime', rfl, second⟩ := eq_of_newName again
  apply congrArg ongoingName
  rcases first with rfl | rfl
  · rcases second with same | same
    · exact (finalName_inj same).1
    · exact absurd same (finalName_ne_corruptedName _ _ _)
  · rcases second with same | same
    · exact absurd same.symm (finalName_ne_corruptedName _ _ _)
    · exact corruptedName_inj same

end NewName

section Moves

variable {dir : StreamDir} {old new : String}

theorem mem_moves_iff :
    (old, new) ∈ moves dir ↔ ∃ node, dir.get old = some node ∧ newName (old, node) = some new := by
  simp only [moves, List.mem_filterMap, Option.map_eq_some_iff, Prod.mk.injEq,
    Folder.get_eq_some_iff]
  constructor
  · rintro ⟨⟨name, node⟩, present, _, planned, rfl, rfl⟩
    exact ⟨node, present, planned⟩
  · rintro ⟨node, present, planned⟩
    exact ⟨(old, node), present, new, planned, rfl, rfl⟩

/-- The old names and the new ones are all different. -/
theorem separate_moves (dir : StreamDir) : Folder.Separate (moves dir) := by
  have distinct : dir.entries.Pairwise fun entry other => entry.1 ≠ other.1 :=
    List.pairwise_map.mp dir.distinct
  rw [Folder.Separate, List.nodup_append]
  refine ⟨?_, ?_, ?_⟩
  · rw [List.Nodup, List.pairwise_map, moves, List.pairwise_filterMap]
    apply distinct.imp
    intro entry other different move planned move' planned'
    obtain ⟨new, -, rfl⟩ := Option.map_eq_some_iff.mp planned
    obtain ⟨new', -, rfl⟩ := Option.map_eq_some_iff.mp planned'
    exact different
  · rw [List.Nodup, List.pairwise_map, moves, List.pairwise_filterMap]
    apply distinct.imp
    intro entry other different move planned move' planned' same
    obtain ⟨new, named, rfl⟩ := Option.map_eq_some_iff.mp planned
    obtain ⟨new', named', rfl⟩ := Option.map_eq_some_iff.mp planned'
    exact different (newName_inj named (named'.trans (congrArg some same.symm)))
  · intro old source new target same
    obtain ⟨⟨_, _⟩, first, rfl⟩ := List.mem_map.mp source
    obtain ⟨⟨_, _⟩, second, rfl⟩ := List.mem_map.mp target
    obtain ⟨node, -, planned⟩ := mem_moves_iff.mp first
    obtain ⟨node', -, planned'⟩ := mem_moves_iff.mp second
    have ongoing := isOngoing_of_newName planned
    have finished := not_ongoing_of_newName planned'
    dsimp only at same
    rw [same, finished] at ongoing
    cases ongoing

/-- Recovering an entry that is as it was listed. -/
theorem recoverFile_eq
    {entry : String × Node}
    (present : isOngoing entry.1 = true → dir.get entry.1 = some entry.2) :
    recoverFile dir entry =
      dir.moveAll Node.isFile ((newName entry).map (entry.1, ·)).toList := by
  obtain ⟨name, node⟩ := entry
  cases node with
  | directory => rfl
  | file contents modTime =>
      simp only [recoverFile, newName]
      split
      · rename_i ongoing
        have same : valid dir name = accepted contents := by
          rw [valid, present ongoing]
        rw [same]
        split
        · split <;> rfl
        · rfl
      · rfl

/-- Recovering listed entries in turn. -/
theorem foldl_recoverFile
    {listed : List (String × Node)}
    (distinct : (listed.map Prod.fst).Nodup)
    (present : ∀ entry ∈ listed, isOngoing entry.1 = true → dir.get entry.1 = some entry.2) :
    listed.foldl recoverFile dir =
      dir.moveAll Node.isFile (listed.filterMap fun entry => (newName entry).map (entry.1, ·)) := by
  induction listed generalizing dir with
  | nil => rfl
  | cons entry rest inductionHypothesis =>
      obtain ⟨fresh, restDistinct⟩ := List.nodup_cons.mp distinct
      have first := recoverFile_eq (present entry List.mem_cons_self)
      rw [List.foldl_cons, inductionHypothesis restDistinct, first]
      · rw [← Folder.moveAll_append]
        cases planned : newName entry with
        | none => simp [planned]
        | some new => simp [planned]
      · intro later member ongoing
        -- neither the old name nor the new one of the first entry is that of a later one
        have unchanged : (recoverFile dir entry).get later.1 = dir.get later.1 := by
          rw [first]
          cases planned : newName entry with
          | none => rfl
          | some new =>
              have notOld : later.1 ≠ entry.1 := by
                intro same
                exact fresh (List.mem_map.mpr ⟨later, member, same⟩)
              have notNew : later.1 ≠ new := by
                rintro rfl
                rw [not_ongoing_of_newName planned] at ongoing
                cases ongoing
              exact Folder.get_tryMove_of_ne notOld notNew
        rw [unchanged]
        exact present later (List.mem_cons_of_mem _ member) ongoing

/-- The files of a stream are recovered by moves between different names. -/
theorem recoverStream_eq (dir : StreamDir) :
    recoverStream dir = dir.moveAll Node.isFile (moves dir) :=
  foldl_recoverFile dir.distinct fun _ member _ => Folder.get_eq_some_iff.mpr member

/-- Names that no move mentions. -/
theorem get_recoverStream_of_unplanned
    {name : String}
    (unmoved : ∀ new, (name, new) ∉ moves dir)
    (untaken : ∀ old, (old, name) ∉ moves dir) :
    (recoverStream dir).get name = dir.get name := by
  rw [recoverStream_eq]
  apply Folder.get_moveAll_other
  · intro source
    obtain ⟨⟨_, new⟩, planned, rfl⟩ := List.mem_map.mp source
    exact unmoved new planned
  · intro target
    obtain ⟨⟨old, _⟩, planned, rfl⟩ := List.mem_map.mp target
    exact untaken old planned

/-- No new name is that of a file that is being written. -/
theorem not_mem_moves_of_ongoing
    (ongoing : isOngoing new = true) :
    (old, new) ∉ moves dir := by
  intro planned
  obtain ⟨node, -, named⟩ := mem_moves_iff.mp planned
  rw [not_ongoing_of_newName named] at ongoing
  cases ongoing

/-- A file that is moved to a free name is found there. -/
theorem get_recoverStream_of_free
    {node : Node}
    (planned : (old, new) ∈ moves dir)
    (present : dir.get old = some node)
    (free : dir.get new = none) :
    (recoverStream dir).get old = none ∧ (recoverStream dir).get new = some node := by
  rw [recoverStream_eq, Folder.get_moveAll_source (separate_moves dir) planned,
    Folder.get_moveAll_target (separate_moves dir) planned present, free]
  exact ⟨rfl, rfl⟩

/-- A file that keeps its name although it should get another one is kept from it
by a directory, which stays. -/
theorem blocked_of_get_recoverStream
    {node : Node}
    (planned : (old, new) ∈ moves dir)
    (stays : (recoverStream dir).get old = some node) :
    dir.get old = some node ∧ ((recoverStream dir).get new).all Node.isFile = false := by
  rw [recoverStream_eq, Folder.get_moveAll_source (separate_moves dir) planned] at stays
  cases blocked : (dir.get new).all Node.isFile with
  | true =>
      rw [blocked] at stays
      cases stays
  | false =>
      rw [blocked] at stays
      refine ⟨stays, ?_⟩
      rw [recoverStream_eq, Folder.get_moveAll_target (separate_moves dir) planned stays, blocked]
      exact blocked

/-- There is nothing left to do after a stream was recovered. -/
theorem recoverStream_recoverStream (dir : StreamDir) :
    recoverStream (recoverStream dir) = recoverStream dir := by
  rw [recoverStream_eq (recoverStream dir)]
  apply Folder.moveAll_of_blocked
  rintro ⟨old, new⟩ planned
  obtain ⟨node, present, named⟩ := mem_moves_iff.mp planned
  have ongoing : isOngoing old = true := isOngoing_of_newName named
  refine ⟨?_, ?_⟩
  · intro same
    rw [show old = new from same] at ongoing
    exact not_mem_moves_of_ongoing ongoing planned
  · by_cases moved : ∃ target, (old, target) ∈ moves dir
    · obtain ⟨target, before⟩ := moved
      obtain ⟨was, blocked⟩ := blocked_of_get_recoverStream before present
      obtain ⟨same, found, again⟩ := mem_moves_iff.mp before
      rw [was] at found
      cases found
      rw [named] at again
      cases again
      exact blocked
    · have same : (recoverStream dir).get old = dir.get old :=
        get_recoverStream_of_unplanned (fun target before => moved ⟨target, before⟩)
          (fun _ => not_mem_moves_of_ongoing ongoing)
      rw [same] at present
      exact absurd ⟨new, mem_moves_iff.mpr ⟨node, present, named⟩⟩ moved

/-- Moves to free names keep all contents. -/
theorem streamContents_recoverStream
    (free : ∀ old new, (old, new) ∈ moves dir → dir.get new = none) :
    streamContents (recoverStream dir) = streamContents dir := by
  rw [streamContents, recoverStream_eq,
    Folder.items_moveAll_of_free (separate_moves dir) fun step planned =>
      free step.1 step.2 planned,
    streamContents]

/-- The contents are those of the files. -/
theorem card_streamContents (dir : StreamDir) :
    (streamContents dir).card = dir.items.countP (Node.isFile ·) := by
  have sameTest : (fun node : Node => node.contents?.isSome) = Node.isFile := by
    funext node
    cases node <;> rfl
  rw [streamContents, Folder.items, Multiset.filterMap_coe, Multiset.coe_card,
    List.length_filterMap_eq_countP, sameTest, Multiset.coe_countP]
  simp

/-- Recovery makes up no contents. -/
theorem card_streamContents_le (dir : StreamDir) :
    (streamContents (recoverStream dir)).card ≤ (streamContents dir).card := by
  rw [card_streamContents, card_streamContents, recoverStream_eq]
  exact Folder.countP_moveAll_le

/-- If nothing is lost and the file has left its old name, the new name was free. -/
theorem free_of_recovered
    (planned : (old, new) ∈ moves dir)
    (left : (recoverStream dir).get old = none)
    (kept : (streamContents (recoverStream dir)).card = (streamContents dir).card) :
    dir.get new = none := by
  obtain ⟨node, present, -⟩ := mem_moves_iff.mp planned
  cases taken : dir.get new with
  | none => rfl
  | some other =>
      exfalso
      cases other with
      | file contents modTime =>
          rw [card_streamContents, card_streamContents, recoverStream_eq] at kept
          exact (Folder.countP_moveAll_lt (separate_moves dir) planned present taken rfl).ne kept
      | directory =>
          rw [recoverStream_eq, Folder.get_moveAll_source (separate_moves dir) planned, taken,
            present] at left
          cases left

end Moves

/-! ## The directory of the recordings -/

section Root

variable {root : RecordDir} {stream : String} {dir : StreamDir}

theorem node_eq
    (found : root.get stream = some (.stream dir))
    (name : String) :
    node root stream name = dir.get name := by
  rw [node, found]

theorem node_recoverCrashedFiles
    (found : root.get stream = some (.stream dir))
    (name : String) :
    node (recoverCrashedFiles root) stream name = (recoverStream dir).get name := by
  rw [node, recoverCrashedFiles, Folder.get_map, found]
  rfl

/-- A node is found in the directory of its stream. -/
theorem exists_dir_of_node
    {name : String}
    {file : Node}
    (found : node root stream name = some file) :
    ∃ dir, root.get stream = some (.stream dir) ∧ dir.get name = some file := by
  rw [node] at found
  split at found
  · rename_i dir here
    exact ⟨dir, here, found⟩
  · cases found

theorem recoverCrashedFiles_recoverCrashedFiles (root : RecordDir) :
    recoverCrashedFiles (recoverCrashedFiles root) = recoverCrashedFiles root := by
  have idempotent : RecordEntry.recover ∘ RecordEntry.recover = RecordEntry.recover := by
    funext entry
    cases entry with
    | file contents => rfl
    | stream dir => exact congrArg RecordEntry.stream (recoverStream_recoverStream dir)
  rw [recoverCrashedFiles, recoverCrashedFiles, Folder.map_map, idempotent]

theorem allContents_recoverCrashedFiles (root : RecordDir) :
    allContents (recoverCrashedFiles root) =
      root.items.bind fun entry => entry.recover.contents := by
  rw [allContents, recoverCrashedFiles, Folder.items_map, Multiset.bind_map]

theorem card_contents_recover_le (entry : RecordEntry) :
    entry.recover.contents.card ≤ entry.contents.card := by
  cases entry with
  | file contents => exact le_rfl
  | stream dir => exact card_streamContents_le dir

/-- If all contents are still there, each stream has as many as before. -/
theorem card_streamContents_of_kept
    (kept : allContents (recoverCrashedFiles root) = allContents root)
    (found : root.get stream = some (.stream dir)) :
    (streamContents (recoverStream dir)).card = (streamContents dir).card := by
  by_contra fewer
  have less : (RecordEntry.stream dir).recover.contents.card <
      (RecordEntry.stream dir).contents.card :=
    lt_of_le_of_ne (card_streamContents_le dir) fewer
  have sizes := congrArg Multiset.card kept
  rw [allContents_recoverCrashedFiles, allContents, Multiset.card_bind, Multiset.card_bind] at sizes
  refine absurd sizes (ne_of_lt ?_)
  apply Multiset.sum_lt_sum
  · intro entry _
    exact card_contents_recover_le entry
  · exact ⟨.stream dir, Folder.mem_items_iff.mpr ⟨stream, found⟩, less⟩

/-- In a tree without obstructions, every move of a stream leads to a free name. -/
theorem free_of_unobstructed
    (unobstructed : Unobstructed root)
    (found : root.get stream = some (.stream dir))
    {old new : String}
    (planned : (old, new) ∈ moves dir) :
    dir.get new = none := by
  obtain ⟨file, present, named⟩ := mem_moves_iff.mp planned
  obtain ⟨start, contents, modTime, same, -⟩ := eq_of_newName named
  cases same
  have clear := unobstructed stream start contents modTime ((node_eq found _).trans present)
  cases accepts : accepted contents with
  | true =>
      rw [accepts, if_pos rfl, node_eq found] at clear
      rw [newName_of_accepted accepts clear.1] at named
      cases named
      exact clear.2
  | false =>
      simp only [accepts, Bool.false_eq_true, if_false, node_eq found] at clear
      rw [newName_of_rejected accepts, corruptedName_ongoingName] at named
      cases named
      exact clear

/-- A file with a free new name is moved there. -/
theorem renamed_of_free
    (found : root.get stream = some (.stream dir))
    {old new : String}
    {file : Node}
    (present : dir.get old = some file)
    (named : newName (old, file) = some new)
    (free : dir.get new = none) :
    Renamed (recoverCrashedFiles root) stream old new file := by
  rw [Renamed, node_recoverCrashedFiles found, node_recoverCrashedFiles found]
  exact get_recoverStream_of_free (mem_moves_iff.mpr ⟨file, present, named⟩) present free

/-- Without obstructions nothing is lost. -/
theorem losesNothing_of_unobstructed (unobstructed : Unobstructed root) :
    LosesNothing root where
  contents := by
    rw [allContents_recoverCrashedFiles, allContents]
    apply Multiset.bind_congr
    intro entry member
    obtain ⟨stream, found⟩ := Folder.mem_items_iff.mp member
    cases entry with
    | file contents => rfl
    | stream dir =>
        exact streamContents_recoverStream fun old new planned =>
          free_of_unobstructed unobstructed found planned
  beside := by
    intro name contents found
    rw [recoverCrashedFiles, Folder.get_map, found]
    rfl
  kept := by
    intro stream name contents modTime finished present
    obtain ⟨dir, found, here⟩ := exists_dir_of_node present
    rw [node_recoverCrashedFiles found, get_recoverStream_of_unplanned, here]
    · intro new planned
      obtain ⟨file, -, named⟩ := mem_moves_iff.mp planned
      have ongoing : isOngoing name = true := isOngoing_of_newName named
      rw [finished] at ongoing
      cases ongoing
    · intro old planned
      have free := free_of_unobstructed unobstructed found planned
      rw [here] at free
      cases free
  recovered := by
    intro stream start contents modTime present accepts
    obtain ⟨dir, found, here⟩ := exists_dir_of_node present
    have clear := unobstructed stream start contents modTime present
    rw [accepts, if_pos rfl, node_eq found] at clear
    exact renamed_of_free found here (newName_of_accepted accepts clear.1) clear.2
  quarantined := by
    intro stream start contents modTime present rejects
    obtain ⟨dir, found, here⟩ := exists_dir_of_node present
    have clear := unobstructed stream start contents modTime present
    simp only [rejects, Bool.false_eq_true, if_false, node_eq found] at clear
    apply renamed_of_free found here _ clear
    rw [newName_of_rejected rejects, corruptedName_ongoingName]
  settled := recoverCrashedFiles_recoverCrashedFiles root

/-- If nothing is lost, there were no obstructions. -/
theorem unobstructed_of_losesNothing (lossless : LosesNothing root) :
    Unobstructed root := by
  intro stream start contents modTime present
  obtain ⟨dir, found, here⟩ := exists_dir_of_node present
  have kept := card_streamContents_of_kept lossless.contents found
  cases accepts : accepted contents with
  | true =>
      have left := (lossless.recovered stream start contents modTime present accepts).1
      rw [node_recoverCrashedFiles found] at left
      have plain : PlainStart start := by
        by_contra obscured
        rw [get_recoverStream_of_unplanned, here] at left
        · cases left
        · intro new planned
          obtain ⟨file, same, named⟩ := mem_moves_iff.mp planned
          rw [here] at same
          cases same
          rw [newName_of_obscured accepts obscured] at named
          cases named
        · intro old
          exact not_mem_moves_of_ongoing (isOngoing_ongoingName start)
      have named : newName (ongoingName start, .file contents modTime) =
          some (finalName start (endText modTime)) :=
        newName_of_accepted accepts plain
      rw [if_pos rfl, node_eq found]
      exact ⟨plain, free_of_recovered (mem_moves_iff.mpr ⟨_, here, named⟩) left kept⟩
  | false =>
      have left := (lossless.quarantined stream start contents modTime present accepts).1
      rw [node_recoverCrashedFiles found] at left
      simp only [Bool.false_eq_true, if_false, node_eq found]
      refine free_of_recovered (mem_moves_iff.mpr ⟨_, here, ?_⟩) left kept
      rw [newName_of_rejected accepts, corruptedName_ongoingName]

end Root

/-- Recovery loses no recording exactly if nothing has a name that a file should
get, and accepted files show their start. -/
theorem recovery_loses_nothing_iff (root : RecordDir) :
    LosesNothing root ↔ Unobstructed root :=
  ⟨unobstructed_of_losesNothing, losesNothing_of_unobstructed⟩

/-- The boxes `moov`, `moof` and `mdat`. -/
def playable : Bytes :=
  [0, 0, 0, 8] ++ moov ++ [0, 0, 0, 8] ++ moof ++ [0, 0, 0, 16] ++ mdat ++ [1, 2, 3, 4, 5, 6, 7, 8]

/-- Six minutes past three in the afternoon. -/
def interrupted : Int :=
  (15 * 3600 + 6 * 60) * 1000000000

/-- A recording that was interrupted, beside a complete one with its start and
end. -/
def crashed : RecordDir where
  entries := [("lobby", .stream
    { entries :=
        [("2026-07-31_15-04-05_ongoing.mp4", .file playable interrupted),
          ("2026-07-31_15-04-05_to_15-06-00.mp4", .file [9, 9, 9] interrupted)]
      distinct := by decide })]
  distinct := by decide

/-- The recovered file replaces a complete recording. -/
theorem recording_replaced :
    accepted playable = true ∧
      allContents crashed = {playable, [9, 9, 9]} ∧
      allContents (recoverCrashedFiles crashed) = {playable} ∧
      node (recoverCrashedFiles crashed) "lobby" "2026-07-31_15-04-05_to_15-06-00.mp4" =
        some (.file playable interrupted) ∧
      ¬ LosesNothing crashed := by
  have before : allContents crashed = {playable, [9, 9, 9]} := by decide
  have after : allContents (recoverCrashedFiles crashed) = {playable} := by decide +kernel
  refine ⟨by decide +kernel, before, after, by decide +kernel, ?_⟩
  intro lossless
  have sizes := congrArg Multiset.card lossless.contents
  rw [before, after] at sizes
  cases sizes

end Recorder
end RuseonCore
