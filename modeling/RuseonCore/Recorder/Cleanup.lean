import RuseonCore.Archive.IndexLru
import RuseonCore.Foundation.LexicalPath
import RuseonCore.Storage.Records

/-!
# Removal of old recordings

Model of `cleanupOldFiles` in `internal/recorder/cleanup.go`.  The archive is as
`ReadDir` and `Info` show it, and every directory has the time at which it is
looked at.  Whether the store deletes a file is part of the archive as well.
`Time.AddDate` in the local time zone is a parameter.

`ListCameras` returns some of the cameras together with an error if it cannot read
them all.  The error is not looked at: for a camera that is not in the list, the
global retention is used.
-/

namespace RuseonCore
namespace Recorder

open Archive LexicalPath Storage

/-! ## The archive and the cameras -/

/-- A file of a camera: its last change, unless `Info` fails, and whether the store
deletes it. -/
structure ArchiveFile where
  name : String
  isDir : Bool
  modTime : Option Int
  deletable : Bool
  deriving DecidableEq

/-- An entry of the directory with the recordings: its files, unless `ReadDir`
fails, and the time at which it is looked at. -/
structure ArchiveEntry where
  name : String
  isDir : Bool
  files : Option (List ArchiveFile)
  now : Int
  deriving DecidableEq

/-- The stored cameras and an answer of `ListCameras`: all of them, or some of them
and an error. -/
structure CameraList where
  stored : List CameraConfig
  distinct : (stored.map CameraConfig.id).Nodup
  cams : List CameraConfig
  failed : Bool
  known : ∀ cam ∈ cams, cam ∈ stored
  complete : failed = false → ∀ cam ∈ stored, cam ∈ cams

/-- `filepath.Ext`: the text from the last dot of the last element on. -/
def ext (path : List Char) : List Char :=
  let suffix := path.reverse.takeWhile fun c => c ≠ '.' ∧ c ≠ '/'
  match path.reverse.drop suffix.length with
  | '.' :: _ => '.' :: suffix.reverse
  | _ => []

/-! ## The removal -/

/-- Days for which the recordings of a camera are kept. -/
def retentionOf (globalRetention : Int) (cam : CameraConfig) : Int :=
  if cam.retentionDays > 0 then cam.retentionDays else globalRetention

/-- Days by the IDs of the listed cameras. -/
def camRetention (globalRetention : Int) (cams : List CameraConfig) :
    String → Option Int :=
  cams.foldl (fun retention cam =>
    Function.update retention cam.id (some (retentionOf globalRetention cam))) fun _ => none

/-- A recording that was changed before the given time. -/
def ArchiveFile.isExpired (cutoff : Int) (file : ArchiveFile) : Bool :=
  !file.isDir && ext file.name.toList == ".mp4".toList &&
    file.modTime.any (· < cutoff)

/-- A file that is deleted from a directory. -/
structure Removal where
  entry : ArchiveEntry
  file : ArchiveFile
  deriving DecidableEq

def Removal.path (recordDir : String) (removal : Removal) : String :=
  let camDir := join [recordDir.toList, removal.entry.name.toList]
  String.ofList (join [camDir, removal.file.name.toList])

section

variable (addDate : Int → Int → Int)

/-- The files of a directory for which `Delete` is called. -/
def expiredFiles
    (globalRetention : Int)
    (camRetention : String → Option Int)
    (entry : ArchiveEntry) : List Removal :=
  if !entry.isDir then []
  else
    match entry.files with
    | none => []
    | some files =>
        let retention := (camRetention entry.name).getD globalRetention
        if retention ≤ 0 then []
        else
          let cutoff := addDate entry.now (-retention)
          (files.filter (ArchiveFile.isExpired cutoff)).map fun file => ⟨entry, file⟩

/-- Delete the expired recordings, and remove their indices from the cache.
Nothing happens if the directory cannot be read. -/
def cleanupOldFiles
    (recordDir : String)
    (globalRetention : Int)
    (cams : List CameraConfig)
    (entries : Option (List ArchiveEntry))
    (cache : IndexLRUCache) : List Removal × IndexLRUCache :=
  match entries with
  | none => ([], cache)
  | some entries =>
      let camRetention := camRetention globalRetention cams
      let deleted := (entries.flatMap (expiredFiles addDate globalRetention
        camRetention)).filter fun removal => removal.file.deletable
      (deleted, deleted.foldl (fun cache removal => cache.remove (removal.path recordDir))
        cache)

/-! ## What may be deleted -/

/-- Days for which the recordings in the directory of an ID are to be kept. -/
def effectiveRetention (globalRetention : Int) (stored : List CameraConfig) (id : String) :
    Int :=
  ((stored.find? fun cam => cam.id = id).map (retentionOf globalRetention)).getD
    globalRetention

/-- The file is a recording in the directory, and older than the given number of
days, which is positive. -/
structure Removal.Due (retention : Int) (removal : Removal) : Prop where
  inside : removal.entry.isDir = true ∧ ∃ files, removal.entry.files = some files ∧
    removal.file ∈ files
  video : removal.file.isDir = false ∧ ext removal.file.name.toList = ".mp4".toList
  positive : 0 < retention
  old : ∃ changed, removal.file.modTime = some changed ∧
    changed < addDate removal.entry.now (-retention)

/-- In the directory of a stored camera that was not listed and has a retention of
its own, a recording that is older than the global retention is also older than
that of the camera. -/
def CameraList.Spares
    (list : CameraList)
    (globalRetention : Int)
    (entries : List ArchiveEntry) : Prop :=
  ∀ entry ∈ entries, ∀ cam ∈ list.stored, cam.id = entry.name → cam ∉ list.cams →
    0 < cam.retentionDays → 0 < globalRetention → entry.isDir = true →
      ∀ files ∈ entry.files, ∀ file ∈ files, file.deletable = true →
        file.isExpired (addDate entry.now (-globalRetention)) = true →
          file.isExpired (addDate entry.now (-cam.retentionDays)) = true

end

/-! ## Retentions -/

theorem camRetention_concat
    (globalRetention : Int)
    (cams : List CameraConfig)
    (cam : CameraConfig) :
    camRetention globalRetention (cams ++ [cam]) =
      Function.update (camRetention globalRetention cams) cam.id
        (some (retentionOf globalRetention cam)) := by
  rw [camRetention, List.foldl_append]
  rfl

/-- The map holds the retention of a listed camera, if one has the ID. -/
theorem camRetention_spec
    (globalRetention : Int)
    (cams : List CameraConfig)
    (id : String) :
    (∃ cam ∈ cams, cam.id = id ∧
      camRetention globalRetention cams id = some (retentionOf globalRetention cam)) ∨
    ((∀ cam ∈ cams, cam.id ≠ id) ∧ camRetention globalRetention cams id = none) := by
  induction cams using List.reverseRecOn with
  | nil => exact .inr ⟨by simp, rfl⟩
  | append_singleton cams cam inductionHypothesis =>
      rw [camRetention_concat]
      by_cases same : cam.id = id
      · refine .inl ⟨cam, by simp, same, ?_⟩
        rw [← same, Function.update_self]
      · rw [Function.update_of_ne (Ne.symm same)]
        rcases inductionHypothesis with ⟨other, member, isID, found⟩ | ⟨absent, missing⟩
        · exact .inl ⟨other, List.mem_append_left _ member, isID, found⟩
        · refine .inr ⟨?_, missing⟩
          intro other member
          rcases List.mem_append.mp member with old | new
          · exact absent other old
          · rw [List.mem_singleton.mp new]
            exact same

namespace CameraList

variable (list : CameraList) {globalRetention : Int}

/-- Stored cameras have different IDs. -/
theorem eq_of_id
    {cam other : CameraConfig}
    (stored : cam ∈ list.stored)
    (otherStored : other ∈ list.stored)
    (same : cam.id = other.id) :
    cam = other :=
  List.inj_on_of_nodup_map list.distinct stored otherStored same

theorem effectiveRetention_of_stored
    {cam : CameraConfig}
    (stored : cam ∈ list.stored) :
    effectiveRetention globalRetention list.stored cam.id =
      retentionOf globalRetention cam := by
  rw [effectiveRetention]
  cases found : list.stored.find? (fun other => other.id = cam.id) with
  | none =>
      have differs := List.find?_eq_none.mp found cam stored
      simp at differs
  | some other =>
      have same : other.id = cam.id := by simpa using List.find?_some found
      rw [list.eq_of_id (List.mem_of_find?_eq_some found) stored same]
      rfl

theorem effectiveRetention_of_unknown
    {id : String}
    (unknown : ∀ cam ∈ list.stored, cam.id ≠ id) :
    effectiveRetention globalRetention list.stored id = globalRetention := by
  have missing : list.stored.find? (fun cam => cam.id = id) = none := by
    rw [List.find?_eq_none]
    intro cam stored
    simpa using unknown cam stored
  rw [effectiveRetention, missing]
  rfl

/-- The retention that is used for the directory of an ID. -/
def usedRetention (globalRetention : Int) (id : String) : Int :=
  (camRetention globalRetention list.cams id).getD globalRetention

/-- A stored camera is not listed: the global retention is used. -/
theorem usedRetention_of_missing
    {cam : CameraConfig}
    (stored : cam ∈ list.stored)
    (missing : cam ∉ list.cams) :
    list.usedRetention globalRetention cam.id = globalRetention := by
  rcases camRetention_spec globalRetention list.cams cam.id with
    ⟨other, listed, same, -⟩ | ⟨-, absent⟩
  · rw [list.eq_of_id (list.known other listed) stored same] at listed
    exact absurd listed missing
  · rw [usedRetention, absent]
    rfl

/-- The retention that is used is the right one, or the camera is not listed and has
its own. -/
theorem usedRetention_cases (globalRetention : Int) (id : String) :
    list.usedRetention globalRetention id =
        effectiveRetention globalRetention list.stored id ∨
      ∃ cam ∈ list.stored, cam.id = id ∧ cam ∉ list.cams ∧ 0 < cam.retentionDays ∧
        list.usedRetention globalRetention id = globalRetention ∧
        effectiveRetention globalRetention list.stored id = cam.retentionDays := by
  rcases camRetention_spec globalRetention list.cams id with
    ⟨cam, listed, rfl, found⟩ | ⟨unlisted, absent⟩
  · rw [usedRetention, found, list.effectiveRetention_of_stored (list.known cam listed)]
    exact .inl rfl
  · have used : list.usedRetention globalRetention id = globalRetention := by
      rw [usedRetention, absent]
      rfl
    by_cases known : ∃ cam ∈ list.stored, cam.id = id
    · obtain ⟨cam, stored, rfl⟩ := known
      have effective := @effectiveRetention_of_stored list globalRetention cam stored
      by_cases own : 0 < cam.retentionDays
      · refine .inr ⟨cam, stored, rfl, fun listed => unlisted cam listed rfl, own, used, ?_⟩
        rw [effective, retentionOf, if_pos own]
      · rw [used, effective, retentionOf, if_neg own]
        exact .inl rfl
    · rw [used, list.effectiveRetention_of_unknown fun cam stored same =>
        known ⟨cam, stored, same⟩]
      exact .inl rfl

end CameraList

/-! ## Deleted files -/

section

variable {addDate : Int → Int → Int}

theorem due_iff {retention : Int} {removal : Removal} :
    removal.Due addDate retention ↔
      removal.entry.isDir = true ∧ 0 < retention ∧
        ∃ files, removal.entry.files = some files ∧ removal.file ∈ files ∧
          removal.file.isExpired (addDate removal.entry.now (-retention)) = true := by
  have expired : removal.file.isExpired (addDate removal.entry.now (-retention)) = true ↔
      (removal.file.isDir = false ∧ ext removal.file.name.toList = ".mp4".toList) ∧
        ∃ changed, removal.file.modTime = some changed ∧
          changed < addDate removal.entry.now (-retention) := by
    simp [ArchiveFile.isExpired, Option.any_eq_true]
  constructor
  · rintro ⟨⟨isDir, files, found, member⟩, video, positive, old⟩
    exact ⟨isDir, positive, files, found, member, expired.mpr ⟨video, old⟩⟩
  · rintro ⟨isDir, positive, files, found, member, isExpired⟩
    obtain ⟨video, old⟩ := expired.mp isExpired
    exact ⟨⟨isDir, files, found, member⟩, video, positive, old⟩

theorem mem_expiredFiles_iff
    {globalRetention : Int}
    {retentions : String → Option Int}
    {entry : ArchiveEntry}
    {removal : Removal} :
    removal ∈ expiredFiles addDate globalRetention retentions entry ↔
      removal.entry = entry ∧
        removal.Due addDate ((retentions entry.name).getD globalRetention) := by
  rw [due_iff]
  unfold expiredFiles
  split
  · rename_i notDir
    constructor
    · intro member
      cases member
    · rintro ⟨rfl, isDir, -⟩
      simp [isDir] at notDir
  · rename_i isDir
    split
    · rename_i unreadable
      constructor
      · intro member
        cases member
      · rintro ⟨rfl, -, -, files, found, -⟩
        rw [unreadable] at found
        cases found
    · rename_i files found
      dsimp only
      split
      · rename_i unlimited
        constructor
        · intro member
          cases member
        · rintro ⟨-, -, positive, -⟩
          omega
      · rename_i limited
        rw [List.mem_map]
        constructor
        · rintro ⟨file, member, rfl⟩
          rw [List.mem_filter] at member
          exact ⟨rfl, by simpa using isDir, by omega, files, found, member⟩
        · rintro ⟨rfl, -, -, others, same, member⟩
          rw [found, Option.some.injEq] at same
          subst same
          exact ⟨removal.file, List.mem_filter.mpr member, rfl⟩

/-- The deleted files are those that are due by the retention that is used, as far
as the store deletes them. -/
theorem mem_cleanupOldFiles_iff
    {recordDir : String}
    {globalRetention : Int}
    {list : CameraList}
    {entries : List ArchiveEntry}
    {cache : IndexLRUCache}
    {removal : Removal} :
    removal ∈ (cleanupOldFiles addDate recordDir globalRetention list.cams (some entries)
        cache).1 ↔
      removal.entry ∈ entries ∧ removal.file.deletable = true ∧
        removal.Due addDate (list.usedRetention globalRetention removal.entry.name) := by
  simp only [cleanupOldFiles, List.mem_filter, List.mem_flatMap, mem_expiredFiles_iff]
  constructor
  · rintro ⟨⟨entry, member, rfl, due⟩, deletable⟩
    exact ⟨member, deletable, due⟩
  · rintro ⟨member, deletable, due⟩
    exact ⟨⟨removal.entry, member, rfl, due⟩, deletable⟩

end

/-- For every archive, every set of stored cameras and every answer of
`ListCameras`, only recordings are deleted that are older than the retention of
their camera exactly if, in the directories of the cameras that were not listed, no
recording is between the global retention and that of its camera. -/
theorem cleanup_keeps_retention_iff
    (addDate : Int → Int → Int)
    (recordDir : String)
    (globalRetention : Int)
    (list : CameraList)
    (entries : Option (List ArchiveEntry))
    (cache : IndexLRUCache) :
    (∀ removal ∈ (cleanupOldFiles addDate recordDir globalRetention list.cams entries
        cache).1,
      removal.Due addDate
        (effectiveRetention globalRetention list.stored removal.entry.name)) ↔
      list.Spares addDate globalRetention (entries.getD []) := by
  cases entries with
  | none => exact iff_of_true (by simp [cleanupOldFiles]) (by simp [CameraList.Spares])
  | some entries =>
      constructor
      · intro kept entry member cam stored isID missing own limited isDir files found file
          among deletable expired
        have used := @CameraList.usedRetention_of_missing list globalRetention cam stored
          missing
        rw [isID] at used
        have effective := @CameraList.effectiveRetention_of_stored list globalRetention cam
          stored
        rw [isID, retentionOf, if_pos own] at effective
        have due : (Removal.mk entry file).Due addDate
            (list.usedRetention globalRetention entry.name) := by
          rw [used]
          exact due_iff.mpr ⟨isDir, limited, files, found, among, expired⟩
        have right := kept ⟨entry, file⟩ (mem_cleanupOldFiles_iff.mpr
          ⟨member, deletable, due⟩)
        rw [effective] at right
        obtain ⟨-, -, others, -, -, older⟩ := due_iff.mp right
        exact older
      · intro spares removal deleted
        obtain ⟨member, deletable, due⟩ := mem_cleanupOldFiles_iff.mp deleted
        rcases list.usedRetention_cases globalRetention removal.entry.name with
          same | ⟨cam, stored, isID, missing, own, used, effective⟩
        · rw [← same]
          exact due
        · rw [used] at due
          rw [effective]
          obtain ⟨isDir, limited, files, found, among, expired⟩ := due_iff.mp due
          exact due_iff.mpr ⟨isDir, own, files, found, among,
            spares removal.entry member cam stored isID missing own limited isDir files found
              removal.file among deletable expired⟩

/-- Days of twenty-four hours. -/
def addDays (now days : Int) : Int :=
  now + days * 86400000000000

/-- A camera whose recordings are kept for thirty days, and a list without it. -/
def unlisted : CameraList where
  stored := [{ id := "cam1", retentionDays := 30 }]
  distinct := by decide
  cams := []
  failed := true
  known := by simp
  complete := by simp

/-- A recording of the camera that is ten days old. -/
def tenDaysOld : ArchiveFile where
  name := "2026-07-31_15-04-05_to_16-04-05.mp4"
  isDir := false
  modTime := some 0
  deletable := true

/-- The directory of the camera. -/
def cameraDir : ArchiveEntry where
  name := "cam1"
  isDir := true
  files := some [tenDaysOld]
  now := addDays 0 10

/-- With seven days for all other cameras, the recording is deleted although it is
to be kept for another twenty days. -/
theorem unlisted_recording_deleted :
    (cleanupOldFiles addDays "rec" 7 unlisted.cams (some [cameraDir])
      (newIndexLRUCache 10)).1 = [⟨cameraDir, tenDaysOld⟩] ∧
    effectiveRetention 7 unlisted.stored "cam1" = 30 ∧
    ¬ (Removal.mk cameraDir tenDaysOld).Due addDays 30 := by
  refine ⟨by decide, by decide, ?_⟩
  intro due
  have expired := (due_iff.mp due).2.2
  revert expired
  decide

end Recorder
end RuseonCore
