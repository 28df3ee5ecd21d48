import RuseonCore.Api.Http
import RuseonCore.Storage.LocalFS

/-!
# Archive requests

`GetArchiveHLSPlaylist`, `GetArchiveHLSSegment` and `ExportCameraArchive` of
`internal/api/handler.go`, up to the file that they open.  The file name of a
request is joined to the directory of its camera; the store then only rejects
paths that leave the working directory.
-/

namespace RuseonCore
namespace Api

open Storage LexicalPath LexicalPath.Position

/-- A request for a recorded file of a camera. -/
inductive ArchiveRequest
  | getArchiveHLSPlaylist (id file : String)
  | getArchiveHLSSegment (id file seq : String)
  | exportCameraArchive (id file startSeq endSeq : String)
  deriving DecidableEq

namespace ArchiveRequest

/-- Camera of the request. -/
def id : ArchiveRequest → String
  | .getArchiveHLSPlaylist id _ => id
  | .getArchiveHLSSegment id _ _ => id
  | .exportCameraArchive id _ _ _ => id

/-- File name of the request. -/
def file : ArchiveRequest → String
  | .getArchiveHLSPlaylist _ file => file
  | .getArchiveHLSSegment _ file _ => file
  | .exportCameraArchive _ file _ _ => file

/-- Answer for a request that the handler itself refuses. -/
def invalid : ArchiveRequest → Option Response
  | .getArchiveHLSPlaylist _ file =>
      if file = "" then some (.error 400 "file parameter is required")
      else none
  | .getArchiveHLSSegment _ file seq =>
      if file = "" ∨ seq = "" then
        some (.error 400 "file and seq parameters are required")
      else if atoi seq = none then some (.error 400 "invalid seq")
      else none
  | .exportCameraArchive _ file _ _ =>
      if file = "" then some (.error 400 "file parameter is required")
      else none

/-- Answer when the file cannot be opened.  The failure of an export is only
logged. -/
def openFailure (err : String) : ArchiveRequest → Response
  | .getArchiveHLSPlaylist _ _ =>
      .error 500 s!"failed to generate playlist: {err}"
  | .getArchiveHLSSegment _ _ _ =>
      .error 500 s!"failed to generate segment: {err}"
  | .exportCameraArchive _ _ _ _ => .ok

/-- Path that is handed to the store. -/
def storePath (recordDir : String) (request : ArchiveRequest) : String :=
  String.ofList
    (join [recordDir.toList, request.id.toList, request.file.toList])

/-- File that the request opens, or its answer if nothing is opened. -/
def openFile (request : ArchiveRequest) : Except Response String :=
  match request.invalid with
  | some response => .error response
  | none =>
      match fullPath "" (request.storePath "recordings") with
      | .error err => .error (request.openFailure err)
      | .ok path => .ok path

end ArchiveRequest

/-- The path lies lexically inside the directory of the camera. -/
def InsideArchive (id path : String) : Prop :=
  ∃ inner, inner ≠ [] ∧ dotDot ∉ inner ∧
    path.toList.splitOn '/' = "recordings".toList :: id.toList :: inner

/-- The file name leads to a file inside the directory of the camera: it does
not leave the directory, or it comes back into it. -/
def FileConfined (id file : String) : Prop :=
  let target := start.walk false (file.toList.splitOn '/')
  (target.ups = 0 ∧ target.names ≠ []) ∨
    (target.ups = 1 ∧ ∃ inner, inner ≠ [] ∧
      target.names = id.toList :: inner) ∨
    (target.ups = 2 ∧ ∃ inner, inner ≠ [] ∧
      target.names = "recordings".toList :: id.toList :: inner)

/-! ## Files that are opened -/

/-- A position at or below the working directory is inside the directory of the
camera exactly if its names say so. -/
theorem insideArchive_render_iff
    {pos : Position}
    (level : pos.ups = 0)
    (id : String) :
    InsideArchive id (String.ofList (pos.render false)) ↔
      ∃ inner, inner ≠ [] ∧
        pos.names = "recordings".toList :: id.toList :: inner := by
  have shown : pos.components = pos.names := by
    simp [components, level]
  unfold InsideArchive
  rw [String.toList_ofList, splitOn_render, shown]
  constructor
  · rintro ⟨inner, nonempty, _, split⟩
    by_cases entered : pos.names = []
    · simp [entered] at split
    · rw [if_neg entered] at split
      exact ⟨inner, nonempty, split⟩
  · rintro ⟨inner, nonempty, split⟩
    refine ⟨inner, nonempty, ?_, ?_⟩
    · intro within
      have entered : dotDot ∈ pos.names := by simp [split, within]
      exact (pos.isName_of_mem_names entered).2.2.1 rfl
    · rw [split, if_neg (List.cons_ne_nil _ _)]

/-- Position of the file of a request. -/
def archivePosition (id file : String) : Position :=
  start.walk false
    ("recordings".toList :: id.toList :: file.toList.splitOn '/')

/-- The path handed to the store leads to the position of the file. -/
theorem storePath_eq_render
    (request : ArchiveRequest)
    (segment : '/' ∉ request.id.toList) :
    request.storePath "recordings" =
      String.ofList ((archivePosition request.id request.file).render false) := by
  have isName : IsName "recordings".toList := by decide
  rw [ArchiveRequest.storePath, join_of_isName isName, archivePosition]
  simp only [List.flatMap_cons, List.flatMap_nil, List.append_nil,
    List.splitOn_eq_singleton isName.2.2.2, List.splitOn_eq_singleton segment,
    List.singleton_append]

/-- An opened file has a position at or below the working directory. -/
theorem openFile_eq_ok
    {request : ArchiveRequest}
    (segment : '/' ∉ request.id.toList)
    {path : String}
    (opened : request.openFile = .ok path) :
    (archivePosition request.id request.file).ups = 0 ∧
      path = String.ofList
        ((archivePosition request.id request.file).render false) := by
  unfold ArchiveRequest.openFile at opened
  split at opened
  · cases opened
  · split at opened
    · cases opened
    · rename_i found
      rw [storePath_eq_render request segment, fullPath_render] at found
      obtain ⟨_, noDots, shown⟩ := found
      cases opened
      exact ⟨ups_eq_zero_of_noDots noDots, shown⟩

/-- Below a named camera, the position is that of the file name, taken from the
directory of the camera. -/
theorem archivePosition_of_isName
    {id : String}
    (isName : IsName id.toList)
    (file : String) :
    (archivePosition id file).ups =
        (start.walk false (file.toList.splitOn '/')).ups - 2 ∧
      (archivePosition id file).names =
        ["recordings".toList, id.toList].take
            (2 - (start.walk false (file.toList.splitOn '/')).ups) ++
          (start.walk false (file.toList.splitOn '/')).names := by
  have recordings : IsName "recordings".toList := by decide
  rw [archivePosition, walk_cons, walk_cons, enter_of_isName _ recordings,
    enter_of_isName _ isName, walk_eq_descend]
  constructor
  · simp [descend, push, start]
  · simp only [names, descend, push, start, List.reverse_append,
      List.reverse_drop]
    rfl

/-- The opened file lies inside the directory of the camera exactly if the
camera is a proper directory name and the file name stays in, or comes back
to, that directory. -/
theorem opened_insideArchive_iff
    (request : ArchiveRequest)
    (segment : '/' ∉ request.id.toList)
    {path : String}
    (opened : request.openFile = .ok path) :
    InsideArchive request.id path ↔
      IsName request.id.toList ∧ FileConfined request.id request.file := by
  obtain ⟨level, rfl⟩ := openFile_eq_ok segment opened
  rw [insideArchive_render_iff level]
  by_cases isName : IsName request.id.toList
  · obtain ⟨ups, entered⟩ := archivePosition_of_isName isName request.file
    rw [entered]
    rw [ups] at level
    unfold FileConfined
    generalize start.walk false (request.file.toList.splitOn '/') = target at *
    obtain none | one | two :
        target.ups = 0 ∨ target.ups = 1 ∨ target.ups = 2 := by omega
    · simp [isName, none]
    · simp [isName, one]
    · simp [isName, two]
  · simp only [isName, false_and, iff_false]
    rintro ⟨inner, _, entered⟩
    refine isName ((archivePosition request.id
      request.file).isName_of_mem_names ?_)
    rw [entered]
    simp

/-- A plain file name. -/
theorem opened_insideArchive_iff_plain :
    (ArchiveRequest.getArchiveHLSSegment "cam" "a/../x.mp4" "0").openFile =
        .ok "recordings/cam/x.mp4" ∧
      InsideArchive "cam" "recordings/cam/x.mp4" := by
  have opened : (ArchiveRequest.getArchiveHLSSegment "cam" "a/../x.mp4"
      "0").openFile = .ok "recordings/cam/x.mp4" := by
    decide +kernel
  refine ⟨opened, (opened_insideArchive_iff _ (by decide) opened).mpr ⟨?_, ?_⟩⟩
  · decide
  · exact .inl (by decide +kernel)

/-- A request for one camera opens the recording of another. -/
theorem other_archive_opened :
    '/' ∉ "cam".toList ∧
      (ArchiveRequest.getArchiveHLSPlaylist "cam" "../other/x.mp4").openFile =
        .ok "recordings/other/x.mp4" ∧
      ¬ InsideArchive "cam" "recordings/other/x.mp4" ∧
      InsideArchive "other" "recordings/other/x.mp4" := by
  refine ⟨by decide, by decide +kernel, ?_, ?_⟩
  · rintro ⟨inner, _, _, split⟩
    have second : ("recordings/other/x.mp4".toList.splitOn '/')[1]? =
        some "cam".toList := by
      rw [split]
      rfl
    exact absurd second (by decide)
  · exact ⟨["x.mp4".toList], by decide, by decide, by decide⟩

end Api
end RuseonCore
