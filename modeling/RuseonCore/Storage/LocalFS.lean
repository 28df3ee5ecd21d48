import RuseonCore.Foundation.Confinement

/-!
# Blob storage on the local file system

Path resolution of `pkg/storage/localfs/localfs.go` on Unix, where a path has no
volume name.
-/

namespace RuseonCore
namespace Storage

open LexicalPath

/-- The path begins like a drive letter of Windows. -/
def hasDriveLetter : List Char → Bool
  | letter :: ':' :: _ =>
      ('a' ≤ letter && letter ≤ 'z') || ('A' ≤ letter && letter ≤ 'Z')
  | _ => false

/-- File system path for a path given to the store with the base directory. -/
def fullPath (baseDir p : String) : Except String String :=
  if '\x00' ∈ p.toList then .error "invalid path: contains null byte"
  else
    let cleanPath := clean p.toList
    if baseDir = "" then
      if dotDot.isPrefixOf cleanPath then .error s!"invalid path: {p}"
      else .ok (String.ofList cleanPath)
    else if hasDriveLetter cleanPath then
      .error s!"invalid path with drive letter: {p}"
    else if isAbs cleanPath || ['\\'].isPrefixOf cleanPath then
      .error s!"invalid absolute or rooted path: {p}"
    else
      let cleanBase := clean baseDir.toList
      let target := join [cleanBase, cleanPath]
      match rel cleanBase target with
      | none => .error s!"path escapes base directory: {p}"
      | some relative =>
          if dotDot.isPrefixOf relative then
            .error s!"path escapes base directory: {p}"
          else .ok (String.ofList target)

/-- Without a base directory, a relative position is opened exactly if its
string has no null byte and does not begin with two dots. -/
theorem fullPath_render (pos : Position) (path : String) :
    fullPath "" (String.ofList (pos.render false)) = .ok path ↔
      '\x00' ∉ pos.render false ∧ ¬ dotDot <+: pos.render false ∧
        path = String.ofList (pos.render false) := by
  unfold fullPath
  simp only [String.toList_ofList, clean_render, if_true,
    List.isPrefixOf_iff_prefix]
  split
  · simp_all
  · split
    · simp_all
    · simp_all [eq_comm]

/-- Joining a clean base with a path gives a clean path. -/
theorem join_clean (base path : List Char) :
    join [clean base, path] = clean (['/'].intercalate [clean base, path]) := by
  have nonempty : clean base ≠ [] := Position.render_ne_nil _ _
  have kept : [clean base, path].dropWhile List.isEmpty = [clean base, path] := by
    rw [List.dropWhile_cons_of_neg]
    rwa [List.isEmpty_iff]
  rw [join, kept]

/-- With a base directory, a path that is returned is the clean base directory
itself or lies below it. -/
theorem fullPath_confined
    (baseDir p path : String)
    (configured : baseDir ≠ "")
    (returned : fullPath baseDir p = .ok path) :
    path.toList = clean baseDir.toList ∨ Below (clean baseDir.toList) path.toList := by
  unfold fullPath at returned
  rw [if_neg configured] at returned
  split at returned
  · cases returned
  · dsimp only at returned
    split at returned
    · cases returned
    · split at returned
      · cases returned
      · split at returned
        · cases returned
        · rename_i relative found
          split at returned
          · cases returned
          · rename_i noDots
            cases returned
            rw [List.isPrefixOf_iff_prefix] at noDots
            rw [join_clean] at found ⊢
            rw [String.toList_ofList]
            exact eq_or_below_of_rel found noDots

/-- A base directory with a step up, and a path that goes up and comes back. -/
theorem fullPath_confined_detour :
    String.toList "../data/cam" = clean (String.toList "../data/./x/..") ∨
      Below (clean (String.toList "../data/./x/..")) (String.toList "../data/cam") :=
  fullPath_confined "../data/./x/.." "../data//cam/." "../data/cam" (by decide)
    (by decide +kernel)

end Storage
end RuseonCore
