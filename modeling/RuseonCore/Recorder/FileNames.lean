import RuseonCore.Archive.Names

/-!
# Names of the recorder's files

A file is named after the second in which it was opened.  While it is written its
name ends in `_ongoing.mp4`; a complete file also has the time of day of its end,
and a file with a write error ends in `_ongoing.corrupted`.  The name of a file of
one kind is never that of another kind, and shows the start of the file.
-/

namespace RuseonCore
namespace Recorder

open Archive TimeFormat

/-- The name ends like that of a file that is being written. -/
def isOngoing (name : String) : Bool :=
  "_ongoing.mp4".toList.isSuffixOf name.toList

theorem isOngoing_iff {name : String} :
    isOngoing name = true ↔ ∃ start, name = ongoingName start := by
  rw [isOngoing, List.isSuffixOf_iff_suffix]
  constructor
  · rintro ⟨start, parts⟩
    refine ⟨String.ofList start, ?_⟩
    apply String.toList_injective
    rw [← parts]
    simp [ongoingName]
  · rintro ⟨start, rfl⟩
    rw [ongoingName, String.toList_append]
    exact List.suffix_append _ _

theorem isOngoing_ongoingName (start : String) : isOngoing (ongoingName start) = true :=
  isOngoing_iff.mpr ⟨start, rfl⟩

/-- A text can be taken off the end of names. -/
theorem append_right_cancel
    {first second suffix : String}
    (equal : first ++ suffix = second ++ suffix) :
    first = second := by
  apply String.toList_injective
  have lists := congrArg String.toList equal
  rw [String.toList_append, String.toList_append] at lists
  exact List.append_cancel_right lists

theorem ongoingName_injective : Function.Injective ongoingName :=
  fun _ _ equal => append_right_cancel equal

/-- Name of a file with a write error. -/
theorem corruptedName_ongoingName (start : String) :
    corruptedName (ongoingName start) = start ++ "_ongoing.corrupted" := by
  have parts : (ongoingName start).toList =
      (start.toList ++ "_ongoing".toList) ++ ".mp4".toList := by
    simp [ongoingName]
  have four : (ongoingName start).toList.length - 4 =
      (start.toList ++ "_ongoing".toList).length := by
    rw [parts]
    simp
  rw [corruptedName, four, parts, List.drop_left, List.take_left]
  apply String.toList_injective
  simp

theorem corruptedName_inj
    {start other : String}
    (equal : corruptedName (ongoingName start) = corruptedName (ongoingName other)) :
    start = other := by
  rw [corruptedName_ongoingName, corruptedName_ongoingName] at equal
  exact append_right_cancel equal

theorem isOngoing_corruptedName (start : String) :
    isOngoing (corruptedName (ongoingName start)) = false := by
  rw [corruptedName_ongoingName, isOngoing, Bool.eq_false_iff, ne_eq,
    List.isSuffixOf_iff_suffix, String.toList_append]
  intro ends
  have short := List.suffix_of_suffix_length_le ends (List.suffix_append _ _) (by decide)
  revert short
  decide

theorem isOngoing_finalName (start : String) (finish : Int) :
    isOngoing (finalName start (endText finish)) = false :=
  not_ongoing_finalName start finish

theorem length_endText (t : Int) : (endText t).toList.length = 8 := by
  have valid := valid_fieldsOf t
  have hour := length_twoDigits (valid.hour.trans (by decide))
  have minute := length_twoDigits (valid.minute.trans (by decide))
  have second := length_twoDigits (valid.second.trans (by decide))
  simp [endText, format, endLayout, Chunk.format, hour, minute, second]

/-- The name of a complete file shows its start and its end. -/
theorem finalName_inj
    {start other : String}
    {finish last : Int}
    (equal : finalName start (endText finish) = finalName other (endText last)) :
    start = other ∧ endText finish = endText last := by
  have lists : (start ++ "_to_").toList ++ (endText finish).toList =
      (other ++ "_to_").toList ++ (endText last).toList := by
    rw [← String.toList_append, ← String.toList_append, append_right_cancel equal]
  obtain ⟨starts, ends⟩ := List.append_inj' lists
    ((length_endText finish).trans (length_endText last).symm)
  exact ⟨append_right_cancel (String.toList_injective starts), String.toList_injective ends⟩

theorem ongoingName_ne_corruptedName (start other : String) :
    ongoingName start ≠ corruptedName (ongoingName other) := by
  intro equal
  have ongoing := isOngoing_ongoingName start
  rw [equal, isOngoing_corruptedName] at ongoing
  cases ongoing

theorem ongoingName_ne_finalName (start other : String) (finish : Int) :
    ongoingName start ≠ finalName other (endText finish) := by
  intro equal
  have ongoing := isOngoing_ongoingName start
  rw [equal, isOngoing_finalName] at ongoing
  cases ongoing

theorem finalName_ne_corruptedName (start other : String) (finish : Int) :
    finalName start (endText finish) ≠ corruptedName (ongoingName other) := by
  rw [corruptedName_ongoingName, finalName]
  generalize start ++ "_to_" ++ endText finish = stem
  intro equal
  have last := congrArg (fun name => name.toList.getLast?) equal
  simp only [String.toList_append, List.getLast?_append] at last
  cases last

end Recorder
end RuseonCore
