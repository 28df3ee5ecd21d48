import RuseonCore.Foundation.TimeFormat
import RuseonCore.Recorder.Run

/-!
# Names of recordings

Model of `GetCameraArchive` in `internal/archive/indexer.go`, which reads the
intervals of recordings back from the names that the recorder gives to its files.
The name of a complete file has the date and time of its start but only the time
of day of its end, and the end is taken to be less than a day after the start.

Times are local times with a fixed offset, in nanoseconds.
-/

namespace RuseonCore
namespace Archive

open Recorder TimeFormat

/-! ## Texts -/

/-- The layout `2006-01-02_15-04-05`. -/
def startLayout : List Chunk :=
  [.longYear, .literal '-', .zeroMonth, .literal '-', .zeroDay, .literal '_', .hour,
    .literal '-', .zeroMinute, .literal '-', .zeroSecond]

/-- The layout `15-04-05`. -/
def endLayout : List Chunk :=
  [.hour, .literal '-', .zeroMinute, .literal '-', .zeroSecond]

def trimSuffix (text suffix : List Char) : List Char :=
  if suffix.isSuffixOf text then text.take (text.length - suffix.length) else text

/-- Text before and after the first occurrence of a separator. -/
def cut (sep : List Char) : List Char → Option (List Char × List Char)
  | [] => if sep.isEmpty then some ([], []) else none
  | c :: rest =>
      if sep.isPrefixOf (c :: rest) then some ([], (c :: rest).drop sep.length)
      else (cut sep rest).map fun (before, after) => (c :: before, after)

/-- Parts of a text between the occurrences of a separator, which is not empty. -/
def split (sep text : List Char) : List (List Char) :=
  match cut sep text with
  | some (before, after) =>
      if after.length < text.length then before :: split sep after else [before, after]
  | none => [text]
termination_by text.length

/-! ## The archive of a camera -/

/-- A recording and the time it covers. -/
structure RecordInterval where
  startTime : Int
  endTime : Int
  filename : String
  deriving DecidableEq

/-- An entry of a directory; there is no modification time when `Info` fails. -/
structure Entry where
  name : String
  isDir : Bool
  modTime : Option Int
  deriving DecidableEq

/-- The same time of day one day later. -/
def addDay (t : Int) : Int :=
  let f := fieldsOf t
  Fields.instant { f with day := f.day + 1 }

/-- Interval of a recording that is still written. -/
def ongoingInterval (now : Int) (entry : Entry) : Option RecordInterval := do
  let start ← parse startLayout (trimSuffix entry.name.toList "_ongoing.mp4".toList)
  return ⟨start, entry.modTime.getD now, entry.name⟩

/-- End of a recording from its start and the time of day in its name. -/
def endFull (start finish : Int) : Int :=
  let s := fieldsOf start
  let e := fieldsOf finish
  let sameDay := Fields.instant ⟨s.year, s.month, s.day, e.hour, e.minute, e.second, 0⟩
  if sameDay < start then addDay sameDay else sameDay

/-- Interval of a complete recording. -/
def finishedInterval (entry : Entry) : Option RecordInterval :=
  match split "_to_".toList (trimSuffix entry.name.toList ".mp4".toList) with
  | [first, second] => do
      let start ← parse startLayout first
      let finish ← parse endLayout second
      return ⟨start, endFull start finish, entry.name⟩
  | _ => none

/-- Interval of an entry of the directory. -/
def interval (now : Int) (entry : Entry) : Option RecordInterval :=
  if entry.isDir then none
  else if !".mp4".toList.isSuffixOf entry.name.toList then none
  else if "_ongoing.mp4".toList.isSuffixOf entry.name.toList then ongoingInterval now entry
  else if (cut "_to_".toList entry.name.toList).isSome then finishedInterval entry
  else none

/-- Why a directory cannot be read. -/
inductive ReadDirError where
  | notExist
  | other (text : String)
  deriving DecidableEq

/-- The intervals of a directory; the clock is read for every entry. -/
def getCameraArchive
    (now : Entry → Int)
    (listing : Except ReadDirError (List Entry)) : Except ReadDirError (List RecordInterval) :=
  match listing with
  | .error .notExist => .ok []
  | .error err => .error err
  | .ok entries => .ok (entries.filterMap fun entry => interval (now entry) entry)

/-! ## Names that the recorder gives -/

/-- `recordStartTime` in a name. -/
def startText (t : Int) : String :=
  String.ofList (format startLayout t)

/-- `recordEndTime` in a name. -/
def endText (t : Int) : String :=
  String.ofList (format endLayout t)

/-- Name of a recording that was opened and finalized at the given times. -/
def recordingName (start finish : Int) : String :=
  finalName (startText start) (endText finish)

/-- An instant without its fraction of a second. -/
def wholeSecond (t : Int) : Int :=
  t / 1000000000 * 1000000000

/-- A day in nanoseconds. -/
def day : Int :=
  86400 * 1000000000

/-! ## Separators -/

theorem cut_cons_of_ne
    {sep : List Char}
    {c : Char}
    {rest : List Char}
    (elsewhere : sep.isPrefixOf (c :: rest) = false) :
    cut sep (c :: rest) = (cut sep rest).map fun (before, after) => (c :: before, after) := by
  simp [cut, elsewhere]

/-- A separator whose second character does not occur in a text is not in the text. -/
theorem cut_eq_none
    {first second : Char}
    {others text : List Char}
    (absent : second ∉ text) :
    cut (first :: second :: others) text = none := by
  induction text with
  | nil => rfl
  | cons c rest inductionHypothesis =>
      have later : second ∉ rest := fun member => absent (List.mem_cons_of_mem _ member)
      rw [cut_cons_of_ne, inductionHypothesis later, Option.map_none]
      cases rest with
      | nil => simp [List.isPrefixOf]
      | cons next rest =>
          have different : second ≠ next := fun same => later (same ▸ List.mem_cons_self)
          simp [List.isPrefixOf, different]

/-- The first separator after such a text is found. -/
theorem cut_append
    {first second : Char}
    (distinct : second ≠ first)
    {others before : List Char}
    (absent : second ∉ before)
    (after : List Char) :
    cut (first :: second :: others) (before ++ (first :: second :: others) ++ after) =
      some (before, after) := by
  induction before with
  | nil => simp [cut]
  | cons c rest inductionHypothesis =>
      have later : second ∉ rest := fun member => absent (List.mem_cons_of_mem _ member)
      rw [List.cons_append, List.cons_append, cut_cons_of_ne, inductionHypothesis later,
        Option.map_some]
      cases rest with
      | nil => simp [List.isPrefixOf, distinct]
      | cons next rest =>
          have different : second ≠ next := fun same => later (same ▸ List.mem_cons_self)
          simp [List.isPrefixOf, different]

/-- Two texts with one separator between them. -/
theorem split_append
    {first second : Char}
    (distinct : second ≠ first)
    {others before after : List Char}
    (absentBefore : second ∉ before)
    (absentAfter : second ∉ after) :
    split (first :: second :: others) (before ++ (first :: second :: others) ++ after) =
      [before, after] := by
  rw [split, cut_append distinct absentBefore]
  have shorter : after.length <
      (before ++ (first :: second :: others) ++ after).length := by
    simp only [List.length_append, List.length_cons]
    omega
  simp only [if_pos shorter]
  rw [split, cut_eq_none absentAfter]

section Cut

variable {sep text before after : List Char}

/-- A text around its first separator. -/
theorem eq_of_cut (found : cut sep text = some (before, after)) :
    text = before ++ sep ++ after := by
  induction text generalizing before with
  | nil =>
      simp only [cut, List.isEmpty_iff] at found
      split at found
      · cases found
        simp [*]
      · cases found
  | cons c rest inductionHypothesis =>
      simp only [cut] at found
      split at found
      · rename_i here
        cases found
        obtain ⟨others, parts⟩ := List.isPrefixOf_iff_prefix.mp here
        rw [← parts, List.drop_left]
        rfl
      · obtain ⟨⟨first, second⟩, later, same⟩ := Option.map_eq_some_iff.mp found
        cases same
        rw [inductionHypothesis later]
        rfl

/-- A separator that fits into a text does not begin it by reaching beyond it. -/
theorem isPrefixOf_append_eq_false
    (elsewhere : sep.isPrefixOf text = false)
    (fits : sep.length ≤ text.length)
    (rest : List Char) :
    sep.isPrefixOf (text ++ rest) = false := by
  rw [Bool.eq_false_iff, ne_eq, List.isPrefixOf_iff_prefix] at elsewhere ⊢
  intro here
  exact elsewhere (List.prefix_of_prefix_length_le here (List.prefix_append _ _) fits)

/-- The first separator of a text is still the first when more text follows. -/
theorem cut_append_of_cut
    (found : cut sep text = some (before, after))
    (rest : List Char) :
    cut sep (text ++ rest) = some (before, after ++ rest) := by
  induction text generalizing before with
  | nil =>
      have parts := eq_of_cut found
      simp only [List.nil_eq, List.append_eq_nil_iff] at parts
      obtain ⟨⟨rfl, rfl⟩, rfl⟩ := parts
      cases rest <;> simp [cut]
  | cons c others inductionHypothesis =>
      rw [List.cons_append]
      simp only [cut] at found
      split at found
      · rename_i here
        cases found
        have fits := List.isPrefixOf_iff_prefix.mp here
        have still : sep.isPrefixOf (c :: (others ++ rest)) = true :=
          List.isPrefixOf_iff_prefix.mpr (fits.trans (List.prefix_append _ _))
        rw [cut, if_pos still, ← List.cons_append, List.drop_append_of_le_length fits.length_le]
      · rename_i elsewhere
        obtain ⟨⟨first, second⟩, later, same⟩ := Option.map_eq_some_iff.mp found
        cases same
        -- the separator fits into the text that is left
        have fits : sep.length ≤ (c :: others).length := by
          have size := congrArg List.length (eq_of_cut later)
          simp only [List.length_append, List.length_cons] at size ⊢
          omega
        have still : sep.isPrefixOf (c :: (others ++ rest)) = false :=
          isPrefixOf_append_eq_false (Bool.eq_false_iff.mpr elsewhere) fits rest
        rw [cut_cons_of_ne still, inductionHypothesis later]
        rfl

/-- A separator whose first character does not occur again does not begin inside
itself. -/
theorem isPrefixOf_append_self_eq_false
    {first : Char}
    {others : List Char}
    (once : first ∉ others)
    (nonempty : text ≠ [])
    (elsewhere : (first :: others).isPrefixOf text = false) :
    (first :: others).isPrefixOf (text ++ first :: others) = false := by
  rcases Nat.le_total (first :: others).length text.length with fits | short
  · exact isPrefixOf_append_eq_false elsewhere fits _
  · rw [Bool.eq_false_iff, ne_eq, List.isPrefixOf_iff_prefix]
    intro here
    obtain ⟨more, parts⟩ := List.prefix_of_prefix_length_le (List.prefix_append _ _) here short
    have begins : more <+: first :: others := by
      rw [← List.prefix_append_right_inj text, parts]
      exact here
    cases text with
    | nil => exact nonempty rfl
    | cons c rest =>
        cases more with
        | nil =>
            rw [List.append_nil] at parts
            rw [parts, List.isPrefixOf_iff_prefix.mpr (List.prefix_refl _)] at elsewhere
            cases elsewhere
        | cons next last =>
            obtain ⟨rfl, -⟩ := List.cons_prefix_cons.mp begins
            injection parts with _ inside
            exact once (inside ▸ List.mem_append_right _ List.mem_cons_self)

/-- A separator whose first character does not occur again is found at the end of a
text without one. -/
theorem cut_append_self
    {first : Char}
    {others : List Char}
    (once : first ∉ others)
    (plain : cut (first :: others) text = none) :
    cut (first :: others) (text ++ first :: others) = some (text, []) := by
  induction text with
  | nil => simp [cut]
  | cons c rest inductionHypothesis =>
      simp only [cut] at plain
      split at plain
      · cases plain
      · rename_i elsewhere
        rw [Option.map_eq_none_iff] at plain
        have still : (first :: others).isPrefixOf (c :: (rest ++ first :: others)) = false :=
          isPrefixOf_append_self_eq_false once (List.cons_ne_nil c rest)
            (Bool.eq_false_iff.mpr elsewhere)
        rw [List.cons_append, cut_cons_of_ne still, inductionHypothesis plain]
        rfl

theorem length_lt_of_cut
    (nonempty : sep ≠ [])
    (found : cut sep text = some (before, after)) :
    after.length < text.length := by
  have positive := List.length_pos_iff.mpr nonempty
  have size := congrArg List.length (eq_of_cut found)
  simp only [List.length_append] at size
  omega

/-- A text with a separator has at least two parts. -/
theorem two_le_length_split
    (nonempty : sep ≠ [])
    (found : cut sep text = some (before, after)) :
    2 ≤ (split sep text).length := by
  have others : 1 ≤ (split sep after).length := by
    rw [split]
    split
    · split <;> simp
    · simp
  rw [split, found]
  simp only [if_pos (length_lt_of_cut nonempty found), List.length_cons]
  omega

end Cut

theorem trimSuffix_append (text suffix : List Char) :
    trimSuffix (text ++ suffix) suffix = text := by
  have ends : suffix.isSuffixOf (text ++ suffix) = true :=
    List.isSuffixOf_iff_suffix.mpr (List.suffix_append text suffix)
  rw [trimSuffix, if_pos ends]
  simp

/-! ## Times -/

/-- Instants of one day, from its date and a time of day. -/
theorem instant_sameDay
    (t : Int)
    (hour minute second nanosecond : Nat) :
    Fields.instant ⟨(fieldsOf t).year, (fieldsOf t).month, (fieldsOf t).day, hour, minute, second,
        nanosecond⟩ =
      (t / 1000000000 / 86400 * 86400 + hour * 3600 + minute * 60 + second) * 1000000000 +
        nanosecond := by
  have date := Calendar.dayNumber_civil (t / 1000000000 / 86400)
  simp only [Fields.instant, fieldsOf, date]

theorem addDay_eq (t : Int) : addDay t = t + day := by
  have same := instant_fieldsOf t
  simp only [addDay, day, Fields.instant, Calendar.dayNumber] at same ⊢
  omega

/-- The start of a recording is read back. -/
theorem parse_startText
    {t : Int}
    (fourDigits : (fieldsOf t).FourDigits) :
    parse startLayout (format startLayout t) = some (wholeSecond t) := by
  have valid := valid_fieldsOf t
  have plain : Plain startLayout := by
    simp [Plain, startLayout]
  have read := parseFields_format valid plain (fun _ => fourDigits) defaultFields
  have seconds := instant_sameDay t (fieldsOf t).hour (fieldsOf t).minute (fieldsOf t).second 0
  have exists_ : (1 ≤ (fieldsOf t).day && (fieldsOf t).day ≤
      Calendar.daysIn (fieldsOf t).month (fieldsOf t).year) = true := by
    simpa using ⟨valid.date.day_pos, valid.date.day_le⟩
  rw [parse, format, read]
  simp only [Option.bind_eq_bind, Option.bind_some, startLayout, List.foldl_cons, List.foldl_nil,
    Chunk.put, defaultFields, exists_, if_true, seconds, wholeSecond, Option.some.injEq]
  simp only [fieldsOf]
  omega

theorem parse_startText_eq_none
    {t : Int}
    (long : ¬ (fieldsOf t).FourDigits) :
    parse startLayout (format startLayout t) = none := by
  rw [parse, format, startLayout, parseFields_longYear_eq_none long]
  rfl

/-- The time of day of the end of a recording is read back. -/
theorem parse_endText (t : Int) :
    ∃ finish, parse endLayout (format endLayout t) = some finish ∧
      (fieldsOf finish).hour = (fieldsOf t).hour ∧
      (fieldsOf finish).minute = (fieldsOf t).minute ∧
      (fieldsOf finish).second = (fieldsOf t).second := by
  have valid := valid_fieldsOf t
  have plain : Plain endLayout := by
    simp [Plain, endLayout]
  have undated : Chunk.longYear ∉ endLayout := by
    simp [endLayout]
  have read := parseFields_format valid plain (fun dated => absurd dated undated) defaultFields
  refine ⟨Fields.instant ⟨0, 1, 1, (fieldsOf t).hour, (fieldsOf t).minute, (fieldsOf t).second, 0⟩,
    ?_, ?_⟩
  · rw [parse, format, read]
    rfl
  · have hour := valid.hour
    have minute := valid.minute
    have second := valid.second
    generalize (fieldsOf t).hour = h at hour ⊢
    generalize (fieldsOf t).minute = m at minute ⊢
    generalize (fieldsOf t).second = s at second ⊢
    generalize date : Calendar.dayNumber 0 1 ((1 : Nat) : Int) = n
    simp only [fieldsOf, Fields.instant, date]
    omega

/-- The end of a recording that is less than a day long, and only of such a one, is
found. -/
theorem endFull_eq_iff
    (start : Int)
    {finish shown : Int}
    (hour : (fieldsOf shown).hour = (fieldsOf finish).hour)
    (minute : (fieldsOf shown).minute = (fieldsOf finish).minute)
    (second : (fieldsOf shown).second = (fieldsOf finish).second) :
    endFull (wholeSecond start) shown = wholeSecond finish ↔
      wholeSecond start ≤ wholeSecond finish ∧ wholeSecond finish < wholeSecond start + day := by
  obtain ⟨s, startSecond⟩ : ∃ s, s = start / 1000000000 := ⟨_, rfl⟩
  obtain ⟨e, finishSecond⟩ : ∃ e, e = finish / 1000000000 := ⟨_, rfl⟩
  have clock : ((fieldsOf finish).hour : Int) * 3600 + (fieldsOf finish).minute * 60 +
      (fieldsOf finish).second = e % 86400 := by
    simp only [fieldsOf, ← finishSecond]
    omega
  have sameDay : Fields.instant ⟨(fieldsOf (wholeSecond start)).year,
      (fieldsOf (wholeSecond start)).month, (fieldsOf (wholeSecond start)).day,
      (fieldsOf finish).hour, (fieldsOf finish).minute, (fieldsOf finish).second, 0⟩ =
      (s / 86400 * 86400 + e % 86400) * 1000000000 := by
    have whole : wholeSecond start / 1000000000 = s := by
      rw [wholeSecond, ← startSecond, Int.mul_ediv_cancel _ (by decide)]
    rw [instant_sameDay, whole]
    omega
  have moved : endFull (wholeSecond start) shown =
      if e % 86400 < s % 86400 then (s / 86400 * 86400 + e % 86400 + 86400) * 1000000000
      else (s / 86400 * 86400 + e % 86400) * 1000000000 := by
    simp only [endFull, hour, minute, second, sameDay, addDay_eq]
    rw [wholeSecond, ← startSecond]
    have before : (s / 86400 * 86400 + e % 86400) * 1000000000 < s * 1000000000 ↔
        e % 86400 < s % 86400 := by omega
    rw [if_congr before rfl rfl, day]
    split <;> omega
  rw [moved, wholeSecond, wholeSecond, day, ← startSecond, ← finishSecond]
  split <;> omega

/-! ## Decoding -/

theorem toList_recordingName (start finish : Int) :
    (recordingName start finish).toList =
      format startLayout start ++ "_to_".toList ++ format endLayout finish ++ ".mp4".toList := by
  simp [recordingName, finalName, startText, endText]

/-- A complete name does not end like that of an ongoing recording, whatever its
start. -/
theorem not_ongoing_finalName (start : String) (finish : Int) :
    "_ongoing.mp4".toList.isSuffixOf (finalName start (endText finish)).toList = false := by
  have parts : (finalName start (endText finish)).toList =
      start.toList ++ "_to_".toList ++ format endLayout finish ++ ".mp4".toList := by
    simp [finalName, endText]
  rw [Bool.eq_false_iff, ne_eq, List.isSuffixOf_iff_suffix, parts]
  intro ends
  have trimmed : "_ongoin".toList ++ ['g'] <:+
      start.toList ++ "_to_".toList ++ format endLayout finish :=
    List.suffix_append_self_iff.mp ends
  have last : ['g'] <:+ format endLayout finish := by
    refine List.suffix_of_suffix_length_le ((List.suffix_append _ _).trans trimmed)
      (List.suffix_append _ _) ?_
    exact List.length_pos_of_mem
      (List.mem_flatMap.mpr ⟨.literal '-', by simp [endLayout], List.mem_singleton_self _⟩)
  have absent : 'g' ∉ format endLayout finish :=
    not_mem_format (by decide) (by decide) (by simp [endLayout]) _
  exact absent (last.subset (List.mem_singleton_self _))

/-- A complete name does not end like that of an ongoing recording. -/
theorem not_ongoing (start finish : Int) :
    "_ongoing.mp4".toList.isSuffixOf (recordingName start finish).toList = false :=
  not_ongoing_finalName (startText start) finish

/-- What `GetCameraArchive` makes of the name of a recording. -/
theorem interval_recordingName
    (now start finish : Int)
    (modTime : Option Int) :
    interval now ⟨recordingName start finish, false, modTime⟩ = do
      let first ← parse startLayout (format startLayout start)
      let second ← parse endLayout (format endLayout finish)
      return ⟨first, endFull first second, recordingName start finish⟩ := by
  have noneBefore : 't' ∉ format startLayout start :=
    not_mem_format (by decide) (by decide) (by simp [startLayout]) _
  have noneAfter : 't' ∉ format endLayout finish :=
    not_mem_format (by decide) (by decide) (by simp [endLayout]) _
  have name := toList_recordingName start finish
  have complete : ".mp4".toList.isSuffixOf (recordingName start finish).toList = true := by
    rw [name]
    exact List.isSuffixOf_iff_suffix.mpr (List.suffix_append _ _)
  have separated : (cut "_to_".toList (recordingName start finish).toList).isSome = true := by
    rw [name, List.append_assoc (format startLayout start ++ _)]
    exact Option.isSome_iff_exists.mpr ⟨_, cut_append (by decide) noneBefore _⟩
  have parts : split "_to_".toList (trimSuffix (recordingName start finish).toList
      ".mp4".toList) = [format startLayout start, format endLayout finish] := by
    rw [name, trimSuffix_append]
    exact split_append (by decide) noneBefore noneAfter
  simp only [interval, finishedInterval, complete, not_ongoing, separated, parts, Bool.not_true,
    Bool.false_eq_true, if_false, if_true]

/-- The name of a recording is decoded to its times exactly if they are less than a day
apart. -/
theorem interval_eq_some_iff
    (now start finish : Int)
    (modTime : Option Int) :
    interval now ⟨recordingName start finish, false, modTime⟩ =
        some ⟨wholeSecond start, wholeSecond finish, recordingName start finish⟩ ↔
      (fieldsOf start).FourDigits ∧ wholeSecond start ≤ wholeSecond finish ∧
        wholeSecond finish < wholeSecond start + day := by
  rw [interval_recordingName]
  by_cases fourDigits : (fieldsOf start).FourDigits
  · obtain ⟨shown, read, hour, minute, second⟩ := parse_endText finish
    have ends := endFull_eq_iff start hour minute second
    simp [parse_startText fourDigits, read, fourDigits, ends]
  · simp [parse_startText_eq_none fourDigits, fourDigits]

/-- Intervals carry the name of their file. -/
theorem entry_of_interval
    {now : Int}
    {entry : Entry}
    {found : RecordInterval}
    (decoded : interval now entry = some found) :
    entry.isDir = false ∧ found.filename = entry.name := by
  unfold interval at decoded
  split at decoded
  · cases decoded
  · rename_i file
    refine ⟨by simpa using file, ?_⟩
    split at decoded
    · cases decoded
    · split at decoded
      · simp only [ongoingInterval, Option.bind_eq_bind, Option.bind_eq_some_iff] at decoded
        obtain ⟨start, _, result⟩ := decoded
        obtain rfl := Option.some.inj result
        rfl
      · split at decoded
        · unfold finishedInterval at decoded
          split at decoded
          · simp only [Option.bind_eq_bind, Option.bind_eq_some_iff] at decoded
            obtain ⟨start, _, finish, _, result⟩ := decoded
            obtain rfl := Option.some.inj result
            rfl
          · cases decoded
        · cases decoded

/-- The name of a recording in a directory is decoded to the seconds in which it was
opened and finalized exactly if these are less than a day apart, in this order, and
the year of the start has four digits. -/
theorem recording_decoded_iff
    (now : Entry → Int)
    (entries : List Entry)
    (start finish : Int)
    (modTime : Option Int)
    (listed : ⟨recordingName start finish, false, modTime⟩ ∈ entries) :
    (∃ intervals, getCameraArchive now (.ok entries) = .ok intervals ∧
      ⟨wholeSecond start, wholeSecond finish, recordingName start finish⟩ ∈ intervals) ↔
    (fieldsOf start).FourDigits ∧ wholeSecond start ≤ wholeSecond finish ∧
      wholeSecond finish < wholeSecond start + day := by
  constructor
  · rintro ⟨intervals, archive, member⟩
    obtain rfl := Except.ok.inj archive
    obtain ⟨⟨name, isDir, info⟩, _, decoded⟩ := List.mem_filterMap.mp member
    obtain ⟨rfl, rfl⟩ := entry_of_interval decoded
    exact (interval_eq_some_iff _ start finish info).mp decoded
  · intro close
    refine ⟨_, rfl, List.mem_filterMap.mpr ⟨_, listed, ?_⟩⟩
    exact (interval_eq_some_iff _ start finish modTime).mpr close

/-- 1 January 2024, 10:00:00. -/
def newYear : Int :=
  1704103200 * 1000000000

theorem recording_decoded_iff_overnight :
    recordingName newYear (newYear + 23 * 3600 * 1000000000) =
        "2024-01-01_10-00-00_to_09-00-00.mp4" ∧
      ∃ intervals,
        getCameraArchive (fun _ => 0)
          (.ok [⟨recordingName newYear (newYear + 23 * 3600 * 1000000000), false, none⟩]) =
            .ok intervals ∧
        ⟨newYear, newYear + 23 * 3600 * 1000000000,
          recordingName newYear (newYear + 23 * 3600 * 1000000000)⟩ ∈ intervals := by
  refine ⟨by decide +kernel, ?_⟩
  have decoded := recording_decoded_iff (fun _ => 0)
    [⟨recordingName newYear (newYear + 23 * 3600 * 1000000000), false, none⟩] newYear
    (newYear + 23 * 3600 * 1000000000) none (List.mem_singleton_self _)
  exact decoded.mpr ⟨by decide +kernel, by decide, by decide⟩

/-- A recorder that gets one keyframe and then only other frames, and is stopped a day
later. -/
def withoutKeyframes : List RunStep :=
  [.poll true,
    .frame (keyframeAt 0) { smoothly with recordStartTime := startText newYear },
    .frame ⟨7200 * 1000000000, false, [[0x41]]⟩ { smoothly with expired := true },
    .exit ⟨.ok, endText (newYear + day), none⟩]

theorem long_recording_misread :
    (∃ r file,
      Transition.run Run.step Run.start withoutKeyframes = some r ∧ r.archive = [file] ∧
        file.fate = .ready (recordingName newYear (newYear + day))) ∧
    getCameraArchive (fun _ => 0)
        (.ok [⟨recordingName newYear (newYear + day), false, none⟩]) =
      .ok [⟨newYear, newYear, "2024-01-01_10-00-00_to_10-00-00.mp4"⟩] := by
  constructor
  · have ends : (Transition.run Run.step Run.start withoutKeyframes).map
        (fun r => r.archive.map ClosedFile.fate) =
        some [.ready (recordingName newYear (newYear + day))] := by
      decide +kernel
    obtain ⟨r, reached, fates⟩ := Option.map_eq_some_iff.mp ends
    obtain ⟨file, archive, fate⟩ := List.map_eq_singleton_iff.mp fates
    exact ⟨r, file, reached, archive, fate⟩
  · decide +kernel

end Archive
end RuseonCore
