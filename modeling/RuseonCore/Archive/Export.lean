import RuseonCore.Archive.Boxes
import RuseonCore.Foundation.Chunks
import RuseonCore.Foundation.LexicalPath

/-!
# Exports of recordings

Model of `ExportMP4` in `internal/archive/export.go`, which copies the boxes
before the first fragment and a range of fragments.  The size of a fragment is the
distance to the next one; the last one reaches to the end of the file.  Nothing
happens to the file between the index and the copies, and the writer takes
everything.

The export of a range of a complete recording is a recording of the fragments in
the range, so exports compose.  Behind the last complete fragment of a recording
that is still written there may be a part of the next one.
-/

namespace RuseonCore
namespace Archive

open Chunks LexicalPath

/-! ## The export -/

/-- Reason for which an export fails: a file cannot be opened, or the message of
another error. -/
inductive ExportError
  | openFailed (reason : OpenError)
  | failed (message : String)
  deriving DecidableEq

/-- What the writer got, and the error if there was one. -/
structure Export where
  output : Bytes
  error : Option ExportError
  deriving DecidableEq

/-- Path of a recording. -/
def archivePath (recordDir cameraID filename : String) : String :=
  String.ofList (join [recordDir.toList, cameraID.toList, filename.toList])

/-- `io.CopyN` of the given number of bytes from a position of the file; it fails
at the end of the file. -/
def copyN (contents : Bytes) (pos : Nat) (count : Int) : Bytes × Option String :=
  let copied := (contents.drop pos).take count.toNat
  (copied, if (copied.length : Int) < count then some "EOF" else none)

/-- Range of fragments among the given number of them. -/
def clampRange (count : Nat) (startSeq endSeq : Int) : Nat × Nat :=
  let startSeq := if startSeq < 0 then 0 else startSeq
  let endSeq : Int := if endSeq ≥ count ∨ endSeq < 0 then count - 1 else endSeq
  let startSeq := if startSeq > endSeq then endSeq else startSeq
  (startSeq.toNat, endSeq.toNat)

/-- Copy a fragment.  The range is clamped, so there is one. -/
def copyPart (contents : Bytes) (parts : List PartInfo) (i : Nat) : Bytes × Option String :=
  match parts[i]? with
  | none => ([], none)
  | some part =>
      let partSize : Int :=
        match parts[i + 1]? with
        | some next => next.offset - part.offset
        | none => contents.length - part.offset
      copyN contents part.offset partSize

/-- Copy fragments until one cannot be copied. -/
def copyParts (contents : Bytes) (parts : List PartInfo) :
    List Nat → Bytes → Export
  | [], output => ⟨output, none⟩
  | i :: rest, output =>
      match copyPart contents parts i with
      | (copied, none) => copyParts contents parts rest (output ++ copied)
      | (copied, some err) =>
          ⟨output ++ copied,
            some (.failed ("failed to write part " ++ toString i ++ ": " ++ err))⟩

/-- Copy the boxes before the first fragment, and a range of fragments. -/
def copyRange (contents : Bytes) (idx : FileIndex) (startSeq endSeq : Nat) : Export :=
  match copyN contents idx.initOffset idx.initSize with
  | (copied, some err) => ⟨copied, some (.failed ("failed to write init block: " ++ err))⟩
  | (copied, none) =>
      copyParts contents idx.parts (List.range' startSeq (endSeq + 1 - startSeq)) copied

/-- Write a range of fragments of a recording. -/
def exportMP4
    (unmarshal : Unmarshal)
    (cache : IndexLRUCache)
    (files : Files)
    (recordDir cameraID filename : String)
    (startSeq endSeq : Int) : Export × IndexLRUCache :=
  let path := archivePath recordDir cameraID filename
  match getFileIndex unmarshal cache files path with
  | (.error reason, cache) => (⟨[], some (.openFailed reason)⟩, cache)
  | (.ok idx, cache) =>
      if idx.parts.isEmpty then
        (⟨[], some (.failed ("archive file " ++ filename ++ " contains no media parts"))⟩,
          cache)
      else
        match files path with
        | none => (⟨[], some (.openFailed .notExist)⟩, cache)
        | some contents =>
            let range := clampRange idx.parts.length startSeq endSeq
            (copyRange contents idx range.1 range.2, cache)

/-! ## Ranges -/

/-- The range is not empty, and it lies among the fragments. -/
theorem clampRange_bounds
    {count : Nat}
    (positive : 0 < count)
    (startSeq endSeq : Int) :
    (clampRange count startSeq endSeq).1 ≤ (clampRange count startSeq endSeq).2 ∧
      (clampRange count startSeq endSeq).2 < count := by
  unfold clampRange
  dsimp only
  split_ifs <;> omega

/-- A range that needs no correction. -/
theorem clampRange_of_le
    {count : Nat}
    {startSeq endSeq : Int}
    (nonneg : 0 ≤ startSeq)
    (ordered : startSeq ≤ endSeq)
    (inside : endSeq < count) :
    clampRange count startSeq endSeq = (startSeq.toNat, endSeq.toNat) := by
  unfold clampRange
  dsimp only
  rw [if_neg (by omega), if_neg (by omega), if_neg (by omega)]

/-- The last fragment is exported unless the end of the range is before it. -/
theorem clampRange_last_iff
    {count : Nat}
    (positive : 0 < count)
    (startSeq endSeq : Int) :
    (clampRange count startSeq endSeq).2 + 1 = count ↔
      ¬ (0 ≤ endSeq ∧ endSeq + 1 < count) := by
  unfold clampRange
  dsimp only
  split_ifs <;> omega

/-- The full range. -/
theorem clampRange_full
    {count : Nat}
    (positive : 0 < count)
    {startSeq endSeq : Int}
    (first : startSeq ≤ 0)
    (last : endSeq < 0 ∨ (count : Int) - 1 ≤ endSeq) :
    clampRange count startSeq endSeq = (0, count - 1) := by
  unfold clampRange
  dsimp only
  split_ifs <;> simp only [Prod.mk.injEq] <;> omega

/-! ## Copies of fragments -/

section

variable {unmarshal : Unmarshal}

theorem length_placed (fragments : List Fragment) (pos : Nat) :
    (placed pos fragments).length = fragments.length := by
  induction fragments generalizing pos with
  | nil => rfl
  | cons fragment fragments inductionHypothesis =>
      rw [placed, List.length_cons, List.length_cons, inductionHypothesis]

theorem getElem?_placed
    (fragments : List Fragment)
    (pos i : Nat) :
    (placed pos fragments)[i]? =
      fragments[i]?.map fun fragment =>
        (pos + offset Fragment.bytes fragments i, fragment) := by
  induction fragments generalizing pos i with
  | nil => rfl
  | cons fragment fragments inductionHypothesis =>
      cases i with
      | zero => rfl
      | succ i =>
          rw [placed, List.getElem?_cons_succ, inductionHypothesis, List.getElem?_cons_succ]
          simp [offset, Nat.add_assoc]

theorem copyN_append
    (pre copied rest : Bytes)
    {count : Int}
    (length : count = copied.length) :
    copyN (pre ++ (copied ++ rest)) pre.length count = (copied, none) := by
  rw [copyN, length, Int.toNat_natCast, List.drop_left, List.take_left]
  simp

end

/-- A file of complete fragments, with something before and behind them. -/
structure Layout where
  front : Bytes
  fragments : List Fragment
  tail : Bytes

namespace Layout

def bytes (layout : Layout) : Bytes :=
  layout.front ++ (layout.fragments.flatMap Fragment.bytes ++ layout.tail)

/-- The index that lists the complete fragments. -/
def index (unmarshal : Unmarshal) (layout : Layout) : FileIndex where
  initOffset := 0
  initSize := layout.front.length
  parts := (placed layout.front.length layout.fragments).map (partInfo unmarshal)

/-- The fragments in a range, with what is behind them if the range reaches to the
end. -/
def slice (layout : Layout) (startSeq endSeq : Nat) : Bytes :=
  ((layout.fragments.drop startSeq).take (endSeq + 1 - startSeq)).flatMap Fragment.bytes ++
    if endSeq + 1 = layout.fragments.length then layout.tail else []

variable (unmarshal : Unmarshal) (layout : Layout)

theorem getElem?_parts (i : Nat) :
    ((layout.index unmarshal).parts[i]?).map PartInfo.offset =
      layout.fragments[i]?.map fun _ =>
        layout.front.length + offset Fragment.bytes layout.fragments i := by
  rw [index, List.getElem?_map, getElem?_placed, Option.map_map, Option.map_map]
  rfl

theorem durations_index :
    (layout.index unmarshal).parts.map PartInfo.duration =
      layout.fragments.map fun fragment => partDuration unmarshal fragment.bytes := by
  have each : ∀ (fragments : List Fragment) pos,
      ((placed pos fragments).map (partInfo unmarshal)).map PartInfo.duration =
        fragments.map fun fragment => partDuration unmarshal fragment.bytes := by
    intro fragments
    induction fragments with
    | nil => exact fun _ => rfl
    | cons fragment fragments inductionHypothesis =>
        intro pos
        rw [placed, List.map_cons, List.map_cons, inductionHypothesis, List.map_cons]
        rfl
  exact each layout.fragments layout.front.length

/-- The file around the start of a fragment. -/
theorem bytes_eq_around
    {i : Nat}
    {fragment : Fragment}
    (found : layout.fragments[i]? = some fragment) :
    layout.bytes =
      (layout.front ++ (layout.fragments.take i).flatMap Fragment.bytes) ++
        (fragment.bytes ++
          ((layout.fragments.drop (i + 1)).flatMap Fragment.bytes ++ layout.tail)) := by
  rw [bytes, flatMap_eq_around found]
  simp only [List.append_assoc]

/-- A fragment is copied as it is, the last one with what is behind it. -/
theorem copyPart_index
    {i : Nat}
    {fragment : Fragment}
    (found : layout.fragments[i]? = some fragment) :
    copyPart layout.bytes (layout.index unmarshal).parts i =
      (fragment.bytes ++ if i + 1 = layout.fragments.length then layout.tail else [],
        none) := by
  have around := layout.bytes_eq_around found
  have here := layout.getElem?_parts unmarshal i
  rw [found, Option.map_some] at here
  obtain ⟨part, partFound, position⟩ := Option.map_eq_some_iff.mp here
  have pos : part.offset =
      (layout.front ++ (layout.fragments.take i).flatMap Fragment.bytes).length := by
    rw [position, List.length_append, offset]
  have next := layout.getElem?_parts unmarshal (i + 1)
  have inside := (List.getElem?_eq_some_iff.mp found).1
  rw [copyPart, partFound]
  dsimp only
  cases behind : layout.fragments[i + 1]? with
  | some following =>
      have more := (List.getElem?_eq_some_iff.mp behind).1
      rw [behind, Option.map_some] at next
      obtain ⟨nextPart, nextFound, nextPosition⟩ := Option.map_eq_some_iff.mp next
      rw [nextFound, if_neg (by omega), List.append_nil, around, pos]
      apply copyN_append
      dsimp only
      rw [nextPosition, offset_succ found, List.length_append, offset]
      push_cast
      omega
  | none =>
      have last : i + 1 = layout.fragments.length := by
        have end' := List.getElem?_eq_none_iff.mp behind
        omega
      rw [behind, Option.map_none, Option.map_eq_none_iff] at next
      have whole := around
      rw [last, List.drop_length, List.flatMap_nil, List.nil_append,
        ← List.append_nil layout.tail, ← List.append_assoc fragment.bytes] at whole
      rw [next, if_pos last, pos]
      dsimp only
      rw [whole]
      apply copyN_append
      simp only [List.length_append, List.length_nil]
      push_cast
      omega

/-- The fragments of a range are copied one after the other. -/
theorem copyParts_index
    (count : Nat)
    {startSeq : Nat}
    (inside : startSeq + count ≤ layout.fragments.length)
    (output : Bytes) :
    copyParts layout.bytes (layout.index unmarshal).parts
        (List.range' startSeq count) output =
      ⟨output ++ ((layout.fragments.drop startSeq).take count).flatMap Fragment.bytes ++
        if 0 < count ∧ startSeq + count = layout.fragments.length then layout.tail else [],
        none⟩ := by
  induction count generalizing startSeq output with
  | zero => simp [copyParts]
  | succ count inductionHypothesis =>
      have exists_fragment : startSeq < layout.fragments.length := by omega
      have found := List.getElem?_eq_getElem exists_fragment
      have rest := @inductionHypothesis (startSeq + 1) (by omega)
      rw [List.range'_succ, copyParts, layout.copyPart_index unmarshal found]
      dsimp only
      rw [rest, List.drop_eq_getElem_cons exists_fragment, List.take_succ_cons,
        List.flatMap_cons]
      cases count with
      | zero => simp
      | succ count =>
          rw [if_neg (by omega)]
          simp [Nat.add_assoc, Nat.add_comm 1]

theorem copyRange_index
    {startSeq endSeq : Nat}
    (ordered : startSeq ≤ endSeq)
    (inside : endSeq < layout.fragments.length) :
    copyRange layout.bytes (layout.index unmarshal) startSeq endSeq =
      ⟨layout.front ++ layout.slice startSeq endSeq, none⟩ := by
  have front : copyN layout.bytes (layout.index unmarshal).initOffset
      (layout.index unmarshal).initSize = (layout.front, none) :=
    copyN_append [] layout.front _ rfl
  have count : startSeq + (endSeq + 1 - startSeq) = endSeq + 1 := by omega
  rw [copyRange, front]
  dsimp only
  rw [layout.copyParts_index unmarshal _ (by omega), count, slice, List.append_assoc]
  congr 4
  exact propext (and_iff_right (by omega))

end Layout

/-- An export of a file whose index lists the complete fragments. -/
theorem exportMP4_eq
    {unmarshal : Unmarshal}
    {cache : IndexLRUCache}
    {files : Files}
    {recordDir cameraID filename : String}
    {layout : Layout}
    (nonempty : layout.fragments ≠ [])
    (stored : files (archivePath recordDir cameraID filename) = some layout.bytes)
    (indexed : (getFileIndex unmarshal cache files
      (archivePath recordDir cameraID filename)).1 = .ok (layout.index unmarshal))
    (startSeq endSeq : Int) :
    (exportMP4 unmarshal cache files recordDir cameraID filename startSeq endSeq).1 =
      ⟨layout.front ++ layout.slice
        (clampRange layout.fragments.length startSeq endSeq).1
        (clampRange layout.fragments.length startSeq endSeq).2, none⟩ := by
  have count : (layout.index unmarshal).parts.length = layout.fragments.length := by
    rw [Layout.index, List.length_map, length_placed]
  have bounds := clampRange_bounds (List.length_pos_iff.mpr nonempty) startSeq endSeq
  unfold exportMP4
  dsimp only
  cases answer : getFileIndex unmarshal cache files
      (archivePath recordDir cameraID filename) with
  | mk result cache =>
      rw [answer] at indexed
      dsimp only at indexed
      subst indexed
      have some_parts : (layout.index unmarshal).parts.isEmpty = false := by
        rw [List.isEmpty_eq_false_iff, ← List.length_pos_iff, count]
        exact List.length_pos_iff.mpr nonempty
      simp only [some_parts, stored, count, Bool.false_eq_true, if_false]
      exact layout.copyRange_index unmarshal bounds.1 bounds.2

/-! ## Layouts of recordings -/

/-- The fragments end where their bytes end. -/
theorem end_le_of_mem_placed
    {fragments : List Fragment}
    {pos : Nat}
    {entry : Nat × Fragment}
    (member : entry ∈ placed pos fragments) :
    entry.1 + entry.2.size ≤ pos + (fragments.flatMap Fragment.bytes).length := by
  induction fragments generalizing pos with
  | nil => cases member
  | cons fragment fragments inductionHypothesis =>
      rw [List.flatMap_cons, List.length_append, fragment.length_bytes]
      rcases List.mem_cons.mp member with rfl | later
      · dsimp only
        omega
      · have after := inductionHypothesis later
        omega

/-- An initial part of a fragment. -/
def Torn (tail : Bytes) : Prop :=
  ∃ (fragment : Fragment) (rest : Bytes), tail ++ rest = fragment.bytes ∧ rest ≠ []

/-- A sequence of fragments that ends anywhere consists of complete fragments and
an initial part of another one. -/
theorem exists_whole
    (fragments : List Fragment)
    (pos cut : Nat) :
    ∃ (whole : List Fragment) (tail : Bytes),
      (fragments.flatMap Fragment.bytes).take cut =
        whole.flatMap Fragment.bytes ++ tail ∧
      ((placed pos fragments).filter fun entry =>
        entry.1 + entry.2.size ≤ pos + cut) = placed pos whole ∧
      (tail = [] ∨ Torn tail) := by
  induction fragments generalizing pos cut with
  | nil => exact ⟨[], [], by simp, rfl, .inl rfl⟩
  | cons fragment fragments inductionHypothesis =>
      by_cases complete : fragment.size ≤ cut
      · obtain ⟨whole, tail, bytes, listed, torn⟩ :=
          inductionHypothesis (pos + fragment.size) (cut - fragment.size)
        have same : pos + fragment.size + (cut - fragment.size) = pos + cut := by omega
        refine ⟨fragment :: whole, tail, ?_, ?_, torn⟩
        · rw [List.flatMap_cons, List.take_append, fragment.length_bytes, bytes,
            List.take_of_length_le (by rw [fragment.length_bytes]; exact complete),
            List.flatMap_cons, List.append_assoc]
        · rw [placed, List.filter_cons_of_pos (by simpa using complete), placed, ← listed,
            same]
      · refine ⟨[], fragment.bytes.take cut, ?_, ?_, .inr ⟨fragment, fragment.bytes.drop cut,
          List.take_append_drop _ _, ?_⟩⟩
        · rw [List.flatMap_cons, List.flatMap_nil, List.nil_append,
            List.take_append_of_le_length (by rw [fragment.length_bytes]; omega)]
        · exact (List.filter_cons_of_neg (by simpa using complete)).trans
            (filter_placed_eq_nil (by omega) fragments)
        · rw [← List.length_pos_iff, List.length_drop, fragment.length_bytes]
          omega

/-- The first scan of a recording stops at its first fragment. -/
theorem scanInit_front
    (boxes : List Box)
    (notMoof : ∀ box ∈ boxes, box.boxType ≠ moof)
    (fragment : Fragment)
    (pre rest : Bytes)
    (initSize : Nat) :
    scanInit (pre ++ (boxes.flatMap Box.bytes ++ (fragment.bytes ++ rest))) pre.length
        initSize =
      initSize + (boxes.flatMap Box.bytes).length := by
  induction boxes generalizing pre initSize with
  | nil =>
      rw [List.flatMap_nil, List.nil_append, Fragment.bytes, List.append_assoc,
        scanInit_moof pre _ fragment.isMoof]
      rfl
  | cons box boxes inductionHypothesis =>
      have other := notMoof box List.mem_cons_self
      have others : ∀ next ∈ boxes, next.boxType ≠ moof := fun next member =>
        notMoof next (List.mem_cons_of_mem box member)
      rw [List.flatMap_cons, List.append_assoc, scanInit_other pre _ other,
        inductionHypothesis others, List.length_append, box.length_bytes, Nat.add_assoc]

namespace Recording

/-- The layout of a recording that ends after the given number of bytes, behind at
least one complete fragment. -/
theorem exists_layout
    {recording : Recording}
    {cut : Nat}
    (started : recording.completeBefore cut ≠ []) :
    ∃ layout : Layout,
      layout.front = recording.initBytes ∧
      layout.bytes = recording.bytes.take cut ∧
      recording.completeBefore cut = placed layout.front.length layout.fragments ∧
      (layout.tail = [] ∨ Torn layout.tail) := by
  have reached : recording.initBytes.length ≤ cut := by
    by_contra early
    exact started (filter_placed_eq_nil (not_le.mp early) recording.fragments)
  obtain ⟨whole, tail, bytes, listed, torn⟩ := exists_whole recording.fragments
    recording.initBytes.length (cut - recording.initBytes.length)
  refine ⟨⟨recording.initBytes, whole, tail⟩, rfl, ?_, ?_, torn⟩
  · rw [Recording.bytes, List.take_append, List.take_of_length_le reached, bytes]
    rfl
  · rw [completeBefore, ← listed, Nat.add_sub_cancel' reached]

/-- The index of such a file lists its complete fragments. -/
theorem parseIndex_layout
    {unmarshal : Unmarshal}
    {recording : Recording}
    {cut : Nat}
    {layout : Layout}
    (nonempty : layout.fragments ≠ [])
    (front : layout.front = recording.initBytes)
    (same : layout.bytes = recording.bytes.take cut)
    (complete : recording.completeBefore cut =
      placed layout.front.length layout.fragments) :
    parseIndex unmarshal layout.bytes = layout.index unmarshal := by
  have parts : (parseIndex unmarshal layout.bytes).parts =
      (layout.index unmarshal).parts := by
    rw [same]
    exact (parseParts_take recording cut).trans (congrArg _ complete)
  have size : (parseIndex unmarshal layout.bytes).initSize =
      (layout.index unmarshal).initSize := by
    obtain ⟨fragment, fragments, first⟩ := List.exists_cons_of_ne_nil nonempty
    have stop := scanInit_front recording.initBoxes recording.notMoof fragment []
      (fragments.flatMap Fragment.bytes ++ layout.tail) 0
    rw [← initBytes, ← front, List.nil_append, Nat.zero_add, ← List.append_assoc
      fragment.bytes, ← List.flatMap_cons, ← first] at stop
    exact stop
  calc parseIndex unmarshal layout.bytes
      = ⟨0, (parseIndex unmarshal layout.bytes).initSize,
          (parseIndex unmarshal layout.bytes).parts⟩ := rfl
    _ = layout.index unmarshal := by rw [size, parts]; rfl

/-- Nothing stands behind the last complete fragment of a recording that ends after
the given number of bytes. -/
def EndsWhole (recording : Recording) (cut : Nat) : Prop :=
  (recording.bytes.take cut).length =
    recording.initBytes.length +
      ((recording.completeBefore cut).map fun entry => entry.2.size).sum

instance (recording : Recording) (cut : Nat) : Decidable (recording.EndsWhole cut) :=
  inferInstanceAs (Decidable (_ = _))

/-- The boxes before the first fragment, and then complete fragments. -/
def IsWhole (recording : Recording) (output : Bytes) : Prop :=
  ∃ fragments : List Fragment,
    output = recording.initBytes ++ fragments.flatMap Fragment.bytes

end Recording

/-! ## Torn fragments -/

theorem selfDelimiting_box : SelfDelimiting Box.bytes := by
  intro box other rest behind same
  have header := readBoxHeader_whole [] rest box
  rw [List.nil_append, same] at header
  have size : box.size = other.size :=
    congrArg BoxHeader.size
      (Option.some.inj (header.symm.trans (readBoxHeader_whole [] behind other)))
  have cut := congrArg (List.take box.size) same
  rwa [← box.length_bytes, List.take_left, box.length_bytes, size, ← other.length_bytes,
    List.take_left] at cut

theorem selfDelimiting_fragment : SelfDelimiting Fragment.bytes := by
  intro fragment other rest behind same
  simp only [Fragment.bytes, List.append_assoc] at same ⊢
  have first := selfDelimiting_box _ _ _ _ same
  rw [first] at same ⊢
  rw [selfDelimiting_box _ _ _ _ (List.append_cancel_left same)]

theorem sum_placed (fragments : List Fragment) (pos : Nat) :
    ((placed pos fragments).map fun entry => entry.2.size).sum =
      (fragments.flatMap Fragment.bytes).length := by
  induction fragments generalizing pos with
  | nil => rfl
  | cons fragment fragments inductionHypothesis =>
      rw [placed, List.map_cons, List.sum_cons, inductionHypothesis, List.flatMap_cons,
        List.length_append, fragment.length_bytes]

/-- A range of fragments is whole unless it reaches to a torn fragment. -/
theorem Layout.isWhole_slice_iff
    {layout : Layout}
    {recording : Recording}
    (front : layout.front = recording.initBytes)
    (torn : layout.tail = [] ∨ Torn layout.tail)
    (startSeq endSeq : Nat) :
    recording.IsWhole (layout.front ++ layout.slice startSeq endSeq) ↔
      layout.tail = [] ∨ ¬ endSeq + 1 = layout.fragments.length := by
  rw [Layout.slice, front]
  constructor
  · rintro ⟨fragments, same⟩
    by_cases last : endSeq + 1 = layout.fragments.length
    · rw [if_pos last] at same
      rcases torn with nothing | ⟨fragment, rest, split, proper⟩
      · exact .inl nothing
      · exact .inl (selfDelimiting_fragment.torn_eq_nil split proper
          (List.append_cancel_left same))
    · exact .inr last
  · intro whole
    refine ⟨(layout.fragments.drop startSeq).take (endSeq + 1 - startSeq), ?_⟩
    rcases whole with nothing | early
    · simp [nothing]
    · rw [if_neg early, List.append_nil]

/-- For every recording that ends anywhere behind a complete fragment, a successful
export consists of the boxes before the first fragment and of complete fragments
exactly if nothing stands behind the last complete fragment, or the range ends
before that one. -/
theorem exportMP4_whole_iff
    (unmarshal : Unmarshal)
    (recording : Recording)
    (cut : Nat)
    (started : recording.completeBefore cut ≠ [])
    (cache : IndexLRUCache)
    (files : Files)
    (recordDir cameraID filename : String)
    (cold : cache.lookup (archivePath recordDir cameraID filename) = none)
    (stored : files (archivePath recordDir cameraID filename) =
      some (recording.bytes.take cut))
    (startSeq endSeq : Int) :
    ((exportMP4 unmarshal cache files recordDir cameraID filename
        startSeq endSeq).1.error = none →
      recording.IsWhole (exportMP4 unmarshal cache files recordDir cameraID filename
        startSeq endSeq).1.output) ↔
    recording.EndsWhole cut ∨
      (0 ≤ endSeq ∧ endSeq + 1 < (recording.completeBefore cut).length) := by
  obtain ⟨layout, front, same, complete, torn⟩ := Recording.exists_layout started
  have nonempty : layout.fragments ≠ [] := by
    rintro none
    rw [complete, none] at started
    exact started rfl
  have positive := List.length_pos_iff.mpr nonempty
  have count : (recording.completeBefore cut).length = layout.fragments.length := by
    rw [complete, length_placed]
  have ends : recording.EndsWhole cut ↔ layout.tail = [] := by
    rw [Recording.EndsWhole, complete, sum_placed, ← same, ← front, Layout.bytes,
      List.length_append, List.length_append, ← List.length_eq_zero_iff]
    omega
  rw [← same] at stored
  have indexed := @getFileIndex_of_cold unmarshal _ _ _ _ cold stored
  rw [Recording.parseIndex_layout nonempty front same complete] at indexed
  rw [exportMP4_eq nonempty stored indexed, forall_prop_of_true rfl,
    layout.isWhole_slice_iff front torn, clampRange_last_iff positive, not_not, ends, count]

/-- A complete file. -/
theorem exportMP4_whole_iff_complete :
    twoFragments.IsWhole (exportMP4 (fun _ => none) (newIndexLRUCache 10)
      (fun _ => some (twoFragments.bytes.take 45)) "rec" "cam" "a.mp4" 1 1).1.output :=
  (exportMP4_whole_iff (fun _ => none) twoFragments 45 (by decide) (newIndexLRUCache 10)
    (fun _ => some (twoFragments.bytes.take 45)) "rec" "cam" "a.mp4" rfl rfl 1 1).mpr
      (.inl (by decide)) (by decide +kernel)

/-- The last byte of the second fragment is missing: the index has the first
fragment only, and its export is the whole file. -/
theorem torn_fragment_exported :
    (exportMP4 (fun _ => none) (newIndexLRUCache 10)
        (fun _ => some (twoFragments.bytes.take 44)) "rec" "cam" "a.mp4" 0 0).1 =
      ⟨twoFragments.bytes.take 44, none⟩ ∧
    ¬ twoFragments.IsWhole (twoFragments.bytes.take 44) := by
  refine ⟨by decide +kernel, ?_⟩
  rintro ⟨fragments, same⟩
  let last := twoFragments.fragments.getLast (by decide)
  have split : last.bytes.take 18 ++ last.bytes.drop 18 = last.bytes :=
    List.take_append_drop 18 _
  have whole : [twoFragments.fragments.head (by decide)].flatMap Fragment.bytes ++
      last.bytes.take 18 = fragments.flatMap Fragment.bytes :=
    List.append_cancel_left ((by decide : _ = twoFragments.bytes.take 44).trans same)
  have nothing := selfDelimiting_fragment.torn_eq_nil split (by decide) whole
  revert nothing
  decide

/-! ## Complete recordings -/

namespace Recording

theorem completeBefore_length (recording : Recording) :
    recording.completeBefore recording.bytes.length =
      placed recording.initBytes.length recording.fragments := by
  rw [completeBefore, List.filter_eq_self]
  intro entry member
  have within := end_le_of_mem_placed member
  rw [decide_eq_true_eq, bytes, List.length_append]
  exact within

/-- The fragments in a range, behind the same boxes. -/
def range (recording : Recording) (startSeq endSeq : Nat) : Recording :=
  { recording with
    fragments := (recording.fragments.drop startSeq).take (endSeq + 1 - startSeq) }

theorem range_full (recording : Recording) :
    recording.range 0 (recording.fragments.length - 1) = recording := by
  have all : recording.fragments.length ≤ recording.fragments.length - 1 + 1 - 0 := by omega
  simp only [range, List.drop_zero, List.take_of_length_le all]

theorem range_range
    (recording : Recording)
    {startSeq endSeq innerStart innerEnd : Nat}
    (inside : startSeq + innerEnd ≤ endSeq) :
    (recording.range startSeq endSeq).range innerStart innerEnd =
      recording.range (startSeq + innerStart) (startSeq + innerEnd) := by
  have count : startSeq + innerEnd + 1 - (startSeq + innerStart) =
      innerEnd + 1 - innerStart := by omega
  have shorter : min (innerEnd + 1 - innerStart) (endSeq + 1 - startSeq - innerStart) =
      innerEnd + 1 - innerStart := by omega
  simp only [range, List.drop_take, List.take_take, List.drop_drop, count, shorter]

theorem length_range
    (recording : Recording)
    {startSeq endSeq : Nat}
    (ordered : startSeq ≤ endSeq)
    (inside : endSeq < recording.fragments.length) :
    (recording.range startSeq endSeq).fragments.length = endSeq + 1 - startSeq := by
  rw [range, List.length_take, List.length_drop]
  omega

/-- The index of a complete recording. -/
theorem parseIndex_bytes
    (unmarshal : Unmarshal)
    {recording : Recording}
    (nonempty : recording.fragments ≠ []) :
    parseIndex unmarshal recording.bytes =
      Layout.index unmarshal ⟨recording.initBytes, recording.fragments, []⟩ := by
  have same : Layout.bytes ⟨recording.initBytes, recording.fragments, []⟩ =
      recording.bytes := by
    rw [Layout.bytes, List.append_nil]
    rfl
  rw [← same]
  refine parseIndex_layout nonempty rfl ?_ recording.completeBefore_length
  rw [same, List.take_length]

end Recording

/-- A file in a blob store; the cache has no index for it, or the one that the file
has. -/
structure StoredFile (unmarshal : Unmarshal) where
  cache : IndexLRUCache
  files : Files
  recordDir : String
  cameraID : String
  filename : String
  contents : Bytes
  stored : files (archivePath recordDir cameraID filename) = some contents
  current : ∀ idx, cache.lookup (archivePath recordDir cameraID filename) = some idx →
    idx = parseIndex unmarshal contents

namespace StoredFile

variable {unmarshal : Unmarshal}

/-- Answer of `getFileIndex`. -/
def index (file : StoredFile unmarshal) : Except OpenError FileIndex :=
  (getFileIndex unmarshal file.cache file.files
    (archivePath file.recordDir file.cameraID file.filename)).1

/-- Result of `ExportMP4`. -/
def exportRange (file : StoredFile unmarshal) (startSeq endSeq : Int) : Export :=
  (exportMP4 unmarshal file.cache file.files file.recordDir file.cameraID file.filename
    startSeq endSeq).1

theorem index_eq (file : StoredFile unmarshal) :
    file.index = .ok (parseIndex unmarshal file.contents) := by
  cases cached : file.cache.lookup
      (archivePath file.recordDir file.cameraID file.filename) with
  | none => exact getFileIndex_of_cold cached file.stored
  | some idx =>
      rw [← file.current idx cached]
      exact getFileIndex_of_cached cached file.files

/-- The export of a range of a complete recording is the recording of the range. -/
theorem exportRange_eq
    {file : StoredFile unmarshal}
    {recording : Recording}
    (complete : file.contents = recording.bytes)
    (nonempty : recording.fragments ≠ [])
    (startSeq endSeq : Int) :
    file.exportRange startSeq endSeq =
      ⟨(recording.range (clampRange recording.fragments.length startSeq endSeq).1
        (clampRange recording.fragments.length startSeq endSeq).2).bytes, none⟩ := by
  have indexed := file.index_eq
  have stored := file.stored
  rw [complete] at indexed stored
  rw [Recording.parseIndex_bytes unmarshal nonempty] at indexed
  have whole : recording.bytes =
      Layout.bytes ⟨recording.initBytes, recording.fragments, []⟩ := by
    rw [Layout.bytes, List.append_nil]
    rfl
  rw [whole] at stored
  refine (exportMP4_eq nonempty stored indexed startSeq endSeq).trans ?_
  simp [Layout.slice, Recording.bytes, Recording.range, Recording.initBytes]

end StoredFile

/-- Exports of complete recordings compose.  The export of the full range is the
file; the index of an export has the size of the boxes before the first fragment
and the durations of the range; and a range of the export is the same range of the
file. -/
theorem exports_compose
    {unmarshal : Unmarshal}
    (file : StoredFile unmarshal)
    (recording : Recording)
    (complete : file.contents = recording.bytes)
    (nonempty : recording.fragments ≠ [])
    (startSeq endSeq : Int)
    (copy : StoredFile unmarshal)
    (copied : copy.contents = (file.exportRange startSeq endSeq).output)
    (first last : Nat)
    (range : clampRange recording.fragments.length startSeq endSeq = (first, last)) :
    (∀ low high : Int, low ≤ 0 →
      (high < 0 ∨ (recording.fragments.length : Int) - 1 ≤ high) →
        file.exportRange low high = ⟨file.contents, none⟩) ∧
    (file.exportRange startSeq endSeq).error = none ∧
    (∃ idx exported, file.index = .ok idx ∧ copy.index = .ok exported ∧
      exported.initSize = idx.initSize ∧
      exported.parts.map PartInfo.duration =
        ((idx.parts.map PartInfo.duration).drop first).take (last + 1 - first)) ∧
    ∀ innerStart innerEnd : Int, 0 ≤ innerStart → innerStart ≤ innerEnd →
      first + innerEnd ≤ last →
        copy.exportRange innerStart innerEnd =
          file.exportRange (first + innerStart) (first + innerEnd) := by
  have positive := List.length_pos_iff.mpr nonempty
  have exported := StoredFile.exportRange_eq complete nonempty
  have bounds := clampRange_bounds positive startSeq endSeq
  rw [range] at bounds
  rw [exported, range] at copied
  have length := recording.length_range bounds.1 bounds.2
  have innerNonempty : (recording.range first last).fragments ≠ [] := by
    rw [← List.length_pos_iff, length]
    omega
  refine ⟨?_, ?_, ?_, ?_⟩
  · intro low high isLow isHigh
    rw [exported, clampRange_full positive isLow isHigh, recording.range_full, complete]
  · rw [exported]
  · refine ⟨_, _, file.index_eq, copy.index_eq, ?_⟩
    rw [complete, copied, Recording.parseIndex_bytes unmarshal nonempty,
      Recording.parseIndex_bytes unmarshal innerNonempty]
    refine ⟨rfl, ?_⟩
    rw [Layout.durations_index, Layout.durations_index, ← List.map_drop, ← List.map_take]
    rfl
  · intro innerStart innerEnd nonneg ordered inside
    rw [StoredFile.exportRange_eq copied innerNonempty, exported,
      clampRange_of_le nonneg ordered (by rw [length]; omega),
      clampRange_of_le (by omega) (by omega) (by omega), recording.range_range (by omega)]
    congr 3 <;> omega

/-- Two fragments in a blob store. -/
def storedFragments : StoredFile (fun _ => none) where
  cache := newIndexLRUCache 10
  files := fun _ => some twoFragments.bytes
  recordDir := "rec"
  cameraID := "cam"
  filename := "a.mp4"
  contents := twoFragments.bytes
  stored := rfl
  current := fun _ cached => by cases cached

/-- A file with the second fragment. -/
def storedLast : StoredFile (fun _ => none) where
  cache := newIndexLRUCache 10
  files := fun _ => some (storedFragments.exportRange 1 7).output
  recordDir := "exported"
  cameraID := "cam"
  filename := "b.mp4"
  contents := (storedFragments.exportRange 1 7).output
  stored := rfl
  current := fun _ cached => by cases cached

theorem exports_compose_last :
    storedFragments.exportRange (-1) (-1) = ⟨twoFragments.bytes, none⟩ ∧
      storedLast.exportRange 0 0 = storedFragments.exportRange 1 1 := by
  obtain ⟨full, -, -, inner⟩ := exports_compose storedFragments twoFragments rfl
    (by decide) 1 7 storedLast rfl 1 1 (by decide)
  exact ⟨full (-1) (-1) (by decide) (.inl (by decide)),
    inner 0 0 le_rfl le_rfl (by decide)⟩

end Archive
end RuseonCore
