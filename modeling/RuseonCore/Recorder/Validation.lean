import RuseonCore.Recorder.Recovery

/-!
# Files that are accepted

`ValidateFMP4File` in `internal/recorder/recovery.go` keeps an offset of its own
beside the cursor of the open file: a header that is read moves the cursor by
eight bytes, and `Seek` moves it over the rest of the box.  The two never part, so
the file is read as `validateFMP4File` reads it.

A file is accepted exactly if it consists of boxes, with the ones among them that
a recording needs.
-/

namespace RuseonCore
namespace Recorder

open Archive

/-! ## The cursor of the file -/

/-- The loop over the boxes, with the cursor of the file apart from the offset. -/
def walkBoxes
    (contents : Bytes)
    (cursor currentOffset : Nat)
    (found : BoxTypes) : Except Flaw BoxTypes :=
  if currentOffset < contents.length then
    if contents.length < currentOffset + 8 then
      .error (.truncatedHeader currentOffset contents.length)
    else
      match readFull contents cursor 8 with
      | none => .error (.unreadableHeader currentOffset)
      | some header =>
          let size := ByteBuffer.decode (header.take 4)
          let boxType := (header.drop 4).take 4
          if size < 8 then .error (.invalidSize size boxType currentOffset)
          else if contents.length < currentOffset + size then
            .error (.exceedsFile boxType currentOffset size contents.length)
          else
            walkBoxes contents (cursor + 8 + (size - 8)) (currentOffset + size)
              (found.note boxType)
  else .ok found
termination_by contents.length - currentOffset

/-- `ValidateFMP4File` of a file whose size and contents do not change. -/
def validateWithCursor (contents : Bytes) : Except Flaw Unit := do
  if contents.length < 32 then throw (.tooSmall contents.length)
  let found ← walkBoxes contents 0 0 ⟨false, false, false⟩
  if !found.hasMoov then throw .missingMoov
  if !found.hasMoof || !found.hasMdat then throw .missingFragments

/-- The cursor stays at the offset. -/
theorem walkBoxes_eq_scanBoxes
    (contents : Bytes)
    (offset : Nat)
    (found : BoxTypes) :
    walkBoxes contents offset offset found = scanBoxes contents offset found := by
  fun_induction scanBoxes contents offset found with
  | case1 offset found inside torn =>
      rw [walkBoxes, if_pos inside, if_pos torn]
  | case2 offset found inside complete unread =>
      rw [readBoxHeader, Option.map_eq_none_iff] at unread
      rw [walkBoxes, if_pos inside, if_neg complete, unread]
  | case3 offset found inside complete header read tooSmall =>
      obtain ⟨bytes, full, rfl⟩ := Option.map_eq_some_iff.mp read
      rw [walkBoxes, if_pos inside, if_neg complete, full]
      exact if_pos tooSmall
  | case4 offset found inside complete header read large exceeds =>
      obtain ⟨bytes, full, rfl⟩ := Option.map_eq_some_iff.mp read
      rw [walkBoxes, if_pos inside, if_neg complete, full]
      exact (if_neg large).trans (if_pos exceeds)
  | case5 offset found inside complete header read large fits inductionHypothesis =>
      obtain ⟨bytes, full, rfl⟩ := Option.map_eq_some_iff.mp read
      have same : offset + 8 + (ByteBuffer.decode (bytes.take 4) - 8) =
          offset + ByteBuffer.decode (bytes.take 4) := by
        dsimp only at large
        omega
      rw [walkBoxes, if_pos inside, if_neg complete, full, ← inductionHypothesis]
      dsimp only
      rw [same]
      exact (if_neg large).trans (if_neg fits)
  | case6 offset found past =>
      rw [walkBoxes, if_neg past]

theorem validateWithCursor_eq (contents : Bytes) :
    validateWithCursor contents = validateFMP4File contents := by
  rw [validateWithCursor, validateFMP4File, walkBoxes_eq_scanBoxes]

/-! ## Files that consist of boxes -/

/-- Bytes that start with their number, as a 32-bit big-endian size of at least
eight. -/
def IsBox (box : Bytes) : Prop :=
  8 ≤ box.length ∧ ByteBuffer.decode (box.take 4) = box.length

/-- The four bytes behind the size. -/
def typeOf (box : Bytes) : Bytes :=
  (box.drop 4).take 4

/-- The boxes lie in the file one after the other, from its start to its end. -/
def Tiles (boxes : List Bytes) (contents : Bytes) : Prop :=
  (∀ box ∈ boxes, IsBox box) ∧ boxes.flatten = contents

/-- The header of a box. -/
theorem readBoxHeader_isBox
    {box : Bytes}
    (isBox : IsBox box)
    (pre tail : Bytes) :
    readBoxHeader (pre ++ (box ++ tail)) pre.length = some ⟨typeOf box, box.length⟩ := by
  have long := isBox.1
  have start : (box ++ tail).take 8 = box.take 8 := List.take_append_of_le_length long
  have size : (box.take 8).take 4 = box.take 4 := by
    rw [List.take_take, min_eq_left (by decide)]
  have boxType : ((box.take 8).drop 4).take 4 = typeOf box := by
    rw [List.drop_take, List.take_take, min_self, typeOf]
  rw [readBoxHeader, readFull, if_pos, List.drop_left, start, Option.map_some, size, boxType,
    isBox.2]
  simp only [List.length_append]
  omega

/-- Going over the boxes of a file. -/
theorem scanBoxes_flatten
    (boxes : List Bytes)
    (allBoxes : ∀ box ∈ boxes, IsBox box)
    (pre : Bytes)
    (found : BoxTypes) :
    scanBoxes (pre ++ boxes.flatten) pre.length found =
      .ok ((boxes.map typeOf).foldl BoxTypes.note found) := by
  induction boxes generalizing pre found with
  | nil =>
      rw [scanBoxes, if_neg (by simp)]
      rfl
  | cons box boxes inductionHypothesis =>
      have isBox : IsBox box := allBoxes box List.mem_cons_self
      have long := isBox.1
      have rest := inductionHypothesis
        (fun other member => allBoxes other (List.mem_cons_of_mem box member))
        (pre ++ box) (found.note (typeOf box))
      rw [List.append_assoc, List.length_append] at rest
      have length : (pre ++ (box ++ boxes.flatten)).length =
          pre.length + (box.length + boxes.flatten.length) := by
        rw [List.length_append, List.length_append]
      rw [List.flatten_cons, scanBoxes, if_pos (by omega), if_neg (by omega),
        readBoxHeader_isBox isBox]
      dsimp only
      rw [if_neg (by omega), if_neg (by omega), rest]
      rfl

/-- A header is read off the bytes from its position on. -/
theorem eq_of_readBoxHeader
    {contents : Bytes}
    {offset : Nat}
    {header : BoxHeader}
    (read : readBoxHeader contents offset = some header) :
    header = ⟨typeOf (contents.drop offset),
      ByteBuffer.decode ((contents.drop offset).take 4)⟩ := by
  obtain ⟨bytes, full, rfl⟩ := Option.map_eq_some_iff.mp read
  rw [readFull, if_pos (readFull_eq_some full), Option.some.injEq] at full
  rw [← full, List.drop_take, List.take_take, List.take_take, typeOf]
  rfl

/-- Bytes with a size in front are cut to a box. -/
theorem isBox_take
    {bytes : Bytes}
    {size : Nat}
    (sized : ByteBuffer.decode (bytes.take 4) = size)
    (large : 8 ≤ size)
    (fits : size ≤ bytes.length) :
    IsBox (bytes.take size) ∧ typeOf (bytes.take size) = typeOf bytes := by
  have length : (bytes.take size).length = size := by
    rw [List.length_take, min_eq_left fits]
  refine ⟨⟨by omega, ?_⟩, ?_⟩
  · rw [length, List.take_take, min_eq_left (by omega), sized]
  · rw [typeOf, typeOf, List.drop_take, List.take_take, min_eq_left (by omega)]

/-- What the loop gets to the end of consists of boxes. -/
theorem tiles_of_scanBoxes
    {contents : Bytes}
    {offset : Nat}
    {found result : BoxTypes}
    (scanned : scanBoxes contents offset found = .ok result) :
    ∃ boxes, Tiles boxes (contents.drop offset) ∧
      result = (boxes.map typeOf).foldl BoxTypes.note found := by
  fun_induction scanBoxes contents offset found with
  | case1 => cases scanned
  | case2 => cases scanned
  | case3 => cases scanned
  | case4 => cases scanned
  | case5 offset found inside complete header read large fits inductionHypothesis =>
      obtain ⟨boxes, ⟨allBoxes, flat⟩, counted⟩ := inductionHypothesis scanned
      have read := eq_of_readBoxHeader read
      have sized : ByteBuffer.decode ((contents.drop offset).take 4) = header.size := by rw [read]
      have boxType : header.boxType = typeOf (contents.drop offset) := by rw [read]
      have box := isBox_take sized (by omega) (by rw [List.length_drop]; omega)
      refine ⟨(contents.drop offset).take header.size :: boxes, ⟨?_, ?_⟩, ?_⟩
      · rw [List.forall_mem_cons]
        exact ⟨box.1, allBoxes⟩
      · rw [List.flatten_cons, flat, ← List.drop_drop, List.take_append_drop]
      · rw [counted, List.map_cons, List.foldl_cons, box.2, boxType]
  | case6 offset found past =>
      refine ⟨[], ⟨by simp, ?_⟩, (Except.ok.inj scanned).symm⟩
      rw [List.drop_of_length_le (not_lt.mp past), List.flatten_nil]

/-- The loop gets to the end exactly if the file consists of boxes. -/
theorem scanBoxes_eq_ok_iff
    (contents : Bytes)
    (found result : BoxTypes) :
    scanBoxes contents 0 found = .ok result ↔
      ∃ boxes, Tiles boxes contents ∧
        result = (boxes.map typeOf).foldl BoxTypes.note found := by
  constructor
  · intro scanned
    exact tiles_of_scanBoxes scanned
  · rintro ⟨boxes, ⟨allBoxes, rfl⟩, rfl⟩
    exact scanBoxes_flatten boxes allBoxes [] found

/-! ## The types of the boxes -/

/-- The three types are told apart. -/
theorem note_eq (found : BoxTypes) (boxType : Bytes) :
    found.note boxType =
      ⟨found.hasMoov || decide (boxType = moov), found.hasMoof || decide (boxType = moof),
        found.hasMdat || decide (boxType = mdat)⟩ := by
  have apart : moov ≠ moof ∧ moov ≠ mdat ∧ moof ≠ mdat := by decide
  rw [BoxTypes.note]
  split
  · rename_i isMoov
    simp [isMoov, apart]
  · split
    · rename_i isMoof
      simp [isMoof, apart.1.symm, apart.2.2]
    · split
      · rename_i isMdat
        simp [isMdat, apart.2.1.symm, apart.2.2.symm]
      · rename_i notMoov notMoof notMdat
        simp [notMoov, notMoof, notMdat]

/-- The types that were found are noted, and no others. -/
theorem foldl_note (types : List Bytes) (found : BoxTypes) :
    types.foldl BoxTypes.note found =
      ⟨found.hasMoov || decide (moov ∈ types), found.hasMoof || decide (moof ∈ types),
        found.hasMdat || decide (mdat ∈ types)⟩ := by
  induction types generalizing found with
  | nil => simp
  | cons boxType types inductionHypothesis =>
      rw [List.foldl_cons, inductionHypothesis, note_eq]
      simp only [List.mem_cons, Bool.decide_or, Bool.or_assoc, eq_comm]

/-- The checks pass exactly if the loop gets to the end of a file that is long
enough, and all three types were found. -/
theorem validateFMP4File_eq_ok_iff (contents : Bytes) :
    validateFMP4File contents = .ok () ↔
      32 ≤ contents.length ∧ ∃ found, scanBoxes contents 0 ⟨false, false, false⟩ = .ok found ∧
        found.hasMoov = true ∧ found.hasMoof = true ∧ found.hasMdat = true := by
  rw [validateFMP4File]
  by_cases small : contents.length < 32
  · refine iff_of_false ?_ (fun sound => absurd small (not_lt.mpr sound.1))
    rw [if_pos small]
    intro passed
    cases passed
  · rw [if_neg small, and_iff_right (not_lt.mp small)]
    cases scanned : scanBoxes contents 0 ⟨false, false, false⟩ with
    | error flaw =>
        refine iff_of_false (fun passed => by cases passed) ?_
        rintro ⟨found, isOk, -⟩
        cases isOk
    | ok found =>
        obtain ⟨hasMoov, hasMoof, hasMdat⟩ := found
        simp only [Except.ok.injEq, exists_eq_left']
        cases hasMoov with
        | false => exact iff_of_false (fun passed => by cases passed) (by simp)
        | true =>
            cases hasMoof with
            | false => exact iff_of_false (fun passed => by cases passed) (by simp)
            | true =>
                cases hasMdat with
                | false => exact iff_of_false (fun passed => by cases passed) (by simp)
                | true => exact iff_of_true rfl (by simp)

/-- The validator comes to an end on every file, and accepts it exactly if it has
at least 32 bytes and consists of boxes, with a `moov`, a `moof` and an `mdat` box
among them. -/
theorem validateWithCursor_accepts_iff (contents : Bytes) :
    validateWithCursor contents = .ok () ↔
      32 ≤ contents.length ∧ ∃ boxes, Tiles boxes contents ∧
        moov ∈ boxes.map typeOf ∧ moof ∈ boxes.map typeOf ∧ mdat ∈ boxes.map typeOf := by
  rw [validateWithCursor_eq, validateFMP4File_eq_ok_iff]
  apply and_congr_right
  intro _
  constructor
  · rintro ⟨found, scanned, noted⟩
    obtain ⟨boxes, tiles, rfl⟩ := (scanBoxes_eq_ok_iff contents _ found).mp scanned
    rw [foldl_note] at noted
    exact ⟨boxes, tiles, by simpa using noted⟩
  · rintro ⟨boxes, tiles, present⟩
    refine ⟨_, (scanBoxes_eq_ok_iff contents _ _).mpr ⟨boxes, tiles, rfl⟩, ?_⟩
    rw [foldl_note]
    simpa using present

end Recorder
end RuseonCore
