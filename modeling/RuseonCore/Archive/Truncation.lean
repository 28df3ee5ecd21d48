import RuseonCore.Archive.IndexCache
import RuseonCore.Foundation.Bytes

/-!
# Indices of truncated recordings

A recording is a sequence of boxes: some that describe the tracks, and then pairs
of a `moof` and an `mdat` box.  After a crash, or while it is written, a file may
end anywhere.  The index of such a file consists of the pairs that are complete.
-/

namespace RuseonCore
namespace Archive

/-! ## Boxes -/

/-- A box of a size that the scans accept. -/
structure Box where
  boxType : Bytes
  payload : Bytes
  typed : boxType.length = 4
  small : payload.length + minBoxHeaderSize ≤ maxBoxSize

namespace Box

def size (box : Box) : Nat :=
  minBoxHeaderSize + box.payload.length

/-- The box in a file. -/
def bytes (box : Box) : Bytes :=
  ByteBuffer.encode 4 box.size ++ box.boxType ++ box.payload

def header (box : Box) : BoxHeader :=
  ⟨box.boxType, box.size⟩

@[simp] theorem length_bytes (box : Box) : box.bytes.length = box.size := by
  have typed := box.typed
  simp only [bytes, size, minBoxHeaderSize, List.length_append, ByteBuffer.length_encode]
  omega

theorem eight_le_size (box : Box) : 8 ≤ box.size :=
  Nat.le_add_right _ _

theorem valid_header (box : Box) : box.header.Valid := by
  refine ⟨box.eight_le_size, ?_⟩
  rw [header, size, Nat.add_comm]
  exact box.small

end Box

/-! ## Reading what is left of a file -/

/-- Reads behind an initial part of a file. -/
theorem readFull_append (pre rest : Bytes) (count : Nat) :
    readFull (pre ++ rest) pre.length count =
      if count ≤ rest.length then some (rest.take count) else none := by
  rw [readFull, List.drop_left, List.length_append]
  simp only [Nat.add_le_add_iff_left]

/-- A complete box is read. -/
theorem readFull_box
    (pre tail : Bytes)
    (box : Box)
    {cut : Nat}
    (complete : box.size ≤ cut) :
    readFull (pre ++ (box.bytes ++ tail).take cut) pre.length box.size =
      some box.bytes := by
  rw [readFull_append, if_pos, List.take_take, min_eq_left complete,
    ← box.length_bytes, List.take_left]
  rw [List.length_take, List.length_append, box.length_bytes]
  omega

/-- A box that is cut off is not read. -/
theorem readFull_torn
    (pre tail : Bytes)
    (box : Box)
    {cut : Nat}
    (torn : cut < box.size) :
    readFull (pre ++ (box.bytes ++ tail).take cut) pre.length box.size = none := by
  rw [readFull_append, if_neg]
  rw [List.length_take]
  omega

/-- A complete box leaves the rest of the file behind it. -/
theorem take_box
    (pre tail : Bytes)
    (box : Box)
    {cut : Nat}
    (complete : box.size ≤ cut) :
    pre ++ (box.bytes ++ tail).take cut =
      (pre ++ box.bytes) ++ tail.take (cut - box.size) := by
  rw [List.take_append, box.length_bytes,
    List.take_of_length_le (by rw [box.length_bytes]; exact complete), List.append_assoc]

/-- Position behind a box. -/
theorem length_append_box (pre : Bytes) (box : Box) :
    (pre ++ box.bytes).length = pre.length + box.size := by
  rw [List.length_append, box.length_bytes]

/-- A header is read if its eight bytes are there. -/
theorem readBoxHeader_box
    (pre tail : Bytes)
    (box : Box)
    {cut : Nat}
    (present : 8 ≤ cut) :
    readBoxHeader (pre ++ (box.bytes ++ tail).take cut) pre.length = some box.header := by
  have long := box.eight_le_size
  have start : ((box.bytes ++ tail).take cut).take 8 =
      ByteBuffer.encode 4 box.size ++ box.boxType := by
    have length : (ByteBuffer.encode 4 box.size ++ box.boxType).length = 8 := by
      simp [box.typed]
    rw [List.take_take, min_eq_left present, Box.bytes, List.append_assoc,
      List.take_left' length]
  have small : box.size < 256 ^ 4 := by
    have bound : box.size ≤ maxBoxSize := box.valid_header.2
    unfold maxBoxSize at bound
    omega
  have number : ByteBuffer.decode (ByteBuffer.encode 4 box.size) = box.size :=
    (ByteBuffer.decode_encode 4 box.size).trans (Nat.mod_eq_of_lt small)
  have four : (ByteBuffer.encode 4 box.size).length = 4 := ByteBuffer.length_encode 4 _
  rw [readBoxHeader, readFull_append, if_pos, start, Option.map_some,
    List.drop_left' four, List.take_left' four, number, ← box.typed, List.take_length]
  · rfl
  · rw [List.length_take, List.length_append, box.length_bytes]
    omega

theorem readBoxHeader_torn
    (pre rest : Bytes)
    (torn : rest.length < 8) :
    readBoxHeader (pre ++ rest) pre.length = none := by
  rw [readBoxHeader, readFull_append, if_neg (by omega), Option.map_none]

theorem readBoxHeader_end
    {contents : Bytes}
    {pos : Nat}
    (past : contents.length ≤ pos) :
    readBoxHeader contents pos = none := by
  rw [readBoxHeader, readFull, if_neg (by omega), Option.map_none]

/-! ## The scans -/

section

variable {unmarshal : Unmarshal} {contents : Bytes} {pos : Nat} {header : BoxHeader}

theorem scanParts_none (missing : readBoxHeader contents pos = none) :
    scanParts unmarshal contents pos = [] := by
  rw [scanParts_eq_step, partsStep, missing]

theorem scanParts_skip
    (read : readBoxHeader contents pos = some header)
    (valid : header.Valid)
    (other : header.boxType ≠ moof) :
    scanParts unmarshal contents pos = scanParts unmarshal contents (pos + header.size) := by
  rw [scanParts_eq_step, partsStep, read]
  dsimp only
  rw [if_pos valid, if_neg other]
  rfl

section Moof

variable
  (read : readBoxHeader contents pos = some header)
  (valid : header.Valid)
  (isMoof : header.boxType = moof)

include read valid isMoof

/-- The scan at a `moof` box. -/
theorem scanParts_moof :
    scanParts unmarshal contents pos =
      match readFull contents pos header.size with
      | none => []
      | some moofData =>
          match readBoxHeader contents (pos + header.size) with
          | none => scanParts unmarshal contents contents.length
          | some next =>
              if next.boxType = mdat ∧ next.Valid then
                match readFull contents (pos + header.size) next.size with
                | none => []
                | some mdatData =>
                    ⟨pos, partDuration unmarshal (moofData ++ mdatData)⟩ ::
                      scanParts unmarshal contents (pos + header.size + next.size)
              else scanParts unmarshal contents (pos + header.size + minBoxHeaderSize) := by
  rw [scanParts_eq_step, partsStep, read]
  dsimp only
  rw [if_pos valid, if_pos isMoof]
  cases readFull contents pos header.size with
  | none => rfl
  | some moofData =>
      dsimp only
      cases readBoxHeader contents (pos + header.size) with
      | none => rfl
      | some next =>
          dsimp only
          by_cases pair : next.boxType = mdat ∧ next.Valid
          · rw [if_pos pair, if_pos pair]
            cases readFull contents (pos + header.size) next.size <;> rfl
          · rw [if_neg pair, if_neg pair]
            rfl

theorem scanParts_moof_torn (torn : readFull contents pos header.size = none) :
    scanParts unmarshal contents pos = [] := by
  rw [scanParts_moof read valid isMoof, torn]

variable
  {moofData : Bytes}
  (full : readFull contents pos header.size = some moofData)

include full

/-- A `moof` box at the end of the file. -/
theorem scanParts_moof_alone
    (missing : readBoxHeader contents (pos + header.size) = none) :
    scanParts unmarshal contents pos = [] := by
  rw [scanParts_moof read valid isMoof, full]
  dsimp only
  rw [missing]
  exact scanParts_none (readBoxHeader_end le_rfl)

variable
  {next : BoxHeader}
  (nextRead : readBoxHeader contents (pos + header.size) = some next)
  (isMdat : next.boxType = mdat ∧ next.Valid)

include nextRead isMdat

/-- The scan at a `moof` box with an `mdat` box behind it. -/
theorem scanParts_moof_mdat :
    scanParts unmarshal contents pos =
      match readFull contents (pos + header.size) next.size with
      | none => []
      | some mdatData =>
          ⟨pos, partDuration unmarshal (moofData ++ mdatData)⟩ ::
            scanParts unmarshal contents (pos + header.size + next.size) := by
  rw [scanParts_moof read valid isMoof, full]
  dsimp only
  rw [nextRead]
  exact if_pos isMdat

theorem scanParts_mdat_torn
    (torn : readFull contents (pos + header.size) next.size = none) :
    scanParts unmarshal contents pos = [] := by
  rw [scanParts_moof_mdat read valid isMoof full nextRead isMdat, torn]

theorem scanParts_part
    {mdatData : Bytes}
    (nextFull : readFull contents (pos + header.size) next.size = some mdatData) :
    scanParts unmarshal contents pos =
      ⟨pos, partDuration unmarshal (moofData ++ mdatData)⟩ ::
        scanParts unmarshal contents (pos + header.size + next.size) := by
  rw [scanParts_moof_mdat read valid isMoof full nextRead isMdat, nextFull]

end Moof

/-- The scan for parts skips the boxes that the first scan skips. -/
theorem scanParts_scanInit (pos : Nat) :
    scanParts unmarshal contents (scanInit contents pos pos) =
      scanParts unmarshal contents pos := by
  induction left : contents.length - pos using Nat.strong_induction_on generalizing pos with
  | _ left inductionHypothesis =>
      rw [scanInit_eq_step]
      cases taken : initStep contents pos pos with
      | none => rfl
      | some next =>
          have advanced := initStep_advances taken
          obtain ⟨header, read, valid, other, rfl⟩ := initStep_eq_some taken
          rw [scanParts_skip read valid other]
          exact inductionHypothesis _ (by omega) (pos + header.size) rfl

end

/-! ## Truncated recordings -/

/-- A pair of boxes. -/
structure Fragment where
  moofBox : Box
  mdatBox : Box
  isMoof : moofBox.boxType = moof
  isMdat : mdatBox.boxType = mdat

namespace Fragment

def bytes (fragment : Fragment) : Bytes :=
  fragment.moofBox.bytes ++ fragment.mdatBox.bytes

def size (fragment : Fragment) : Nat :=
  fragment.moofBox.size + fragment.mdatBox.size

@[simp] theorem length_bytes (fragment : Fragment) :
    fragment.bytes.length = fragment.size := by
  simp [bytes, size]

end Fragment

/-- A file as the recorder writes it. -/
structure Recording where
  initBoxes : List Box
  fragments : List Fragment
  notMoof : ∀ box ∈ initBoxes, box.boxType ≠ moof

/-- The fragments with their positions, from a position on. -/
def placed : Nat → List Fragment → List (Nat × Fragment)
  | _, [] => []
  | pos, fragment :: fragments =>
      (pos, fragment) :: placed (pos + fragment.size) fragments

namespace Recording

def initBytes (recording : Recording) : Bytes :=
  recording.initBoxes.flatMap Box.bytes

def bytes (recording : Recording) : Bytes :=
  recording.initBytes ++ recording.fragments.flatMap Fragment.bytes

/-- The fragments that end at or before a position. -/
def completeBefore (recording : Recording) (cut : Nat) : List (Nat × Fragment) :=
  (placed recording.initBytes.length recording.fragments).filter fun entry =>
    entry.1 + entry.2.size ≤ cut

end Recording

section

variable (unmarshal : Unmarshal)

/-- What the index says about a fragment. -/
def partInfo (entry : Nat × Fragment) : PartInfo :=
  ⟨entry.1, partDuration unmarshal entry.2.bytes⟩

variable {unmarshal}

/-- A box other than `moof` is skipped if it is complete; otherwise it ends the
scan. -/
theorem scanParts_box
    (pre tail : Bytes)
    {box : Box}
    (other : box.boxType ≠ moof)
    (cut : Nat) :
    scanParts unmarshal (pre ++ (box.bytes ++ tail).take cut) pre.length =
      if box.size ≤ cut then
        scanParts unmarshal ((pre ++ box.bytes) ++ tail.take (cut - box.size))
          (pre ++ box.bytes).length
      else [] := by
  by_cases present : 8 ≤ cut
  · rw [scanParts_skip (readBoxHeader_box pre tail box present) box.valid_header other]
    split
    · rename_i complete
      rw [take_box pre tail box complete, length_append_box]
      rfl
    · apply scanParts_none
      apply readBoxHeader_end
      rw [List.length_append, List.length_take]
      change _ ≤ pre.length + box.size
      omega
  · have long := box.eight_le_size
    rw [if_neg (by omega)]
    apply scanParts_none
    apply readBoxHeader_torn
    rw [List.length_take]
    omega

/-- A fragment is listed if it is complete; otherwise it ends the scan. -/
theorem scanParts_fragment
    (pre tail : Bytes)
    (fragment : Fragment)
    (cut : Nat) :
    scanParts unmarshal (pre ++ (fragment.bytes ++ tail).take cut) pre.length =
      if fragment.size ≤ cut then
        partInfo unmarshal (pre.length, fragment) ::
          scanParts unmarshal ((pre ++ fragment.bytes) ++ tail.take (cut - fragment.size))
            (pre ++ fragment.bytes).length
      else [] := by
  obtain ⟨moofBox, mdatBox, isMoof, isMdat⟩ := fragment
  have moofLong := moofBox.eight_le_size
  have mdatLong := mdatBox.eight_le_size
  simp only [partInfo, Fragment.bytes, Fragment.size, List.append_assoc]
  by_cases present : 8 ≤ cut
  case neg =>
    rw [if_neg (by omega)]
    apply scanParts_none
    apply readBoxHeader_torn
    rw [List.length_take]
    omega
  have read := readBoxHeader_box pre (mdatBox.bytes ++ tail) moofBox present
  by_cases moofComplete : moofBox.size ≤ cut
  case neg =>
    have torn := readFull_torn pre (mdatBox.bytes ++ tail) moofBox (not_le.mp moofComplete)
    rw [if_neg (by omega), scanParts_moof_torn read moofBox.valid_header isMoof torn]
  have full := readFull_box pre (mdatBox.bytes ++ tail) moofBox moofComplete
  -- The rest is read behind the part of the file that ends with the `moof` box.
  rw [take_box pre _ moofBox moofComplete] at read full ⊢
  by_cases mdatPresent : 8 ≤ cut - moofBox.size
  case neg =>
    have missing := readBoxHeader_torn (pre ++ moofBox.bytes)
      ((mdatBox.bytes ++ tail).take (cut - moofBox.size)) (by rw [List.length_take]; omega)
    rw [length_append_box] at missing
    rw [if_neg (by omega),
      scanParts_moof_alone read moofBox.valid_header isMoof full missing]
  have nextRead := readBoxHeader_box (pre ++ moofBox.bytes) tail mdatBox mdatPresent
  have second : mdatBox.header.boxType = mdat ∧ mdatBox.header.Valid :=
    ⟨isMdat, mdatBox.valid_header⟩
  by_cases complete : mdatBox.size ≤ cut - moofBox.size
  case neg =>
    have torn := readFull_torn (pre ++ moofBox.bytes) tail mdatBox (not_le.mp complete)
    rw [length_append_box] at nextRead torn
    rw [if_neg (by omega), scanParts_mdat_torn read moofBox.valid_header isMoof full
      nextRead second torn]
  have nextFull := readFull_box (pre ++ moofBox.bytes) tail mdatBox complete
  rw [length_append_box] at nextRead nextFull
  rw [if_pos (by omega), scanParts_part read moofBox.valid_header isMoof full nextRead
    second nextFull, take_box _ tail mdatBox complete]
  simp only [Box.header, List.append_assoc, List.length_append, Box.length_bytes,
    Nat.sub_sub, Nat.add_assoc]

/-- The scan of the init boxes reaches the fragments if the file does. -/
theorem scanParts_boxes
    (boxes : List Box)
    (notMoof : ∀ box ∈ boxes, box.boxType ≠ moof)
    (pre tail : Bytes)
    (cut : Nat) :
    scanParts unmarshal (pre ++ (boxes.flatMap Box.bytes ++ tail).take cut) pre.length =
      if (boxes.flatMap Box.bytes).length ≤ cut then
        scanParts unmarshal
          ((pre ++ boxes.flatMap Box.bytes) ++
            tail.take (cut - (boxes.flatMap Box.bytes).length))
          (pre ++ boxes.flatMap Box.bytes).length
      else [] := by
  induction boxes generalizing pre cut with
  | nil => simp
  | cons box boxes inductionHypothesis =>
      have rest := inductionHypothesis
        (fun other member => notMoof other (List.mem_cons_of_mem box member))
        (pre ++ box.bytes) (cut - box.size)
      have length : (box.bytes ++ boxes.flatMap Box.bytes).length =
          box.size + (boxes.flatMap Box.bytes).length := by
        rw [List.length_append, box.length_bytes]
      rw [List.flatMap_cons, List.append_assoc,
        scanParts_box pre _ (notMoof box List.mem_cons_self), rest, length]
      by_cases complete : box.size + (boxes.flatMap Box.bytes).length ≤ cut
      · rw [if_pos (by omega), if_pos (by omega), if_pos complete, Nat.sub_sub]
        simp only [List.append_assoc]
      · rw [if_neg complete]
        split
        · rw [if_neg (by omega)]
        · rfl

/-- Positions do not decrease. -/
theorem le_of_mem_placed
    {fragments : List Fragment}
    {pos : Nat}
    {entry : Nat × Fragment}
    (member : entry ∈ placed pos fragments) :
    pos ≤ entry.1 := by
  induction fragments generalizing pos with
  | nil => cases member
  | cons fragment fragments inductionHypothesis =>
      rcases List.mem_cons.mp member with rfl | later
      · exact le_rfl
      · have after := inductionHypothesis later
        omega

/-- No fragment ends before the first one starts. -/
theorem filter_placed_eq_nil
    {pos cut : Nat}
    (early : cut < pos)
    (fragments : List Fragment) :
    ((placed pos fragments).filter fun entry => entry.1 + entry.2.size ≤ cut) = [] := by
  rw [List.filter_eq_nil_iff]
  intro entry member
  have after := le_of_mem_placed member
  simp only [decide_eq_true_eq]
  omega

/-- The scan of the fragments lists those that are complete. -/
theorem scanParts_fragments
    (fragments : List Fragment)
    (pre : Bytes)
    (cut : Nat) :
    scanParts unmarshal (pre ++ (fragments.flatMap Fragment.bytes).take cut) pre.length =
      ((placed pre.length fragments).filter fun entry =>
        entry.1 + entry.2.size ≤ pre.length + cut).map (partInfo unmarshal) := by
  induction fragments generalizing pre cut with
  | nil =>
      have missing : readBoxHeader (pre ++ [].take cut) pre.length = none :=
        readBoxHeader_torn pre _ (by simp)
      simpa [placed] using scanParts_none missing
  | cons fragment fragments inductionHypothesis =>
      have length : (pre ++ fragment.bytes).length = pre.length + fragment.size := by
        rw [List.length_append, fragment.length_bytes]
      rw [List.flatMap_cons, scanParts_fragment, placed]
      by_cases complete : fragment.size ≤ cut
      · have same : pre.length + fragment.size + (cut - fragment.size) = pre.length + cut := by
          omega
        rw [if_pos complete, inductionHypothesis, length, same, List.filter_cons_of_pos
          (by simpa using complete), List.map_cons]
      · rw [if_neg complete, List.filter_cons_of_neg (by simpa using complete),
          filter_placed_eq_nil (by omega), List.map_nil]

/-- The parts of a truncated recording are its complete fragments. -/
theorem parseParts_take
    (recording : Recording)
    (cut : Nat) :
    parseParts unmarshal (recording.bytes.take cut) =
      (recording.completeBefore cut).map (partInfo unmarshal) := by
  have start : parseParts unmarshal (recording.bytes.take cut) =
      scanParts unmarshal (recording.bytes.take cut) 0 :=
    scanParts_scanInit 0
  have boxes := @scanParts_boxes unmarshal recording.initBoxes recording.notMoof
    [] (recording.fragments.flatMap Fragment.bytes) cut
  simp only [List.nil_append, List.length_nil] at boxes
  rw [start, Recording.bytes, Recording.initBytes, boxes, Recording.completeBefore,
    Recording.initBytes]
  split
  · rename_i reached
    rw [scanParts_fragments, Nat.add_sub_cancel' reached]
  · rename_i early
    rw [filter_placed_eq_nil (not_le.mp early), List.map_nil]

end

/-- For every recording and every place at which it is cut, a call that finds
nothing in the cache lists the positions of the fragments that lie completely
before the cut, in order. -/
theorem getFileIndex_truncated
    (unmarshal : Unmarshal)
    (recording : Recording)
    (cut : Nat)
    (cache : IndexLRUCache)
    (files : Files)
    (path : String)
    (cold : cache.lookup path = none)
    (stored : files path = some (recording.bytes.take cut)) :
    ∃ idx, (getFileIndex unmarshal cache files path).1 = .ok idx ∧
      idx.parts.map PartInfo.offset = (recording.completeBefore cut).map Prod.fst := by
  refine ⟨_, getFileIndex_of_cold cold stored, ?_⟩
  change (parseParts unmarshal (recording.bytes.take cut)).map PartInfo.offset = _
  rw [parseParts_take, List.map_map]
  rfl

/-- A recording with one init box and two fragments. -/
def twoFragments : Recording where
  initBoxes := [⟨[102, 116, 121, 112], [], rfl, by decide⟩]
  fragments :=
    [⟨⟨moof, [1], rfl, by decide⟩, ⟨mdat, [2], rfl, by decide⟩, rfl, rfl⟩,
      ⟨⟨moof, [3], rfl, by decide⟩, ⟨mdat, [4, 5], rfl, by decide⟩, rfl, rfl⟩]
  notMoof := by decide

/-- The last byte is missing. -/
theorem getFileIndex_truncated_last :
    ∃ idx, (getFileIndex (fun _ => none) (newIndexLRUCache 10)
        (fun _ => some (twoFragments.bytes.take 44)) "rec").1 = .ok idx ∧
      idx.parts.map PartInfo.offset = [8] := by
  obtain ⟨idx, answer, offsets⟩ := getFileIndex_truncated (fun _ => none) twoFragments 44
    (newIndexLRUCache 10) (fun _ => some (twoFragments.bytes.take 44)) "rec" rfl rfl
  exact ⟨idx, answer, offsets⟩

end Archive
end RuseonCore
