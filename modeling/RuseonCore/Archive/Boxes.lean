import RuseonCore.Archive.Truncation

/-!
# Indices of arbitrary sequences of boxes

A recording may hold boxes of other types between its fragments.  The index is to
list every `moof` box that has an `mdat` box directly behind it.  The scan reads
one header ahead after a `moof` box, and does not go back when it is not that of
an `mdat` box: it goes on in the payload of the box that it has looked at.
-/

namespace RuseonCore
namespace Archive

/-! ## What the index should be -/

/-- Size of the boxes before the first `moof` box. -/
def initSizeOf (boxes : List Box) : Nat :=
  ((boxes.takeWhile fun box => box.boxType ≠ moof).map Box.size).sum

/-- Positions of the `moof` boxes with an `mdat` box directly behind them, from a
position on. -/
def pairOffsets : Nat → List Box → List Nat
  | _, [] => []
  | pos, box :: boxes =>
      if box.boxType = moof ∧ boxes.head?.map Box.boxType = some mdat then
        pos :: pairOffsets (pos + box.size) boxes
      else pairOffsets (pos + box.size) boxes

/-- The index of a file that consists of the boxes. -/
structure FileIndex.Describes (idx : FileIndex) (boxes : List Box) : Prop where
  initSize : idx.initSize = initSizeOf boxes
  offsets : idx.parts.map PartInfo.offset = pairOffsets 0 boxes

/-- No `moof` box has a box other than `mdat` directly behind it. -/
def Paired (types : List Bytes) : Prop :=
  types.IsChain fun boxType next => boxType = moof → next = mdat

instance (types : List Bytes) : Decidable (Paired types) :=
  inferInstanceAs (Decidable (types.IsChain _))

theorem paired_cons_of_ne
    {boxType : Bytes}
    {types : List Bytes}
    (other : boxType ≠ moof) :
    Paired (boxType :: types) ↔ Paired types := by
  rw [Paired, List.isChain_cons]
  exact and_iff_right fun _ _ isMoof => absurd isMoof other

theorem paired_moof_cons
    {next : Bytes}
    {types : List Bytes} :
    Paired (moof :: next :: types) ↔ next = mdat ∧ Paired (next :: types) := by
  rw [Paired, List.isChain_cons_cons]
  exact and_congr_left' (imp_iff_right rfl)

theorem le_of_mem_pairOffsets
    {boxes : List Box}
    {pos offset : Nat}
    (member : offset ∈ pairOffsets pos boxes) :
    pos ≤ offset := by
  induction boxes generalizing pos with
  | nil => cases member
  | cons box boxes inductionHypothesis =>
      rw [pairOffsets] at member
      split at member
      · rcases List.mem_cons.mp member with rfl | later
        · exact le_rfl
        · have after := inductionHypothesis later
          omega
      · have after := inductionHypothesis member
        omega

/-! ## Scans of whole boxes -/

section

variable {unmarshal : Unmarshal}

theorem readBoxHeader_whole
    (pre tail : Bytes)
    (box : Box) :
    readBoxHeader (pre ++ (box.bytes ++ tail)) pre.length = some box.header := by
  have long := box.eight_le_size
  have read := @readBoxHeader_box pre tail box (box.bytes ++ tail).length
    (by rw [List.length_append, box.length_bytes]; omega)
  rwa [List.take_length] at read

theorem readFull_whole
    (pre tail : Bytes)
    (box : Box) :
    readFull (pre ++ (box.bytes ++ tail)) pre.length box.size = some box.bytes := by
  have read := @readFull_box pre tail box (box.bytes ++ tail).length
    (by rw [List.length_append, box.length_bytes]; omega)
  rwa [List.take_length] at read

/-- A box other than `moof` is skipped. -/
theorem scanParts_other
    (pre tail : Bytes)
    {box : Box}
    (other : box.boxType ≠ moof) :
    scanParts unmarshal (pre ++ (box.bytes ++ tail)) pre.length =
      scanParts unmarshal ((pre ++ box.bytes) ++ tail) (pre ++ box.bytes).length := by
  rw [scanParts_skip (readBoxHeader_whole pre tail box) box.valid_header other,
    length_append_box, List.append_assoc]
  rfl

/-- A fragment is listed, and the scan goes on as if it had not skipped the `mdat`
box yet. -/
theorem scanParts_pair
    (pre tail : Bytes)
    (fragment : Fragment) :
    scanParts unmarshal
        (pre ++ (fragment.moofBox.bytes ++ (fragment.mdatBox.bytes ++ tail))) pre.length =
      partInfo unmarshal (pre.length, fragment) ::
        scanParts unmarshal
          ((pre ++ fragment.moofBox.bytes) ++ (fragment.mdatBox.bytes ++ tail))
          (pre ++ fragment.moofBox.bytes).length := by
  have other : fragment.mdatBox.boxType ≠ moof := by
    rw [fragment.isMdat]
    decide
  have listed := @scanParts_fragment unmarshal pre tail fragment
    (fragment.bytes ++ tail).length
  have length : (fragment.bytes ++ tail).length = fragment.size + tail.length := by
    rw [List.length_append, fragment.length_bytes]
  rw [List.take_length, length, if_pos (by omega), Nat.add_sub_cancel_left,
    List.take_length] at listed
  rw [scanParts_other (pre ++ fragment.moofBox.bytes) tail other]
  simpa only [Fragment.bytes, List.append_assoc] using listed

/-- A `moof` box at the end of the file is not listed. -/
theorem scanParts_last
    (pre : Bytes)
    {box : Box}
    (isMoof : box.boxType = moof) :
    scanParts unmarshal (pre ++ (box.bytes ++ [])) pre.length = [] := by
  refine scanParts_moof_alone (readBoxHeader_whole pre [] box) box.valid_header isMoof
    (readFull_whole pre [] box) (readBoxHeader_end ?_)
  rw [List.append_nil, length_append_box]
  exact le_rfl

/-- Behind a `moof` box, the header of a box other than `mdat` is taken out of the
file, and the scan goes on in the payload. -/
theorem scanParts_derailed
    (pre tail : Bytes)
    {box next : Box}
    (isMoof : box.boxType = moof)
    (other : next.boxType ≠ mdat) :
    scanParts unmarshal (pre ++ (box.bytes ++ (next.bytes ++ tail))) pre.length =
      scanParts unmarshal (pre ++ (box.bytes ++ (next.bytes ++ tail)))
        (pre.length + box.size + 8) := by
  have nextRead := readBoxHeader_whole (pre ++ box.bytes) tail next
  rw [length_append_box, List.append_assoc] at nextRead
  have full : readFull (pre ++ (box.bytes ++ (next.bytes ++ tail))) pre.length
      box.header.size = some box.bytes := readFull_whole pre _ box
  have behind : readBoxHeader (pre ++ (box.bytes ++ (next.bytes ++ tail)))
      (pre.length + box.header.size) = some next.header := nextRead
  rw [scanParts_moof (readBoxHeader_whole pre _ box) box.valid_header isMoof, full]
  dsimp only
  rw [behind]
  exact if_neg fun isMdat => other isMdat.1

/-- The first scan stops at a `moof` box. -/
theorem scanInit_moof
    (pre tail : Bytes)
    {box : Box}
    (isMoof : box.boxType = moof)
    (initSize : Nat) :
    scanInit (pre ++ (box.bytes ++ tail)) pre.length initSize = initSize := by
  have stop : initStep (pre ++ (box.bytes ++ tail)) pre.length initSize = none := by
    rw [initStep, readBoxHeader_whole pre tail box]
    exact (if_pos box.valid_header).trans (if_pos isMoof)
  rw [scanInit_eq_step, stop]

/-- The first scan counts the size of another box. -/
theorem scanInit_other
    (pre tail : Bytes)
    {box : Box}
    (other : box.boxType ≠ moof)
    (initSize : Nat) :
    scanInit (pre ++ (box.bytes ++ tail)) pre.length initSize =
      scanInit ((pre ++ box.bytes) ++ tail) (pre ++ box.bytes).length
        (initSize + box.size) := by
  have skip : initStep (pre ++ (box.bytes ++ tail)) pre.length initSize =
      some (pre.length + box.size, initSize + box.size) := by
    rw [initStep, readBoxHeader_whole pre tail box]
    exact (if_pos box.valid_header).trans (if_neg other)
  rw [scanInit_eq_step, skip, length_append_box, List.append_assoc]

/-- The first scan stops at the first `moof` box. -/
theorem scanInit_boxes
    (boxes : List Box)
    (pre : Bytes)
    (initSize : Nat) :
    scanInit (pre ++ boxes.flatMap Box.bytes) pre.length initSize =
      initSize + initSizeOf boxes := by
  induction boxes generalizing pre initSize with
  | nil =>
      have missing : readBoxHeader (pre ++ []) pre.length = none :=
        readBoxHeader_torn pre [] (by decide)
      rw [List.flatMap_nil, scanInit_eq_step, initStep, missing]
      rfl
  | cons box boxes inductionHypothesis =>
      rw [List.flatMap_cons]
      by_cases isMoof : box.boxType = moof
      · rw [scanInit_moof pre _ isMoof]
        simp [initSizeOf, isMoof]
      · rw [scanInit_other pre _ isMoof, inductionHypothesis]
        simp [initSizeOf, isMoof, Nat.add_assoc]

/-- The scan lists the pairs if every `moof` box belongs to one. -/
theorem scanParts_paired
    {boxes : List Box}
    (paired : Paired (boxes.map Box.boxType))
    (pre : Bytes) :
    (scanParts unmarshal (pre ++ boxes.flatMap Box.bytes) pre.length).map
        PartInfo.offset =
      pairOffsets pre.length boxes := by
  induction boxes generalizing pre with
  | nil =>
      have missing : readBoxHeader (pre ++ []) pre.length = none :=
        readBoxHeader_torn pre [] (by decide)
      rw [List.flatMap_nil, scanParts_none missing]
      rfl
  | cons box boxes inductionHypothesis =>
      rw [List.flatMap_cons, pairOffsets]
      by_cases isMoof : box.boxType = moof
      · cases boxes with
        | nil =>
            rw [List.flatMap_nil, scanParts_last pre isMoof]
            simp [pairOffsets]
        | cons next boxes =>
            rw [List.map_cons, isMoof, List.map_cons, paired_moof_cons] at paired
            obtain ⟨isMdat, rest⟩ := paired
            rw [if_pos ⟨isMoof, congrArg some isMdat⟩, List.flatMap_cons,
              scanParts_pair pre _ ⟨box, next, isMoof, isMdat⟩, List.map_cons,
              ← length_append_box]
            exact congrArg _ (inductionHypothesis rest (pre ++ box.bytes))
      · rw [List.map_cons, paired_cons_of_ne isMoof] at paired
        rw [if_neg fun both => isMoof both.1, scanParts_other pre _ isMoof,
          ← length_append_box]
        exact inductionHypothesis paired (pre ++ box.bytes)

/-! ## Misread payloads -/

theorem length_moof : moof.length = 4 := rfl

theorem length_mdat : mdat.length = 4 := rfl

theorem nil_small : ([] : Bytes).length + minBoxHeaderSize ≤ maxBoxSize := by
  decide

/-- A box without a payload. -/
def emptyBox (boxType : Bytes) (typed : boxType.length = 4) : Box :=
  ⟨boxType, [], typed, nil_small⟩

/-- The smallest fragment. -/
def emptyFragment : Fragment :=
  ⟨emptyBox moof length_moof, emptyBox mdat length_mdat, rfl, rfl⟩

/-- A box whose payload reads as a fragment. -/
def forgedBox (boxType : Bytes) (typed : boxType.length = 4) : Box :=
  ⟨boxType, emptyFragment.bytes, typed, by decide⟩

theorem exists_boxes
    (types : List Bytes)
    (typed : ∀ boxType ∈ types, boxType.length = 4) :
    ∃ boxes : List Box, boxes.map Box.boxType = types := by
  induction types with
  | nil => exact ⟨[], rfl⟩
  | cons boxType types inductionHypothesis =>
      obtain ⟨boxes, same⟩ := inductionHypothesis fun other member =>
        typed other (List.mem_cons_of_mem boxType member)
      exact ⟨emptyBox boxType (typed boxType List.mem_cons_self) :: boxes,
        congrArg (boxType :: ·) same⟩

/-- The scan lists a position that is not that of a pair. -/
def Misread (unmarshal : Unmarshal) (pre : Bytes) (boxes : List Box) : Prop :=
  ∃ offset, pre.length ≤ offset ∧
    offset ∈ (scanParts unmarshal (pre ++ boxes.flatMap Box.bytes) pre.length).map
      PartInfo.offset ∧
    offset ∉ pairOffsets pre.length boxes

theorem Misread.other
    {pre : Bytes}
    {box : Box}
    {boxes : List Box}
    (misread : Misread unmarshal (pre ++ box.bytes) boxes)
    (other : box.boxType ≠ moof) :
    Misread unmarshal pre (box :: boxes) := by
  obtain ⟨offset, later, listed, missing⟩ := misread
  rw [length_append_box] at later missing
  refine ⟨offset, by omega, ?_, ?_⟩
  · rw [List.flatMap_cons, scanParts_other pre _ other]
    exact listed
  · rw [pairOffsets, if_neg fun both => other both.1]
    exact missing

theorem Misread.pair
    {pre : Bytes}
    {box next : Box}
    {boxes : List Box}
    (misread : Misread unmarshal (pre ++ box.bytes) (next :: boxes))
    (isMoof : box.boxType = moof)
    (isMdat : next.boxType = mdat) :
    Misread unmarshal pre (box :: next :: boxes) := by
  obtain ⟨offset, later, listed, missing⟩ := misread
  have long := box.eight_le_size
  rw [length_append_box] at later missing
  refine ⟨offset, by omega, ?_, ?_⟩
  · rw [List.flatMap_cons, List.flatMap_cons,
      scanParts_pair pre _ ⟨box, next, isMoof, isMdat⟩]
    exact List.mem_cons_of_mem _ listed
  · rw [pairOffsets, if_pos ⟨isMoof, congrArg some isMdat⟩, List.mem_cons, not_or]
    exact ⟨by omega, missing⟩

/-- A fragment in the payload of a box is listed when the box is behind a `moof`
box. -/
theorem misread_forgedBox
    {boxType : Bytes}
    (typed : boxType.length = 4)
    (other : boxType ≠ mdat)
    (boxes : List Box)
    (pre : Bytes) :
    Misread unmarshal pre
      (emptyBox moof length_moof :: forgedBox boxType typed :: boxes) := by
  refine ⟨pre.length + 16, Nat.le_add_right _ _, ?_, ?_⟩
  · -- The scan starts anew behind the header of the forged box.
    let opening := pre ++ (emptyBox moof length_moof).bytes ++
      (ByteBuffer.encode 4 (forgedBox boxType typed).size ++ boxType)
    have length : opening.length = pre.length + 16 := by
      simp only [opening, List.length_append, Box.length_bytes, ByteBuffer.length_encode,
        typed]
      rfl
    have same : pre ++ ((emptyBox moof length_moof).bytes ++
        ((forgedBox boxType typed).bytes ++ boxes.flatMap Box.bytes)) =
        opening ++ (emptyFragment.moofBox.bytes ++
          (emptyFragment.mdatBox.bytes ++ boxes.flatMap Box.bytes)) := by
      have forged : (forgedBox boxType typed).bytes =
          ByteBuffer.encode 4 (forgedBox boxType typed).size ++ boxType ++
            (emptyFragment.moofBox.bytes ++ emptyFragment.mdatBox.bytes) := rfl
      rw [forged]
      simp only [opening, List.append_assoc]
    have position : pre.length + (emptyBox moof length_moof).size + 8 = opening.length :=
      length.symm
    have isMoof : (emptyBox moof length_moof).boxType = moof := rfl
    have notMdat : (forgedBox boxType typed).boxType ≠ mdat := other
    rw [List.flatMap_cons, List.flatMap_cons, scanParts_derailed pre _ isMoof notMdat, same,
      position, scanParts_pair, List.map_cons, ← length]
    exact List.mem_cons_self
  · intro member
    rw [pairOffsets, if_neg fun both => other (Option.some.inj both.2), pairOffsets] at member
    have moofSize : (emptyBox moof length_moof).size = 8 := rfl
    have forgedSize : (forgedBox boxType typed).size = 24 := rfl
    rw [moofSize, forgedSize] at member
    split at member
    · rcases List.mem_cons.mp member with same | later
      · omega
      · have after := le_of_mem_pairOffsets later
        omega
    · have after := le_of_mem_pairOffsets member
      omega

/-- A sequence of types with a `moof` box that does not belong to a pair has a file
that is misread. -/
theorem exists_misread
    {types : List Bytes}
    (typed : ∀ boxType ∈ types, boxType.length = 4)
    (unpaired : ¬ Paired types)
    (pre : Bytes) :
    ∃ boxes : List Box, boxes.map Box.boxType = types ∧ Misread unmarshal pre boxes := by
  induction types generalizing pre with
  | nil => exact absurd List.IsChain.nil unpaired
  | cons boxType types inductionHypothesis =>
      have known := typed boxType List.mem_cons_self
      have others : ∀ other ∈ types, other.length = 4 := fun other member =>
        typed other (List.mem_cons_of_mem boxType member)
      by_cases isMoof : boxType = moof
      · subst isMoof
        cases types with
        | nil => exact absurd (List.isChain_singleton _) unpaired
        | cons next types =>
            by_cases isMdat : next = mdat
            · have rest : ¬ Paired (next :: types) := fun paired =>
                unpaired (paired_moof_cons.mpr ⟨isMdat, paired⟩)
              obtain ⟨boxes, same, misread⟩ := inductionHypothesis others rest
                (pre ++ (emptyBox moof length_moof).bytes)
              obtain ⟨box, boxes, rfl, isNext, same⟩ := List.map_eq_cons_iff.mp same
              exact ⟨emptyBox moof length_moof :: box :: boxes,
                congrArg (moof :: ·) (congrArg₂ _ isNext same),
                misread.pair rfl (isNext.trans isMdat)⟩
            · obtain ⟨boxes, same⟩ := exists_boxes types fun other member =>
                others other (List.mem_cons_of_mem next member)
              have nextTyped := others next List.mem_cons_self
              exact ⟨emptyBox moof length_moof :: forgedBox next nextTyped :: boxes,
                congrArg (fun rest => moof :: next :: rest) same,
                misread_forgedBox nextTyped isMdat boxes pre⟩
      · have rest : ¬ Paired types := fun paired =>
          unpaired ((paired_cons_of_ne isMoof).mpr paired)
        obtain ⟨boxes, same, misread⟩ := inductionHypothesis others rest
          (pre ++ (emptyBox boxType known).bytes)
        exact ⟨emptyBox boxType known :: boxes, congrArg (boxType :: ·) same,
          misread.other isMoof⟩

end

/-- All files of boxes of given types are indexed as they should exactly if no
`moof` box has a box other than `mdat` directly behind it. -/
theorem boxes_indexed_iff
    (unmarshal : Unmarshal)
    (types : List Bytes)
    (typed : ∀ boxType ∈ types, boxType.length = 4) :
    (∀ boxes : List Box, boxes.map Box.boxType = types →
      ∀ (cache : IndexLRUCache) (files : Files) (path : String),
        cache.lookup path = none → files path = some (boxes.flatMap Box.bytes) →
          ∃ idx, (getFileIndex unmarshal cache files path).1 = .ok idx ∧
            idx.Describes boxes) ↔
      Paired types := by
  have index : ∀ boxes : List Box,
      (parseIndex unmarshal (boxes.flatMap Box.bytes)).initSize = initSizeOf boxes :=
    fun boxes => (scanInit_boxes boxes [] 0).trans (Nat.zero_add _)
  have parts : ∀ boxes : List Box,
      (parseIndex unmarshal (boxes.flatMap Box.bytes)).parts =
        scanParts unmarshal (boxes.flatMap Box.bytes) 0 := fun _ => scanParts_scanInit 0
  constructor
  · intro indexed
    by_contra unpaired
    obtain ⟨boxes, same, offset, -, listed, missing⟩ :=
      @exists_misread unmarshal types typed unpaired []
    obtain ⟨idx, answer, describes⟩ := indexed boxes same (newIndexLRUCache 1)
      (fun _ => some (boxes.flatMap Box.bytes)) "" rfl rfl
    rw [getFileIndex_of_cold rfl rfl] at answer
    have offsets := describes.offsets
    rw [← Except.ok.inj answer, parts] at offsets
    rw [List.nil_append, List.length_nil, offsets] at listed
    exact missing listed
  · intro paired boxes same cache files path cold stored
    refine ⟨_, getFileIndex_of_cold cold stored, index boxes, ?_⟩
    rw [parts]
    exact scanParts_paired (same ▸ paired) []

/-- Type of the box at the start of a file. -/
def ftyp : Bytes := [102, 116, 121, 112]

/-- Two fragments with a `free` box between them. -/
def spacedBoxes : List Box :=
  [emptyBox ftyp rfl, emptyFragment.moofBox, emptyFragment.mdatBox,
    forgedBox [102, 114, 101, 101] rfl, emptyFragment.moofBox, emptyFragment.mdatBox]

theorem boxes_indexed_iff_spaced :
    ∃ idx, (getFileIndex (fun _ => none) (newIndexLRUCache 1)
        (fun _ => some (spacedBoxes.flatMap Box.bytes)) "rec").1 = .ok idx ∧
      idx.Describes spacedBoxes :=
  (boxes_indexed_iff (fun _ => none) (spacedBoxes.map Box.boxType) (by decide)).mpr
    (by decide) spacedBoxes rfl (newIndexLRUCache 1) _ "rec" rfl rfl

/-- A `moof` box whose samples were not written, with a fragment behind it.  The
`moof` box of the fragment holds an `mfhd` box, as the format requires. -/
def abandonedMoof : List Box :=
  [emptyBox ftyp rfl, emptyFragment.moofBox,
    ⟨moof, [0, 0, 0, 16, 109, 102, 104, 100, 0, 0, 0, 0, 0, 0, 0, 1], length_moof,
      by decide⟩,
    emptyFragment.mdatBox]

/-- The fragment is not listed: the scan looks at its header, goes on with the
`mfhd` box in it, and skips the `mdat` box. -/
theorem fragment_behind_moof_lost :
    ∃ idx, (getFileIndex (fun _ => none) (newIndexLRUCache 1)
        (fun _ => some (abandonedMoof.flatMap Box.bytes)) "rec").1 = .ok idx ∧
      idx.parts = [] ∧ pairOffsets 0 abandonedMoof = [16] ∧
      ¬ idx.Describes abandonedMoof := by
  refine ⟨_, rfl, ?_, ?_, ?_⟩
  · decide +kernel
  · decide
  · intro describes
    have offsets := describes.offsets
    revert offsets
    decide +kernel

end Archive
end RuseonCore
