import RuseonCore.Foundation.Bytes

/-!
# Index of a recording

Model of the parsing half of `getFileIndex` in `internal/archive/hls.go`: the
boxes at the start of the file are skipped up to the first fragment, and every
`moof` box that is followed by an `mdat` box becomes a part.  A file is a list of
bytes, and the position in it is passed along; seeking does not fail.  The
third-party parser of fragments is a parameter.
-/

namespace RuseonCore
namespace Archive

/-- Contents of a file. -/
abbrev Bytes := List UInt8

/-- `fmp4.Parts.Unmarshal`: for each part, the durations of the samples of each
track, or `none` with an error. -/
abbrev Unmarshal := Bytes → Option (List (List (List UInt32)))

/-- A fragment: position of its `moof` box, and its duration. -/
structure PartInfo where
  offset : Nat
  duration : UInt32
  deriving DecidableEq

/-- Extent of the boxes before the first fragment, and the fragments. -/
structure FileIndex where
  initOffset : Nat
  initSize : Nat
  parts : List PartInfo
  deriving DecidableEq

def minBoxHeaderSize : Nat := 8

def maxBoxSize : Nat := 64 * 1024 * 1024

/-- Type of a box, as its four bytes, and its size. -/
structure BoxHeader where
  boxType : Bytes
  size : Nat
  deriving DecidableEq

/-- Type of the boxes that describe a fragment. -/
def moof : Bytes := [109, 111, 111, 102]

/-- Type of the boxes with the samples of a fragment. -/
def mdat : Bytes := [109, 100, 97, 116]

/-- `io.ReadFull` of the given number of bytes at a position. -/
def readFull (contents : Bytes) (pos count : Nat) : Option Bytes :=
  if pos + count ≤ contents.length then some ((contents.drop pos).take count) else none

/-- Read the header of the box at a position. -/
def readBoxHeader (contents : Bytes) (pos : Nat) : Option BoxHeader :=
  (readFull contents pos 8).map fun header =>
    ⟨(header.drop 4).take 4, ByteBuffer.decode (header.take 4)⟩

/-- A size that the scans accept. -/
def BoxHeader.Valid (header : BoxHeader) : Prop :=
  minBoxHeaderSize ≤ header.size ∧ header.size ≤ maxBoxSize

instance (header : BoxHeader) : Decidable header.Valid := by
  unfold BoxHeader.Valid
  infer_instance

theorem readFull_eq_some
    {contents bytes : Bytes}
    {pos count : Nat}
    (read : readFull contents pos count = some bytes) :
    pos + count ≤ contents.length := by
  unfold readFull at read
  split at read
  · assumption
  · cases read

theorem readBoxHeader_eq_some
    {contents : Bytes}
    {pos : Nat}
    {header : BoxHeader}
    (read : readBoxHeader contents pos = some header) :
    pos + 8 ≤ contents.length := by
  obtain ⟨bytes, full, _⟩ := Option.map_eq_some_iff.mp read
  exact readFull_eq_some full

/-! ## The loops -/

/-- One iteration of the first loop, with the position and the size of the boxes so
far; `none` ends the loop. -/
def initStep (contents : Bytes) (pos initSize : Nat) : Option (Nat × Nat) :=
  match readBoxHeader contents pos with
  | none => none
  | some header =>
      if header.Valid then
        if header.boxType = moof then none
        else some (pos + header.size, initSize + header.size)
      else none

/-- The first loop goes on behind a box of an accepted size. -/
theorem initStep_eq_some
    {contents : Bytes}
    {pos initSize : Nat}
    {next : Nat × Nat}
    (taken : initStep contents pos initSize = some next) :
    ∃ header, readBoxHeader contents pos = some header ∧ header.Valid ∧
      header.boxType ≠ moof ∧ next = (pos + header.size, initSize + header.size) := by
  unfold initStep at taken
  split at taken
  · cases taken
  · rename_i header read
    rw [Option.ite_none_right_eq_some, Option.ite_none_left_eq_some] at taken
    exact ⟨header, read, taken.1, taken.2.1, (Option.some.inj taken.2.2).symm⟩

/-- An iteration of the first loop reads a header that is in the file, and goes on
behind it. -/
theorem initStep_advances
    {contents : Bytes}
    {pos initSize : Nat}
    {next : Nat × Nat}
    (taken : initStep contents pos initSize = some next) :
    pos + 8 ≤ contents.length ∧ pos + 8 ≤ next.1 := by
  obtain ⟨header, read, valid, -, rfl⟩ := initStep_eq_some taken
  have positive : 8 ≤ header.size := valid.1
  exact ⟨readBoxHeader_eq_some read, by omega⟩

/-- Size of the boxes before the first fragment, from a position on. -/
def scanInit (contents : Bytes) (pos initSize : Nat) : Nat :=
  match _ : initStep contents pos initSize with
  | none => initSize
  | some next => scanInit contents next.1 next.2
termination_by contents.length - pos
decreasing_by
  have advanced := initStep_advances ‹_›
  omega

/-- Duration of a fragment: the sum over the samples of its first track, or one
second. -/
def partDuration (unmarshal : Unmarshal) (combined : Bytes) : UInt32 :=
  match unmarshal combined with
  | some (part :: _) =>
      let parsedDur := (part.headD []).foldl (· + ·) 0
      if parsedDur > 0 then parsedDur else 90000
  | _ => 90000

/-- One iteration of the second loop: the part that it lists, if any, and the
position at which the next one begins; `none` ends the loop.  When the header after
a `moof` box is not that of an `mdat` box, the loop goes on after the eight bytes of
the header, and after a header that is cut off, at the end of the file. -/
def partsStep (unmarshal : Unmarshal) (contents : Bytes) (offset : Nat) :
    Option (Option PartInfo × Nat) :=
  match readBoxHeader contents offset with
  | none => none
  | some header =>
      if header.Valid then
        if header.boxType = moof then
          match readFull contents offset header.size with
          | none => none
          | some moofData =>
              let mdatOffset := offset + header.size
              match readBoxHeader contents mdatOffset with
              | none => some (none, contents.length)
              | some next =>
                  if next.boxType = mdat ∧ next.Valid then
                    match readFull contents mdatOffset next.size with
                    | none => none
                    | some mdatData =>
                        some (some ⟨offset, partDuration unmarshal (moofData ++ mdatData)⟩,
                          mdatOffset + next.size)
                  else some (none, mdatOffset + minBoxHeaderSize)
        else some (none, offset + header.size)
      else none

/-- A `moof` box and an `mdat` box directly behind it fill the file from one position
to another. -/
def PairAt (contents : Bytes) (offset stop : Nat) : Prop :=
  ∃ first second : BoxHeader,
    readBoxHeader contents offset = some first ∧ first.boxType = moof ∧ first.Valid ∧
    readBoxHeader contents (offset + first.size) = some second ∧
      second.boxType = mdat ∧ second.Valid ∧
    offset + first.size + second.size = stop ∧ stop ≤ contents.length

/-- An iteration of the second loop reads a header that is in the file, goes on behind
it, and lists at most the pair of boxes that it has passed. -/
theorem partsStep_eq_some
    {unmarshal : Unmarshal}
    {contents : Bytes}
    {offset : Nat}
    {part : Option PartInfo}
    {next : Nat}
    (taken : partsStep unmarshal contents offset = some (part, next)) :
    offset + 8 ≤ contents.length ∧ offset + 8 ≤ next ∧
      ∀ listed ∈ part, listed.offset = offset ∧ PairAt contents offset next := by
  unfold partsStep at taken
  split at taken
  · cases taken
  · rename_i header read
    have within := readBoxHeader_eq_some read
    split at taken
    · rename_i valid
      have positive : 8 ≤ header.size := valid.1
      split at taken
      · rename_i isMoof
        split at taken
        · cases taken
        · dsimp only at taken
          split at taken
          · obtain ⟨rfl, rfl⟩ := Prod.mk.inj (Option.some.inj taken)
            exact ⟨within, within, by simp⟩
          · rename_i second secondRead
            split at taken
            · rename_i isMdat
              split at taken
              · cases taken
              · rename_i mdatData full
                obtain ⟨rfl, rfl⟩ := Prod.mk.inj (Option.some.inj taken)
                refine ⟨within, by omega, ?_⟩
                intro listed isListed
                rw [← Option.some.inj isListed]
                exact ⟨rfl, header, second, read, isMoof, valid, secondRead, isMdat.1,
                  isMdat.2, rfl, readFull_eq_some full⟩
            · obtain ⟨rfl, rfl⟩ := Prod.mk.inj (Option.some.inj taken)
              exact ⟨within, by omega, by simp⟩
      · obtain ⟨rfl, rfl⟩ := Prod.mk.inj (Option.some.inj taken)
        exact ⟨within, by omega, by simp⟩
    · cases taken

/-- Fragments from a position on. -/
def scanParts (unmarshal : Unmarshal) (contents : Bytes) (offset : Nat) :
    List PartInfo :=
  match _ : partsStep unmarshal contents offset with
  | none => []
  | some (part, next) => part.toList ++ scanParts unmarshal contents next
termination_by contents.length - offset
decreasing_by
  have advanced := partsStep_eq_some ‹_›
  omega

theorem scanInit_eq_step (contents : Bytes) (pos initSize : Nat) :
    scanInit contents pos initSize =
      match initStep contents pos initSize with
      | none => initSize
      | some next => scanInit contents next.1 next.2 := by
  rw [scanInit]
  split <;> simp_all only

theorem scanParts_eq_step (unmarshal : Unmarshal) (contents : Bytes) (offset : Nat) :
    scanParts unmarshal contents offset =
      match partsStep unmarshal contents offset with
      | none => []
      | some (part, next) => part.toList ++ scanParts unmarshal contents next := by
  rw [scanParts]
  split <;> simp_all only

/-- The index of a file. -/
def parseIndex (unmarshal : Unmarshal) (contents : Bytes) : FileIndex :=
  let initSize := scanInit contents 0 0
  { initOffset := 0
    initSize := initSize
    parts := scanParts unmarshal contents initSize }

end Archive
end RuseonCore
