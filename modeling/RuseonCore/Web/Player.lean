import RuseonCore.Api.StreamWS

/-!
# The WebCodecs player

Model of the message handler of `WebCodecsPlayerV2.tsx`: the parser of header
packets, the parser of data packets and `annexBToAvcc`, which replaces every
start code by the length of the NAL unit behind it.  The start codes it finds
are those that separate the NAL units, as long as no NAL unit contains one.
-/

namespace RuseonCore
namespace Player

open StreamWS ByteBuffer

/-- What the header parser takes out of a header packet. -/
structure StreamHeader where
  codecType : UInt8
  sps : List UInt8
  pps : List UInt8
  deriving DecidableEq

/-- What is handed to the decoder for a data packet. -/
structure EncodedVideoChunk where
  key : Bool
  timestamp : Nat
  data : List UInt8
  deriving DecidableEq

/-- Effect of a message: nothing, a new decoder, a configuration error, an
exception that leaves the handler, or a chunk for the decoder. -/
inductive Effect where
  | ignored
  | configure (header : StreamHeader)
  | configError
  | uncaught
  | decode (chunk : EncodedVideoChunk)
  deriving DecidableEq

/-- `Number` of a big integer: the nearest number with 53 binary digits, the even
one of two. -/
def number (n : Nat) : Nat :=
  if n < 2 ^ 53 then n
  else
    let unit := 2 ^ (n.log2 - 52)
    let digits := n / unit
    let rest := n % unit
    if unit < 2 * rest ∨ unit = 2 * rest ∧ digits % 2 = 1 then (digits + 1) * unit
    else digits * unit

/-- The parser of header packets; reads beyond the packet throw. -/
def parseHeader (data : List UInt8) : Option StreamHeader := do
  let codecType ← data[1]?
  let offset := 2
  let vpsLen ← read data offset 2
  let offset := offset + 2
  let offset := offset + vpsLen
  let spsLen ← read data offset 2
  let offset := offset + 2
  let spsBytes := (data.drop offset).take spsLen
  let offset := offset + spsLen
  let ppsLen ← read data offset 2
  let offset := offset + 2
  let ppsBytes := (data.drop offset).take ppsLen
  return ⟨codecType, spsBytes, ppsBytes⟩

/-- A start code begins at the position. -/
def startCodeAt (annexB : List UInt8) (i : Nat) : Bool :=
  annexB[i]? == some 0 && annexB[i + 1]? == some 0 && annexB[i + 2]? == some 0 &&
    annexB[i + 3]? == some 1

/-- Push the NAL unit that ends at a position, if one has begun. -/
def pushNalu (naluPositions : List Nat) (start : Option Nat) (stop : Nat) : List Nat :=
  match start with
  | some start => naluPositions ++ [start, stop]
  | none => naluPositions

/-- The scan for start codes: begin and end of every NAL unit, one after the
other.  The loop steps over a start code it has found. -/
def findPositions (annexB : List UInt8) (i : Nat) (start : Option Nat)
    (naluPositions : List Nat) : List Nat :=
  if i + 3 < annexB.length then
    if startCodeAt annexB i then
      findPositions annexB (i + 3 + 1) (some i) (pushNalu naluPositions start i)
    else findPositions annexB (i + 1) start naluPositions
  else pushNalu naluPositions start annexB.length
termination_by annexB.length - i

/-- `(value >> shift) & 0xff` on 32-bit signed integers. -/
def shiftedByte (value : Int) (shift : Nat) : UInt8 :=
  UInt8.ofNat ((BitVec.ofInt 32 value).sshiftRight shift &&& 0xff#32).toNat

/-- Overwrite the start codes with the lengths of their NAL units. -/
def writeLengths : List UInt8 → List Nat → List UInt8
  | output, pos :: stop :: naluPositions =>
      let naluLen : Int := stop - (pos + 4)
      let output := output.set pos (shiftedByte naluLen 24)
      let output := output.set (pos + 1) (shiftedByte naluLen 16)
      let output := output.set (pos + 2) (shiftedByte naluLen 8)
      let output := output.set (pos + 3) (shiftedByte naluLen 0)
      writeLengths output naluPositions
  | output, _ => output

/-- Turn start codes into length prefixes. -/
def annexBToAvcc (annexB : List UInt8) : List UInt8 :=
  writeLengths annexB (findPositions annexB 0 none [])

/-- The parser of data packets. -/
def parseData (data : List UInt8) : Option EncodedVideoChunk := do
  let isKeyFrame := data[1]? == some 1
  let timestampMicro ← read data 2 8
  let rawAnnexB := data.drop 10
  return ⟨isKeyFrame, number timestampMicro, annexBToAvcc rawAnnexB⟩

/-- The message handler; chunks are decoded only by a configured decoder. -/
def onMessage (configured : Bool) (data : List UInt8) : Effect :=
  if data.length < 2 then .ignored
  else if data[0]? == some 0x01 then
    match parseHeader data with
    | some header => .configure header
    | none => .configError
  else if data[0]? == some 0x02 then
    if !configured then .ignored
    else
      match parseData data with
      | some chunk => .decode chunk
      | none => .uncaught
  else .ignored

/-! ## Length prefixes -/

/-- A byte of a length, as a digit. -/
theorem shiftedByte_eq
    (length shift : Nat)
    (small : shift ≤ 24) :
    shiftedByte length shift = UInt8.ofNat (length / 2 ^ shift) := by
  apply UInt8.toNat_inj.mp
  rw [shiftedByte, UInt8.toNat_ofNat', UInt8.toNat_ofNat', BitVec.ofInt_natCast]
  apply Nat.eq_of_testBit_eq
  intro i
  rw [Nat.testBit_mod_two_pow, Nat.testBit_mod_two_pow, BitVec.testBit_toNat,
    Nat.testBit_div_two_pow, BitVec.getLsbD_and, BitVec.getLsbD_sshiftRight]
  by_cases low : i < 8
  · have mask : (0xff#32).getLsbD i = true := by
      interval_cases i <;> decide
    have inside : shift + i < 32 := by omega
    have word : ¬ 32 ≤ i := by omega
    have bit : (BitVec.ofNat 32 length).getLsbD (shift + i) = length.testBit (shift + i) := by
      rw [BitVec.getLsbD_ofNat, decide_eq_true inside, Bool.true_and]
    rw [mask, if_pos inside, bit, decide_eq_false word, Nat.add_comm i shift]
    simp
  · simp [low]

/-- The four bytes of a length prefix. -/
theorem encode_four (n : Nat) :
    encode 4 n = [UInt8.ofNat (n / 2 ^ 24), UInt8.ofNat (n / 2 ^ 16),
      UInt8.ofNat (n / 2 ^ 8), UInt8.ofNat (n / 2 ^ 0)] := by
  simp [encode, Nat.div_div_eq_div_mul]

/-- Assigning four bytes replaces the start code they stand for. -/
theorem set_startCode
    (done rest : List UInt8)
    (first second third fourth : UInt8) :
    ((((done ++ (annexBHeader ++ rest)).set done.length first).set
        (done.length + 1) second).set (done.length + 2) third).set
          (done.length + 3) fourth =
      done ++ ([first, second, third, fourth] ++ rest) := by
  simp [annexBHeader]

/-- NAL units in AVCC form. -/
def avcc (nalus : List (List UInt8)) : List UInt8 :=
  (nalus.map fun nalu => encode 4 nalu.length ++ nalu).flatten

@[simp] theorem avcc_nil : avcc [] = [] := rfl

@[simp] theorem avcc_cons (nalu : List UInt8) (nalus : List (List UInt8)) :
    avcc (nalu :: nalus) = encode 4 nalu.length ++ nalu ++ avcc nalus := rfl

/-- Begin and end of the NAL units from a position on. -/
def bounds : Nat → List (List UInt8) → List Nat
  | _, [] => []
  | pos, nalu :: nalus =>
      pos :: (pos + 4 + nalu.length) :: bounds (pos + 4 + nalu.length) nalus

/-- Writing the lengths at the right places turns one form into the other. -/
theorem writeLengths_bounds (done : List UInt8) (nalus : List (List UInt8)) :
    writeLengths (done ++ annexB nalus) (bounds done.length nalus) = done ++ avcc nalus := by
  induction nalus generalizing done with
  | nil => rfl
  | cons nalu nalus inductionHypothesis =>
      have length : ((done.length + 4 + nalu.length : Nat) : Int) - (done.length + 4) =
          (nalu.length : Nat) := by
        push_cast
        ring
      have digit : ∀ shift ≤ 24, shiftedByte nalu.length shift =
          UInt8.ofNat (nalu.length / 2 ^ shift) := shiftedByte_eq nalu.length
      have place : done.length + 4 + nalu.length =
          (done ++ (encode 4 nalu.length ++ nalu)).length := by
        simp
        omega
      rw [bounds, writeLengths, length, annexB_cons, List.append_assoc annexBHeader,
        set_startCode, digit 24 (by decide), digit 16 (by decide), digit 8 (by decide),
        digit 0 (by decide), ← encode_four, ← List.append_assoc (encode 4 _),
        ← List.append_assoc done, place, inductionHypothesis, avcc_cons, List.append_assoc]

/-! ## The scan -/

theorem startCodeAt_iff (annexB : List UInt8) (i : Nat) :
    startCodeAt annexB i = true ↔ annexBHeader <+: annexB.drop i := by
  have here : annexB[i]? = (annexB.drop i)[0]? := by
    rw [List.getElem?_drop, Nat.add_zero]
  rw [startCodeAt, here, ← List.getElem?_drop, ← List.getElem?_drop, ← List.getElem?_drop]
  match annexB.drop i with
  | [] | [_] | [_, _] | [_, _, _] => simp [annexBHeader]
  | first :: second :: third :: fourth :: others =>
      grind [annexBHeader]

/-- No start code begins in a NAL unit that contains none, also not one that ends
with the zeros of the next start code. -/
theorem not_startCode_prefix
    {nalu after : List UInt8}
    (nonempty : nalu ≠ [])
    (clean : ¬ annexBHeader <:+: nalu)
    (separated : after = [] ∨ annexBHeader <+: after) :
    ¬ annexBHeader <+: nalu ++ after := by
  intro starts
  rcases separated with rfl | ⟨rest, rfl⟩
  · rw [List.append_nil] at starts
    exact clean starts.isInfix
  · match nalu with
    | [] => exact nonempty rfl
    | [_] | [_, _] | [_, _, _] => simp [annexBHeader] at starts
    | first :: second :: third :: fourth :: others =>
        have whole : annexBHeader <+: first :: second :: third :: fourth :: others := by
          simpa [annexBHeader] using starts
        exact clean whole.isInfix

/-- The scan passes over a NAL unit. -/
theorem findPositions_nalu
    {nalu after : List UInt8}
    (before : List UInt8)
    (clean : ¬ annexBHeader <:+: nalu)
    (separated : after = [] ∨ annexBHeader <+: after)
    (start : Option Nat)
    (naluPositions : List Nat) :
    findPositions (before ++ (nalu ++ after)) before.length start naluPositions =
      findPositions (before ++ (nalu ++ after)) (before.length + nalu.length) start
        naluPositions := by
  induction nalu generalizing before with
  | nil => rfl
  | cons byte nalu inductionHypothesis =>
      have absent : ¬ startCodeAt (before ++ (byte :: nalu ++ after)) before.length = true := by
        rw [startCodeAt_iff, List.drop_left]
        exact not_startCode_prefix (List.cons_ne_nil byte nalu) clean separated
      by_cases room : before.length + 3 < (before ++ (byte :: nalu ++ after)).length
      · have later := inductionHypothesis (before ++ [byte])
          fun inside => clean (inside.trans (List.suffix_cons byte nalu).isInfix)
        rw [findPositions, if_pos room, if_neg absent]
        simp only [List.append_assoc, List.length_append, List.length_singleton,
          List.singleton_append] at later
        rw [List.cons_append, later, List.length_cons]
        congr 1
        omega
      · have behind : ¬ before.length + (byte :: nalu).length + 3 <
            (before ++ (byte :: nalu ++ after)).length := by
          omega
        rw [findPositions, if_neg room, findPositions, if_neg behind]

theorem annexB_separated (nalus : List (List UInt8)) :
    annexB nalus = [] ∨ annexBHeader <+: annexB nalus := by
  cases nalus with
  | nil => exact .inl rfl
  | cons nalu nalus =>
      rw [annexB_cons, List.append_assoc]
      exact .inr (List.prefix_append _ _)

/-- The scan finds the NAL units that lie ahead. -/
theorem findPositions_annexB
    {nalus : List (List UInt8)}
    (before : List UInt8)
    (clean : ∀ nalu ∈ nalus, ¬ annexBHeader <:+: nalu)
    (start : Option Nat)
    (naluPositions : List Nat) :
    findPositions (before ++ annexB nalus) before.length start naluPositions =
      pushNalu naluPositions start before.length ++ bounds before.length nalus := by
  induction nalus generalizing before start naluPositions with
  | nil =>
      rw [findPositions, annexB_nil, List.append_nil, if_neg (by omega), bounds,
        List.append_nil]
  | cons nalu nalus inductionHypothesis =>
      have room : before.length + 3 < (before ++ annexB (nalu :: nalus)).length := by
        simp [annexBHeader]
      have found : startCodeAt (before ++ annexB (nalu :: nalus)) before.length = true := by
        rw [startCodeAt_iff, List.drop_left, annexB_cons, List.append_assoc]
        exact List.prefix_append _ _
      have unit := findPositions_nalu (before ++ annexBHeader) (clean nalu List.mem_cons_self)
        (annexB_separated nalus) (some before.length)
        (pushNalu naluPositions start before.length)
      have others := inductionHypothesis (before ++ annexBHeader ++ nalu)
        (fun other member => clean other (List.mem_cons_of_mem nalu member))
        (some before.length) (pushNalu naluPositions start before.length)
      rw [findPositions, if_pos room, if_pos found]
      have whole : before ++ annexB (nalu :: nalus) =
          before ++ annexBHeader ++ (nalu ++ annexB nalus) := by
        simp
      have place : before.length + 3 + 1 = (before ++ annexBHeader).length := by
        simp [annexBHeader]
      have next : (before ++ annexBHeader).length + nalu.length =
          (before ++ annexBHeader ++ nalu).length :=
        List.length_append.symm
      rw [whole, place, unit, next, ← List.append_assoc _ nalu, others, ← next, ← place]
      simp [pushNalu, bounds, Nat.add_assoc]

/-- Start codes become length prefixes, whatever the NAL units are apart from
start codes in them. -/
theorem annexBToAvcc_annexB
    {nalus : List (List UInt8)}
    (clean : ∀ nalu ∈ nalus, ¬ annexBHeader <:+: nalu) :
    annexBToAvcc (annexB nalus) = avcc nalus := by
  have found := findPositions_annexB [] clean none []
  have written := writeLengths_bounds [] nalus
  simp only [List.nil_append, List.length_nil, pushNalu] at found written
  rw [annexBToAvcc, found, written]

end Player
end RuseonCore
