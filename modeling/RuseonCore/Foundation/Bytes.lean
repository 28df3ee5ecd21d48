import Mathlib.Tactic

/-!
# Byte buffers

Big-endian numbers and writes into a buffer of fixed length at explicit
positions.  A buffer that is filled from its start holds what was written as an
initial segment, whatever it contained before; once the segment has the length
of the buffer, the buffer is the segment.
-/

namespace RuseonCore
namespace ByteBuffer

/-! ## Big-endian numbers -/

/-- The low `width` bytes of a number, most significant first. -/
def encode : Nat → Nat → List UInt8
  | 0, _ => []
  | width + 1, n => encode width (n / 256) ++ [UInt8.ofNat n]

/-- Number with the given big-endian digits. -/
def decode (bytes : List UInt8) : Nat :=
  bytes.foldl (fun value byte => value * 256 + byte.toNat) 0

@[simp] theorem length_encode (width n : Nat) :
    (encode width n).length = width := by
  induction width generalizing n with
  | zero => rfl
  | succ width inductionHypothesis => simp [encode, inductionHypothesis]

theorem decode_concat (bytes : List UInt8) (byte : UInt8) :
    decode (bytes ++ [byte]) = decode bytes * 256 + byte.toNat := by
  simp [decode]

/-- Reading back the low bytes of a number. -/
theorem decode_encode (width n : Nat) :
    decode (encode width n) = n % 256 ^ width := by
  induction width generalizing n with
  | zero => simp [encode, decode, Nat.mod_one]
  | succ width inductionHypothesis =>
      have low : (UInt8.ofNat n).toNat = n % 256 := UInt8.toNat_ofNat'
      rw [encode, decode_concat, inductionHypothesis, low, pow_succ', Nat.mod_mul,
        Nat.add_comm, Nat.mul_comm]

/-- Checked read of a number of `width` bytes at a position. -/
def read (buf : List UInt8) (pos width : Nat) : Option Nat :=
  if pos + width ≤ buf.length then some (decode ((buf.drop pos).take width)) else none

/-- A number is read back from where its bytes stand. -/
theorem read_encode
    {buf before after : List UInt8}
    {pos width n : Nat}
    (contents : buf = before ++ (encode width n ++ after))
    (place : pos = before.length)
    (fits : n < 256 ^ width) :
    read buf pos width = some n := by
  subst contents place
  have inside : before.length + width ≤ (before ++ (encode width n ++ after)).length := by
    simp
  rw [read, if_pos inside, List.drop_left, List.take_left' (length_encode width n),
    decode_encode, Nat.mod_eq_of_lt fits]

/-- Bytes are cut out from where they stand. -/
theorem slice_eq
    {buf before bytes after : List UInt8}
    {pos : Nat}
    (contents : buf = before ++ (bytes ++ after))
    (place : pos = before.length) :
    (buf.drop pos).take bytes.length = bytes := by
  rw [contents, place, List.drop_left, List.take_left]

/-! ## Writes -/

section Writes

variable {α : Type*}

/-- Copy into a buffer at a position, up to the end of the buffer; the position
must not lie beyond it. -/
def copyAt (buf : List α) (pos : Nat) (source : List α) : Option (List α) :=
  if pos ≤ buf.length then
    some (buf.take pos ++ source.take (buf.length - pos) ++ buf.drop (pos + source.length))
  else none

/-- Checked write: all of the source must fit. -/
def put (buf : List α) (pos : Nat) (source : List α) : Option (List α) :=
  if pos + source.length ≤ buf.length then copyAt buf pos source else none

/-- A buffer of the given length that starts with what was written to it. -/
structure Filled (size : Nat) (written buf : List α) : Prop where
  starts : written <+: buf
  length : buf.length = size

/-- The buffer is what was written once that has the buffer's length. -/
theorem Filled.eq
    {size : Nat}
    {written buf : List α}
    (filled : Filled size written buf)
    (complete : written.length = size) :
    buf = written :=
  (filled.starts.eq_of_length (by rw [complete, filled.length])).symm

/-- Copying behind what was written appends it. -/
theorem Filled.copyAt
    {size : Nat}
    {written buf : List α}
    (filled : Filled size written buf)
    (pos : Nat)
    (source : List α)
    (place : pos = written.length)
    (fits : pos + source.length ≤ size) :
    ∃ next, copyAt buf pos source = some next ∧ Filled size (written ++ source) next := by
  obtain ⟨⟨rest, rfl⟩, length⟩ := filled
  subst place
  have room : source.length ≤ rest.length := by
    rw [List.length_append] at length
    omega
  have result : ByteBuffer.copyAt (written ++ rest) written.length source =
      some (written ++ source ++ rest.drop source.length) := by
    rw [ByteBuffer.copyAt, if_pos (by simp), List.take_left,
      List.take_of_length_le (by simpa using room), List.drop_append, List.drop_of_length_le
        (by omega)]
    simp
  refine ⟨_, result, List.prefix_append _ _, ?_⟩
  simp only [List.length_append, List.length_drop] at length ⊢
  omega

/-- A checked write behind what was written appends it. -/
theorem Filled.put
    {size : Nat}
    {written buf : List α}
    (filled : Filled size written buf)
    (pos : Nat)
    (source : List α)
    (place : pos = written.length)
    (fits : pos + source.length ≤ size) :
    ∃ next, put buf pos source = some next ∧ Filled size (written ++ source) next := by
  rw [ByteBuffer.put, if_pos (by rw [filled.length]; exact fits)]
  exact filled.copyAt pos source place fits

end Writes

end ByteBuffer
end RuseonCore
