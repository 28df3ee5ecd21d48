import RuseonCore.Buffer.RingBuffer

/-!
# Timestamps

Model of `internal/rtsp/timestamp.go`.  Durations are 64-bit nanosecond counts
with the wrapping arithmetic of the source; `/` and `%` truncate towards zero.
-/

namespace RuseonCore
namespace Rtsp

open Buffer

/-- Tracks rollovers of the 32-bit RTP clock within one session. -/
structure TimestampUnwrapper where
  lastTS : UInt32
  epoch : UInt64
  initialized : Bool

/-- Each session starts with a fresh unwrapper. -/
def newTimestampUnwrapper : TimestampUnwrapper where
  lastTS := 0
  epoch := 0
  initialized := false

/-- Extend a 32-bit timestamp by the number of rollovers seen. -/
def TimestampUnwrapper.unwrap (u : TimestampUnwrapper) (ts : UInt32) :
    TimestampUnwrapper × UInt64 :=
  if !u.initialized then
    ({ lastTS := ts, epoch := 0, initialized := true }, ts.toUInt64)
  else
    let epoch :=
      if ts < u.lastTS && u.lastTS - ts > 0x80000000 then u.epoch + 0x100000000
      else if ts > u.lastTS && ts - u.lastTS > 0x80000000 then
        if u.epoch ≥ 0x100000000 then u.epoch - 0x100000000 else u.epoch
      else u.epoch
    ({ u with lastTS := ts, epoch := epoch }, epoch + ts.toUInt64)

/-- Nanoseconds of a second. -/
def second : Int64 := 1000000000

/-- Ticks of the 90 kHz clock as a duration, clamped for seconds that do not
fit. -/
def rtp90kToDuration (ts : UInt64) : Int64 :=
  let sec := ts / 90000
  let rem := ts % 90000
  if sec > 9223372036 then Int64.maxValue
  else sec.toInt64 * second + rem.toInt64 * second / 90000

/-- Duration in ticks of the 90 kHz clock. -/
def durationTo90k (d : Int64) : Int64 :=
  let sec := d / second
  let rem := d % second
  sec * 90000 + rem * 90000 / second

/-- Whole milliseconds of a duration. -/
def milliseconds (d : Int64) : Int64 :=
  d / 1000000

/-- Timestamp of a frame as a 64-bit duration. -/
def timestamp (f : Frame) : Int64 :=
  Int64.ofInt f.timestamp

/-- The exact result of an operation is kept if it fits 64 bits. -/
theorem bmod_of_fits
    {n : Int}
    (low : -9223372036854775808 ≤ n)
    (high : n < 9223372036854775808) :
    n.bmod (2 ^ 64) = n :=
  Int.bmod_eq_of_le (by omega) (by omega)

theorem toInt_sub_of_fits
    {first second : Int64}
    (low : -9223372036854775808 ≤ first.toInt - second.toInt)
    (high : first.toInt - second.toInt < 9223372036854775808) :
    (first - second).toInt = first.toInt - second.toInt := by
  rw [Int64.toInt_sub, bmod_of_fits low high]

/-- Quotient of a number that is not negative. -/
theorem toInt_div_of_nonneg
    {n : Int64}
    (nonneg : 0 ≤ n.toInt)
    {unit : Int64}
    {value : Int}
    (same : unit.toInt = value)
    (positive : 0 < value) :
    (n / unit).toInt = n.toInt / value := by
  have bound := n.toInt_lt
  have less := Int.ediv_le_self value nonneg
  have lower := Int.ediv_nonneg nonneg positive.le
  rw [Int64.toInt_div, same, Int.tdiv_eq_ediv_of_nonneg nonneg]
  exact bmod_of_fits (by omega) (by omega)

/-- Remainder of a number that is not negative. -/
theorem toInt_mod_of_nonneg
    {n : Int64}
    (nonneg : 0 ≤ n.toInt)
    {unit : Int64}
    {value : Int}
    (same : unit.toInt = value) :
    (n % unit).toInt = n.toInt % value := by
  rw [Int64.toInt_mod, same, Int.tmod_eq_emod_of_nonneg nonneg]

/-- Ticks of the whole seconds. -/
theorem toInt_wholeTicks
    {d : Int64}
    (nonneg : 0 ≤ d.toInt) :
    (d / second * 90000).toInt = d.toInt / 1000000000 * 90000 := by
  have high := d.toInt_lt
  have unit : second.toInt = 1000000000 := by decide
  have rate : (90000 : Int64).toInt = 90000 := by decide
  rw [Int64.toInt_mul, toInt_div_of_nonneg nonneg unit (by decide), rate]
  exact bmod_of_fits (by omega) (by omega)

/-- Scaled rest of a duration. -/
theorem toInt_scaledTicks
    {d : Int64}
    (nonneg : 0 ≤ d.toInt) :
    (d % second * 90000).toInt = d.toInt % 1000000000 * 90000 := by
  have unit : second.toInt = 1000000000 := by decide
  have rate : (90000 : Int64).toInt = 90000 := by decide
  rw [Int64.toInt_mul, toInt_mod_of_nonneg nonneg unit, rate]
  exact bmod_of_fits (by omega) (by omega)

/-- Ticks of a duration of either sign. -/
theorem toInt_durationTo90k_signed (d : Int64) :
    (durationTo90k d).toInt = d.toInt.tdiv 1000000000 * 90000 +
      (d.toInt.tmod 1000000000 * 90000).tdiv 1000000000 := by
  have low := d.le_toInt
  have high := d.toInt_lt
  have unit : second.toInt = 1000000000 := by decide
  have rate : (90000 : Int64).toInt = 90000 := by decide
  have quotient : (d.toInt.tdiv 1000000000).natAbs = d.toInt.natAbs / 1000000000 :=
    Int.natAbs_tdiv d.toInt 1000000000
  have rest : (d.toInt.tmod 1000000000).natAbs = d.toInt.natAbs % 1000000000 :=
    Int.natAbs_tmod d.toInt 1000000000
  have seconds : (d / second).toInt = d.toInt.tdiv 1000000000 := by
    rw [Int64.toInt_div, unit]
    exact bmod_of_fits (by omega) (by omega)
  have whole : (d / second * 90000).toInt = d.toInt.tdiv 1000000000 * 90000 := by
    rw [Int64.toInt_mul, seconds, rate]
    exact bmod_of_fits (by omega) (by omega)
  have scaled : (d % second * 90000).toInt = d.toInt.tmod 1000000000 * 90000 := by
    rw [Int64.toInt_mul, Int64.toInt_mod, unit, rate]
    exact bmod_of_fits (by omega) (by omega)
  have small : ((d.toInt.tmod 1000000000 * 90000).tdiv 1000000000).natAbs =
      (d.toInt.tmod 1000000000 * 90000).natAbs / 1000000000 :=
    Int.natAbs_tdiv _ 1000000000
  have part : (d % second * 90000 / second).toInt =
      (d.toInt.tmod 1000000000 * 90000).tdiv 1000000000 := by
    rw [Int64.toInt_div, scaled, unit]
    exact bmod_of_fits (by omega) (by omega)
  change (d / second * 90000 + d % second * 90000 / second).toInt = _
  rw [Int64.toInt_add, whole, part]
  exact bmod_of_fits (by omega) (by omega)

/-- Ticks of a duration that is not negative. -/
theorem toInt_durationTo90k
    {d : Int64}
    (nonneg : 0 ≤ d.toInt) :
    (durationTo90k d).toInt =
      d.toInt / 1000000000 * 90000 + d.toInt % 1000000000 * 90000 / 1000000000 := by
  rw [toInt_durationTo90k_signed, Int.tdiv_eq_ediv_of_nonneg nonneg,
    Int.tmod_eq_emod_of_nonneg nonneg, Int.tdiv_eq_ediv_of_nonneg]
  omega

/-- The ticks of a duration are far from the limits of 64 bits. -/
theorem toInt_durationTo90k_bounds (d : Int64) :
    -1000000000000000 ≤ (durationTo90k d).toInt ∧
      (durationTo90k d).toInt ≤ 1000000000000000 := by
  have low := d.le_toInt
  have high := d.toInt_lt
  rw [toInt_durationTo90k_signed]
  have quotient : (d.toInt.tdiv 1000000000).natAbs = d.toInt.natAbs / 1000000000 :=
    Int.natAbs_tdiv d.toInt 1000000000
  have rest : (d.toInt.tmod 1000000000).natAbs = d.toInt.natAbs % 1000000000 :=
    Int.natAbs_tmod d.toInt 1000000000
  have small : ((d.toInt.tmod 1000000000 * 90000).tdiv 1000000000).natAbs =
      (d.toInt.tmod 1000000000 * 90000).natAbs / 1000000000 :=
    Int.natAbs_tdiv _ 1000000000
  omega

end Rtsp
end RuseonCore
