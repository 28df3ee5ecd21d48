import RuseonCore.Hls.Loop
import RuseonCore.Recorder.Run

/-!
# Conversions between clock ticks and durations

`RTP90kToDuration` and `DurationTo90k` split their argument into whole seconds
and a rest, so that no product overflows.  Both are compared here with one
division of unbounded integers.  The conversion from ticks decides by the whole
seconds alone whether its result is clamped; in the last second that it does not
clamp, the sum of the two parts leaves the range of a duration.
-/

namespace RuseonCore
namespace Rtsp

open Buffer

/-! ## Machine integers -/

/-- A small unsigned number keeps its value as a signed one. -/
theorem toInt_toInt64
    {n : UInt64}
    (small : n.toNat < 9223372036854775808) :
    n.toInt64.toInt = n.toNat := by
  apply BitVec.toInt_eq_toNat_of_lt
  change 2 * n.toNat < 2 ^ 64
  omega

/-- A signed number that is not negative keeps its value as an unsigned one. -/
theorem toNat_toUInt64
    {d : Int64}
    (nonneg : 0 ≤ d.toInt) :
    (d.toUInt64.toNat : Int) = d.toInt := by
  have wide : d.toBitVec.toNat < 18446744073709551616 := d.toBitVec.isLt
  change 0 ≤ d.toBitVec.toInt at nonneg
  change (d.toBitVec.toNat : Int) = d.toBitVec.toInt
  rw [BitVec.toInt_eq_toNat_cond] at nonneg ⊢
  split at nonneg
  · rw [if_pos ‹_›]
  · omega

/-! ## From ticks to durations -/

/-- Nanoseconds of a number of ticks. -/
def nanoseconds (ticks : Nat) : Nat :=
  ticks * 1000000000 / 90000

theorem nanoseconds_eq (ticks : Nat) :
    nanoseconds ticks =
      ticks / 90000 * 1000000000 + ticks % 90000 * 1000000000 / 90000 := by
  unfold nanoseconds
  omega

theorem nanoseconds_mono
    {earlier later : Nat}
    (ordered : earlier ≤ later) :
    nanoseconds earlier ≤ nanoseconds later := by
  unfold nanoseconds
  exact Nat.div_le_div_right (Nat.mul_le_mul_right _ ordered)

/-- The duration that the documentation promises. -/
def clampedDuration (ts : UInt64) : Int :=
  min (nanoseconds ts.toNat : Int) (2 ^ 63 - 1)

/-- The ticks lie in the last second that is not clamped, behind the longest
duration. -/
def PastLimit (ts : UInt64) : Prop :=
  ts.toNat / 90000 = 9223372036 ∧ 76930 ≤ ts.toNat % 90000

instance (ts : UInt64) : Decidable (PastLimit ts) :=
  inferInstanceAs (Decidable (_ ∧ _))

/-- If the result is not clamped, no intermediate result of `RTP90kToDuration`
wraps around. -/
def NoWrap (ts : UInt64) : Prop :=
  ¬ts / 90000 > 9223372036 →
    ((ts / 90000).toInt64 * second).toInt = ts.toNat / 90000 * 1000000000 ∧
    ((ts % 90000).toInt64 * second).toInt = ts.toNat % 90000 * 1000000000 ∧
    ((ts % 90000).toInt64 * second / 90000).toInt =
      ts.toNat % 90000 * 1000000000 / 90000 ∧
    ((ts / 90000).toInt64 * second + (ts % 90000).toInt64 * second / 90000).toInt =
      ((ts / 90000).toInt64 * second).toInt +
        ((ts % 90000).toInt64 * second / 90000).toInt

theorem clamps_iff (ts : UInt64) :
    ts / 90000 > 9223372036 ↔ 9223372036 < ts.toNat / 90000 := by
  rw [gt_iff_lt, UInt64.lt_iff_toNat_lt, UInt64.toNat_div]
  rfl

/-- The whole seconds in nanoseconds. -/
theorem toInt_seconds
    {ts : UInt64}
    (unclamped : ts.toNat / 90000 ≤ 9223372036) :
    ((ts / 90000).toInt64 * second).toInt = ts.toNat / 90000 * 1000000000 := by
  have unit : second.toInt = 1000000000 := by decide
  have quotient : (ts / 90000).toNat = ts.toNat / 90000 := UInt64.toNat_div ts 90000
  rw [Int64.toInt_mul, unit, toInt_toInt64 (by omega), quotient]
  apply bmod_of_fits <;> omega

/-- The rest in scaled nanoseconds. -/
theorem toInt_scaled (ts : UInt64) :
    ((ts % 90000).toInt64 * second).toInt = ts.toNat % 90000 * 1000000000 := by
  have unit : second.toInt = 1000000000 := by decide
  have remainder : (ts % 90000).toNat = ts.toNat % 90000 := UInt64.toNat_mod ts 90000
  rw [Int64.toInt_mul, unit, toInt_toInt64 (by omega), remainder]
  apply bmod_of_fits <;> omega

/-- The rest in nanoseconds. -/
theorem toInt_rest (ts : UInt64) :
    ((ts % 90000).toInt64 * second / 90000).toInt =
      ts.toNat % 90000 * 1000000000 / 90000 := by
  have scaled := toInt_scaled ts
  have rate : (90000 : Int64).toInt = 90000 := by decide
  rw [toInt_div_of_nonneg (by omega) rate (by decide), scaled]

/-- Without clamping, the result is the exact one, wrapped to 64 bits. -/
theorem toInt_rtp90kToDuration
    {ts : UInt64}
    (unclamped : ts.toNat / 90000 ≤ 9223372036) :
    (rtp90kToDuration ts).toInt = (nanoseconds ts.toNat : Int).bmod (2 ^ 64) := by
  have small : ¬ts / 90000 > 9223372036 := by
    rw [clamps_iff]
    omega
  unfold rtp90kToDuration
  dsimp only
  rw [if_neg small, Int64.toInt_add, toInt_seconds unclamped, toInt_rest,
    nanoseconds_eq]
  push_cast
  rfl

theorem rtp90kToDuration_clamped
    {ts : UInt64}
    (clamped : 9223372036 < ts.toNat / 90000) :
    rtp90kToDuration ts = Int64.maxValue := by
  unfold rtp90kToDuration
  exact if_pos ((clamps_iff ts).mpr clamped)

/-- The exact duration fits iff it does not lie behind the limit. -/
theorem nanoseconds_lt_iff
    {ts : UInt64}
    (unclamped : ts.toNat / 90000 ≤ 9223372036) :
    nanoseconds ts.toNat < 9223372036854775808 ↔ ¬PastLimit ts := by
  rw [nanoseconds_eq, PastLimit]
  omega

/-- Behind the limit the duration is negative. -/
theorem rtp90kToDuration_neg
    {ts : UInt64}
    (past : PastLimit ts) :
    (rtp90kToDuration ts).toInt = nanoseconds ts.toNat - 2 ^ 64 ∧
      (rtp90kToDuration ts).toInt < 0 := by
  have split := nanoseconds_eq ts.toNat
  obtain ⟨last, behind⟩ := past
  have wrapped : (nanoseconds ts.toNat : Int).bmod (2 ^ 64) =
      nanoseconds ts.toNat - 2 ^ 64 := by
    rw [Int.bmod_def]
    omega
  rw [toInt_rtp90kToDuration (by omega), wrapped]
  omega

/-- Everywhere else it is the promised one. -/
theorem rtp90kToDuration_eq_clamped
    {ts : UInt64}
    (within : ¬PastLimit ts) :
    (rtp90kToDuration ts).toInt = clampedDuration ts := by
  have split := nanoseconds_eq ts.toNat
  unfold clampedDuration
  by_cases clamped : 9223372036 < ts.toNat / 90000
  · rw [rtp90kToDuration_clamped clamped, min_eq_right (by omega)]
    decide
  · have fits := (nanoseconds_lt_iff (by omega)).mpr within
    rw [toInt_rtp90kToDuration (by omega), bmod_of_fits (by omega) (by omega),
      min_eq_left (by omega)]

theorem noWrap_of_within
    {ts : UInt64}
    (within : ¬PastLimit ts) :
    NoWrap ts := by
  intro small
  rw [clamps_iff, not_lt] at small
  have fits := (nanoseconds_lt_iff small).mpr within
  rw [nanoseconds_eq] at fits
  refine ⟨toInt_seconds small, toInt_scaled ts, toInt_rest ts, ?_⟩
  rw [Int64.toInt_add, toInt_seconds small, toInt_rest]
  apply bmod_of_fits <;> omega

/-- Outside the part of the last second that lies behind the longest duration,
and only there, the conversion is exact and clamped, wraps nowhere, is not
negative, and respects the order. -/
theorem rtp90kToDuration_exact_iff (ts : UInt64) :
    ((rtp90kToDuration ts).toInt = clampedDuration ts ∧
      NoWrap ts ∧
      0 ≤ rtp90kToDuration ts ∧
      ∀ earlier, earlier ≤ ts → rtp90kToDuration earlier ≤ rtp90kToDuration ts) ↔
    ¬PastLimit ts := by
  have zero : (0 : Int64).toInt = 0 := by decide
  constructor
  · rintro ⟨_, _, nonneg, _⟩ past
    have negative := (rtp90kToDuration_neg past).2
    rw [Int64.le_iff_toInt_le, zero] at nonneg
    omega
  · intro within
    have exact := rtp90kToDuration_eq_clamped within
    have nonneg : 0 ≤ clampedDuration ts := by
      unfold clampedDuration
      omega
    refine ⟨exact, noWrap_of_within within, ?_, fun earlier ordered => ?_⟩
    · rwa [Int64.le_iff_toInt_le, zero, exact]
    · rw [Int64.le_iff_toInt_le, exact]
      by_cases past : PastLimit earlier
      · exact (rtp90kToDuration_neg past).2.le.trans nonneg
      · have fewer := nanoseconds_mono (UInt64.le_iff_toNat_le.mp ordered)
        rw [rtp90kToDuration_eq_clamped past]
        unfold clampedDuration
        omega

/-- The first tick behind the limit, where a duration of 292 years becomes
negative. -/
theorem rtp90kToDuration_wraps :
    (rtp90kToDuration 830103483316930).toInt = -9223372036854773839 ∧
      clampedDuration 830103483316930 = 2 ^ 63 - 1 ∧
      ¬rtp90kToDuration 830103483316929 ≤ rtp90kToDuration 830103483316930 := by
  decide +kernel

/-! ## From durations to ticks and back -/

/-- Whole ticks of a duration that is not negative. -/
theorem toInt_durationTo90k_eq_div
    {d : Int64}
    (nonneg : 0 ≤ d.toInt) :
    (durationTo90k d).toInt = d.toInt * 90000 / 1000000000 := by
  rw [toInt_durationTo90k nonneg]
  omega

/-- No intermediate result of `DurationTo90k` wraps around. -/
structure NoOverflow (d : Int64) : Prop where
  whole : (d / second * 90000).toInt = d.toInt / 1000000000 * 90000
  scaled : (d % second * 90000).toInt = d.toInt % 1000000000 * 90000
  rest : (d % second * 90000 / second).toInt =
    d.toInt % 1000000000 * 90000 / 1000000000
  sum : (d / second * 90000 + d % second * 90000 / second).toInt =
    (d / second * 90000).toInt + (d % second * 90000 / second).toInt

theorem noOverflow
    {d : Int64}
    (nonneg : 0 ≤ d.toInt) :
    NoOverflow d := by
  have unit : second.toInt = 1000000000 := by decide
  have whole := toInt_wholeTicks nonneg
  have scaled := toInt_scaledTicks nonneg
  have rest : (d % second * 90000 / second).toInt =
      d.toInt % 1000000000 * 90000 / 1000000000 := by
    rw [toInt_div_of_nonneg (by omega) unit (by decide), scaled]
  refine ⟨whole, scaled, rest, ?_⟩
  rw [whole, rest]
  exact toInt_durationTo90k nonneg

theorem durationTo90k_mono
    {earlier later : Int64}
    (nonneg : 0 ≤ earlier.toInt)
    (ordered : earlier ≤ later) :
    durationTo90k earlier ≤ durationTo90k later := by
  rw [Int64.le_iff_toInt_le] at ordered ⊢
  rw [toInt_durationTo90k_eq_div nonneg, toInt_durationTo90k_eq_div (by omega)]
  omega

/-- A duration loses less than a tick on its way through the ticks. -/
theorem duration_round_trip
    {d : Int64}
    (nonneg : 0 ≤ d.toInt) :
    0 ≤ d.toInt - (rtp90kToDuration (durationTo90k d).toUInt64).toInt ∧
      d.toInt - (rtp90kToDuration (durationTo90k d).toUInt64).toInt < 11112 := by
  have high := d.toInt_lt
  have ticks := toInt_durationTo90k_eq_div nonneg
  have same := toNat_toUInt64 (d := durationTo90k d) (by omega)
  have within : ¬PastLimit (durationTo90k d).toUInt64 := by
    unfold PastLimit
    omega
  have back := rtp90kToDuration_eq_clamped within
  rw [clampedDuration, nanoseconds] at back
  omega

/-- Ticks that are not in the last second lose at most one on their way through
the durations. -/
theorem ticks_round_trip
    {ts : UInt64}
    (early : ts.toNat / 90000 < 9223372036) :
    0 ≤ (ts.toNat : Int) - (durationTo90k (rtp90kToDuration ts)).toInt ∧
      (ts.toNat : Int) - (durationTo90k (rtp90kToDuration ts)).toInt ≤ 1 := by
  have within : ¬PastLimit ts := fun past => by
    have last := past.1
    omega
  have value := rtp90kToDuration_eq_clamped within
  rw [clampedDuration, nanoseconds] at value
  have back := toInt_durationTo90k_eq_div (d := rtp90kToDuration ts) (by omega)
  omega

/-- Ticks before the last second keep their order as durations. -/
theorem rtp90kToDuration_mono
    {earlier later : UInt64}
    (early : later.toNat / 90000 < 9223372036)
    (ordered : earlier ≤ later) :
    rtp90kToDuration earlier ≤ rtp90kToDuration later := by
  have fewer := nanoseconds_mono (UInt64.le_iff_toNat_le.mp ordered)
  have order := UInt64.le_iff_toNat_le.mp ordered
  have within : ∀ ts : UInt64, ts.toNat / 90000 < 9223372036 → ¬PastLimit ts :=
    fun ts early past => by
      have last := past.1
      omega
  rw [Int64.le_iff_toInt_le, rtp90kToDuration_eq_clamped (within earlier (by omega)),
    rtp90kToDuration_eq_clamped (within later early)]
  unfold clampedDuration
  omega

/-- Frames keep their order in the time base of a recording that starts with a
frame whose timestamp is not negative. -/
theorem currentPts_mono
    {first earlier later : Frame}
    (r : Recorder.Run)
    (started : 0 ≤ (timestamp first).toInt)
    (nonneg : 0 ≤ (timestamp earlier).toInt)
    (ordered : timestamp earlier ≤ timestamp later) :
    (r.beginFile first).currentPts earlier ≤ (r.beginFile first).currentPts later := by
  have order := Int64.le_iff_toInt_le.mp ordered
  have bound := (timestamp later).toInt_lt
  have startBound := (timestamp first).toInt_lt
  have start := toInt_durationTo90k_eq_div started
  have before := toInt_durationTo90k_eq_div nonneg
  have after := toInt_durationTo90k_eq_div (d := timestamp later) (by omega)
  change durationTo90k (timestamp earlier) - durationTo90k (timestamp first) ≤
    durationTo90k (timestamp later) - durationTo90k (timestamp first)
  rw [Int64.le_iff_toInt_le, toInt_sub_of_fits (by omega) (by omega),
    toInt_sub_of_fits (by omega) (by omega)]
  omega

/-- The conversion to ticks does not overflow, both round trips lose less than
one tick, and the order of frames survives the conversion of ticks to the
timestamps of the ring buffer and from there to the time bases of the segments
and of the recordings. -/
theorem conversions_round_trip :
    (∀ d : Int64, 0 ≤ d.toInt →
      NoOverflow d ∧
      (durationTo90k d).toInt = d.toInt * 90000 / 1000000000 ∧
      0 ≤ d.toInt - (rtp90kToDuration (durationTo90k d).toUInt64).toInt ∧
      d.toInt - (rtp90kToDuration (durationTo90k d).toUInt64).toInt < 11112) ∧
    (∀ ts : UInt64, ts.toNat / 90000 < 9223372036 →
      0 ≤ (ts.toNat : Int) - (durationTo90k (rtp90kToDuration ts)).toInt ∧
      (ts.toNat : Int) - (durationTo90k (rtp90kToDuration ts)).toInt ≤ 1) ∧
    (∀ earlier later : Int64, 0 ≤ earlier.toInt → earlier ≤ later →
      durationTo90k earlier ≤ durationTo90k later) ∧
    (∀ earlier later : UInt64, later.toNat / 90000 < 9223372036 → earlier ≤ later →
      rtp90kToDuration earlier ≤ rtp90kToDuration later) ∧
    ∀ earlier later : Frame, 0 ≤ (timestamp earlier).toInt →
      timestamp earlier ≤ timestamp later →
      (∀ params newParams : CodecParams,
        (Hls.muxedFrame params earlier).pts ≤ (Hls.muxedFrame newParams later).pts) ∧
      ∀ (r : Recorder.Run) (first : Frame), 0 ≤ (timestamp first).toInt →
        (r.beginFile first).currentPts earlier ≤
          (r.beginFile first).currentPts later := by
  refine ⟨fun d nonneg => ?_, fun ts => ticks_round_trip, fun earlier later =>
    durationTo90k_mono, fun earlier later => rtp90kToDuration_mono,
    fun earlier later nonneg ordered => ⟨fun params newParams => ?_, ?_⟩⟩
  · exact ⟨noOverflow nonneg, toInt_durationTo90k_eq_div nonneg,
      duration_round_trip nonneg⟩
  · exact durationTo90k_mono nonneg ordered
  · intro r first started
    exact currentPts_mono r started nonneg ordered

/-- The longest duration, and a second of ticks. -/
theorem conversions_round_trip_longest :
    (durationTo90k Int64.maxValue).toInt = 830103483316929 ∧
      Int64.maxValue.toInt -
        (rtp90kToDuration (durationTo90k Int64.maxValue).toUInt64).toInt < 11112 ∧
      (90000 : Int) - (durationTo90k (rtp90kToDuration 90000)).toInt ≤ 1 :=
  ⟨by decide,
    (conversions_round_trip.1 Int64.maxValue (by decide)).2.2.2,
    (conversions_round_trip.2.1 90000 (by decide)).2⟩

end Rtsp
end RuseonCore
