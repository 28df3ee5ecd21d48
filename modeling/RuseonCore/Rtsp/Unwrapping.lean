import RuseonCore.Rtsp.Timestamp

/-!
# Reconstruction of the RTP timeline

`TimestampUnwrapper` sees only the low 32 bits of a tick count.  As long as
consecutive ticks are less than half the 32-bit range apart, in either
direction, its state determines the last tick: `lastTS` holds the low word and
`epoch` the rest.  The answers to a stream of raw timestamps are then the ticks
themselves, whatever rollovers and late packets it contains.
-/

namespace RuseonCore
namespace Rtsp

/-- Answers of `unwrap` to a stream of raw timestamps. -/
def TimestampUnwrapper.unwrapAll (u : TimestampUnwrapper) : List UInt32 → List UInt64
  | [] => []
  | ts :: rest => (u.unwrap ts).2 :: (u.unwrap ts).1.unwrapAll rest

/-- The state after a tick: its low word and the multiple of `2^32` below it. -/
structure TimestampUnwrapper.Tracks
    (u : TimestampUnwrapper)
    (tick : Nat) : Prop where
  initialized : u.initialized = true
  lastTS : u.lastTS.toNat = tick % 2 ^ 32
  epoch : u.epoch.toNat = tick - tick % 2 ^ 32

/-- Two ticks less than half the 32-bit range apart. -/
def Near (tick next : Nat) : Prop :=
  next < tick + 2 ^ 31 ∧ tick < next + 2 ^ 31

/-- Both rollover tests of `unwrap` ask for a distance of more than half the
range. -/
theorem far_iff (low high : UInt32) :
    (low < high && high - low > 0x80000000) =
      decide (low.toNat + 2 ^ 31 < high.toNat) := by
  have half : (0x80000000 : UInt32).toNat = 2 ^ 31 := rfl
  rw [Bool.eq_iff_iff]
  simp only [Bool.and_eq_true, decide_eq_true_eq, UInt32.lt_iff_toNat_lt, gt_iff_lt]
  constructor
  · rintro ⟨below, far⟩
    rw [UInt32.toNat_sub_of_le _ _ (UInt32.le_iff_toNat_le.mpr below.le)] at far
    omega
  · intro far
    rw [UInt32.toNat_sub_of_le _ _ (UInt32.le_iff_toNat_le.mpr (by omega))]
    omega

/-- Epoch that an initialized unwrapper moves to, with the tests as comparisons
of numbers. -/
theorem TimestampUnwrapper.unwrap_of_initialized
    {u : TimestampUnwrapper}
    (initialized : u.initialized = true)
    (ts : UInt32) :
    u.unwrap ts =
      let epoch :=
        if ts.toNat + 2 ^ 31 < u.lastTS.toNat then u.epoch + 0x100000000
        else if u.lastTS.toNat + 2 ^ 31 < ts.toNat then
          if 2 ^ 32 ≤ u.epoch.toNat then u.epoch - 0x100000000 else u.epoch
        else u.epoch
      ({ u with lastTS := ts, epoch := epoch }, epoch + ts.toUInt64) := by
  have back : (ts > u.lastTS && ts - u.lastTS > 0x80000000) =
      decide (u.lastTS.toNat + 2 ^ 31 < ts.toNat) := far_iff u.lastTS ts
  have positive : (u.epoch ≥ 0x100000000) = (2 ^ 32 ≤ u.epoch.toNat) :=
    propext UInt64.le_iff_toNat_le
  simp only [unwrap, initialized, Bool.not_true, Bool.false_eq_true, if_false,
    far_iff ts u.lastTS, back, positive, decide_eq_true_eq]

/-- The first timestamp of a session is taken as it is. -/
theorem tracks_first
    {tick : Nat}
    (low : tick < 2 ^ 32) :
    (newTimestampUnwrapper.unwrap (UInt32.ofNat tick)).1.Tracks tick ∧
      (newTimestampUnwrapper.unwrap (UInt32.ofNat tick)).2.toNat = tick := by
  have raw : (UInt32.ofNat tick).toNat = tick := UInt32.toNat_ofNat_of_lt low
  refine ⟨⟨rfl, ?_, ?_⟩, ?_⟩
  · change (UInt32.ofNat tick).toNat = _
    omega
  · change 0 = _
    omega
  · exact raw

/-- A tick near the last one is recovered from its low word. -/
theorem TimestampUnwrapper.Tracks.unwrap
    {u : TimestampUnwrapper}
    {tick next : Nat}
    (tracks : u.Tracks tick)
    (near : Near tick next)
    (fits : next < 2 ^ 64) :
    (u.unwrap (UInt32.ofNat next)).1.Tracks next ∧
      (u.unwrap (UInt32.ofNat next)).2.toNat = next := by
  have raw : (UInt32.ofNat next).toNat = next % 2 ^ 32 := UInt32.toNat_ofNat'
  have last := tracks.lastTS
  have epoch := tracks.epoch
  have bound := u.epoch.toNat_lt
  obtain ⟨below, above⟩ := near
  rw [unwrap_of_initialized tracks.initialized]
  -- the chosen epoch is the multiple of `2^32` below the new tick
  suffices chosen :
      (if (UInt32.ofNat next).toNat + 2 ^ 31 < u.lastTS.toNat then u.epoch + 0x100000000
        else if u.lastTS.toNat + 2 ^ 31 < (UInt32.ofNat next).toNat then
          if 2 ^ 32 ≤ u.epoch.toNat then u.epoch - 0x100000000 else u.epoch
        else u.epoch).toNat = next - next % 2 ^ 32 by
    refine ⟨⟨tracks.initialized, raw, chosen⟩, ?_⟩
    rw [UInt64.toNat_add, chosen, UInt32.toNat_toUInt64, raw]
    omega
  have turn : (0x100000000 : UInt64).toNat = 2 ^ 32 := rfl
  split
  · rw [UInt64.toNat_add, turn]
    omega
  · split
    · rw [if_pos (by omega), UInt64.toNat_sub_of_le _ _
        (UInt64.le_iff_toNat_le.mpr (by omega)), turn]
      omega
    · omega

/-- A stream that goes on from a tracked tick is answered with its ticks. -/
theorem TimestampUnwrapper.Tracks.unwrapAll
    {u : TimestampUnwrapper}
    {tick : Nat}
    {ticks : List Nat}
    (tracks : u.Tracks tick)
    (near : (tick :: ticks).IsChain Near)
    (fits : ∀ later ∈ ticks, later < 2 ^ 64) :
    (u.unwrapAll (ticks.map UInt32.ofNat)).map UInt64.toNat = ticks := by
  induction ticks generalizing u tick with
  | nil => rfl
  | cons next ticks inductionHypothesis =>
      obtain ⟨step, rest⟩ := List.isChain_cons_cons.mp near
      obtain ⟨later, answer⟩ := tracks.unwrap step (fits next List.mem_cons_self)
      have others := inductionHypothesis later rest
        fun one member => fits one (List.mem_cons_of_mem next member)
      simp only [List.map_cons, TimestampUnwrapper.unwrapAll, answer, others]

/-- A new unwrapper answers the low words of a stream of ticks with the ticks,
if the first is below `2^32`, all are below `2^64` and consecutive ones are less
than `2^31` apart. -/
theorem unwrapAll_eq_ticks
    (ticks : List Nat)
    (first : ∀ tick ∈ ticks.head?, tick < 2 ^ 32)
    (fits : ∀ tick ∈ ticks, tick < 2 ^ 64)
    (near : ticks.IsChain Near) :
    (newTimestampUnwrapper.unwrapAll (ticks.map UInt32.ofNat)).map UInt64.toNat =
      ticks := by
  cases ticks with
  | nil => rfl
  | cons tick ticks =>
      obtain ⟨tracks, answer⟩ := tracks_first (first tick rfl)
      have others := tracks.unwrapAll near
        fun one member => fits one (List.mem_cons_of_mem tick member)
      simp only [List.map_cons, TimestampUnwrapper.unwrapAll, answer, others]

/-- Two rollovers with a late packet after the second one. -/
theorem unwrapAll_eq_ticks_rollovers :
    (newTimestampUnwrapper.unwrapAll
        ([4294967000, 4294968000, 6442451000, 8589934600, 8589934500, 8589934700].map
          UInt32.ofNat)).map UInt64.toNat =
      [4294967000, 4294968000, 6442451000, 8589934600, 8589934500, 8589934700] :=
  unwrapAll_eq_ticks _ (by decide) (by decide) (by simp [Near])

end Rtsp
end RuseonCore
