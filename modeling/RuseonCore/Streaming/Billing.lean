import RuseonCore.Foundation.Transition
import RuseonCore.Storage.Traffic

/-!
# The billing task

Model of `internal/stream/billing.go`: each tick turns the byte counters of the
running streams into deltas and flushes the accumulated deltas to the store,
keeping them for the next tick when the flush fails.  The record also keeps the
log of all deltas ever collected, which the source does not have.
-/

namespace RuseonCore
namespace Streaming

open Storage Transition

/-- Memory of the billing task: the last counter seen and the traffic not yet
flushed for each camera, and all deltas ever collected. -/
structure Billing where
  lastBytes : Tally
  pendingDelta : Tally
  collected : List (String × UInt64)

namespace Billing

/-- The task has just started. -/
def start : Billing where
  lastBytes := ∅
  pendingDelta := ∅
  collected := []

/-- Add a delta to the pending traffic of a camera. -/
def add (billing : Billing) (id : String) (delta : UInt64) : Billing :=
  { billing with
    pendingDelta := billing.pendingDelta.add id delta
    collected := billing.collected ++ [(id, delta)] }

/-- Iteration of the collecting loop for a stream with the given counter. -/
def collect (billing : Billing) (reading : String × UInt64) : Billing :=
  let (id, current) := reading
  let prev := billing.lastBytes.amount id
  let added :=
    if current > prev then billing.add id (current - prev)
    else if current < prev then billing.add id current
    else billing
  { added with lastBytes := added.lastBytes.insert id current }

/-- Collect the counters of all streams and forget cameras without one. -/
def collectBillingDelta
    (billing : Billing)
    (readings : List (String × UInt64)) : Billing :=
  let collected := readings.foldl collect billing
  { collected with
    lastBytes := collected.lastBytes.filter fun id _ =>
      (readings.map Prod.fst).contains id }

end Billing

/-- The task together with the store. -/
structure BillingState where
  billing : Billing
  db : DB

/-- One tick: the identifiers and counters of the running streams, the order in
which the pending traffic is iterated, and the transaction of the flush that the
database rejects, if any. -/
structure Tick where
  readings : List (String × UInt64)
  order : List (String × UInt64)
  failAt : Option Nat

namespace BillingState

/-- The task has just started on a store. -/
def start (db : DB) : BillingState where
  billing := Billing.start
  db := db

/-- Collect, flush unless nothing is pending, and clear the pending traffic if
the flush succeeds. -/
def tick (nowMonth : String) (state : BillingState) (t : Tick) :
    Option BillingState :=
  let billing := state.billing.collectBillingDelta t.readings
  if billing.pendingDelta.isEmpty then some { state with billing := billing }
  else if t.order.Perm billing.pendingDelta.toList then
    match batchUpdateTraffic t.order nowMonth t.failAt state.db with
    | (db, true) =>
        some { billing := { billing with pendingDelta := ∅ }, db := db }
    | (db, false) => some { billing := billing, db := db }
  else none

/-- The flush of the tick does not fail after committing a chunk that holds the
camera. -/
def FlushedWhole (id : String) (_ : BillingState) (t : Tick) : Prop :=
  ∀ k, t.failAt = some k → k < (batches t.order).length →
    ∀ entry ∈ committedBefore t.order k, entry.1 ≠ id

end BillingState

/-! ## Effect of a collection on one camera -/

namespace Billing

/-- Delta that the loop derives from two readings of a counter. -/
def delta (prev current : UInt64) : UInt64 :=
  if current > prev then current - prev
  else if current < prev then current
  else 0

/-- A counter that did not go down yields its growth. -/
theorem delta_of_le {prev current : UInt64} (grown : prev ≤ current) :
    (delta prev current).toNat + prev.toNat = current.toNat := by
  have bound := UInt64.le_iff_toNat_le.mp grown
  unfold delta
  split
  · rw [UInt64.toNat_sub_of_le _ _ grown]
    omega
  · rename_i notGreater
    have same : current = prev :=
      UInt64.le_antisymm (UInt64.not_lt.mp notGreater) grown
    simp [same, UInt64.lt_irrefl]

theorem delta_le (prev current : UInt64) :
    (delta prev current).toNat ≤ current.toNat := by
  unfold delta
  split
  · rename_i greater
    rw [UInt64.toNat_sub_of_le _ _ (UInt64.le_of_lt greater)]
    exact Nat.sub_le _ _
  · split
    · exact le_rfl
    · exact Nat.zero_le _

/-- The delta is the whole counter exactly if it starts from zero or the
counter went down. -/
theorem delta_eq_iff (prev current : UInt64) :
    (delta prev current).toNat = current.toNat ↔
      prev = 0 ∨ current < prev := by
  by_cases grown : prev ≤ current
  · have growth := delta_of_le grown
    have notLess : ¬current < prev := UInt64.not_lt.mpr grown
    rw [or_iff_left notLess, ← UInt64.toNat_inj, UInt64.toNat_zero]
    omega
  · have less : current < prev := UInt64.not_le.mp grown
    have notGreater : ¬current > prev := UInt64.not_lt.mpr (UInt64.le_of_lt less)
    simp [delta, notGreater, less]

/-- What one reading does to the camera it belongs to. -/
theorem collect_self (billing : Billing) (id : String) (current : UInt64) :
    (billing.collect (id, current)).lastBytes[id]? = some current ∧
    (billing.collect (id, current)).pendingDelta[id]? =
      (if current = billing.lastBytes.amount id then billing.pendingDelta[id]?
      else some (billing.pendingDelta.amount id +
        delta (billing.lastBytes.amount id) current)) ∧
    total (billing.collect (id, current)).collected id =
      total billing.collected id +
        (delta (billing.lastBytes.amount id) current).toNat := by
  generalize prevEq : billing.lastBytes.amount id = prev
  simp only [collect, prevEq, delta]
  by_cases greater : prev < current
  · have different : current ≠ prev := (UInt64.ne_of_lt greater).symm
    simp [greater, different, add, Tally.add, total_append]
  · by_cases less : current < prev
    · have different : current ≠ prev := UInt64.ne_of_lt less
      simp [greater, less, different, add, Tally.add, total_append]
    · have same : current = prev :=
        UInt64.le_antisymm (UInt64.not_lt.mp greater) (UInt64.not_lt.mp less)
      simp [same]

/-- A reading does not concern other cameras. -/
theorem collect_of_ne
    (billing : Billing)
    {reading : String × UInt64}
    {id : String}
    (different : reading.1 ≠ id) :
    (billing.collect reading).lastBytes[id]? = billing.lastBytes[id]? ∧
    (billing.collect reading).pendingDelta[id]? =
      billing.pendingDelta[id]? ∧
    total (billing.collect reading).collected id =
      total billing.collected id := by
  simp only [collect]
  refine ⟨?_, ?_, ?_⟩
  · split
    · simp [add, Std.ExtTreeMap.getElem?_insert, different]
    · split <;> simp [add, Std.ExtTreeMap.getElem?_insert, different]
  · split
    · simp [add, Tally.add, Std.ExtTreeMap.getElem?_insert, different]
    · split <;>
        simp [add, Tally.add, Std.ExtTreeMap.getElem?_insert, different]
  · split
    · simp [add, total_append, different]
    · split <;> simp [add, total_append, different]

/-- The loop leaves cameras without a stream alone. -/
theorem foldl_collect_of_absent
    (billing : Billing)
    {readings : List (String × UInt64)}
    {id : String}
    (absent : ∀ reading ∈ readings, reading.1 ≠ id) :
    (readings.foldl collect billing).lastBytes[id]? =
        billing.lastBytes[id]? ∧
      (readings.foldl collect billing).pendingDelta[id]? =
        billing.pendingDelta[id]? ∧
      total (readings.foldl collect billing).collected id =
        total billing.collected id := by
  induction readings generalizing billing with
  | nil => simp
  | cons reading rest inductionHypothesis =>
      rw [List.forall_mem_cons] at absent
      obtain ⟨last, pending, logged⟩ := billing.collect_of_ne absent.1
      rw [List.foldl_cons, ← last, ← pending, ← logged]
      exact inductionHypothesis (billing.collect reading) absent.2

/-- The loop treats each camera by its one reading. -/
theorem foldl_collect_of_mem
    (billing : Billing)
    {readings : List (String × UInt64)}
    (distinct : readings.Pairwise fun first second => first.1 ≠ second.1)
    {id : String}
    {current : UInt64}
    (member : (id, current) ∈ readings) :
    (readings.foldl collect billing).lastBytes[id]? = some current ∧
      (readings.foldl collect billing).pendingDelta[id]? =
        (if current = billing.lastBytes.amount id then
          billing.pendingDelta[id]?
        else some (billing.pendingDelta.amount id +
          delta (billing.lastBytes.amount id) current)) ∧
      total (readings.foldl collect billing).collected id =
        total billing.collected id +
          (delta (billing.lastBytes.amount id) current).toNat := by
  induction readings generalizing billing with
  | nil => simp at member
  | cons reading rest inductionHypothesis =>
      rw [List.pairwise_cons] at distinct
      rw [List.foldl_cons]
      rcases List.mem_cons.mp member with same | later
      · subst same
        have absent : ∀ other ∈ rest, other.1 ≠ id := fun other inRest =>
          (distinct.1 other inRest).symm
        obtain ⟨last, pending, logged⟩ :=
          foldl_collect_of_absent (billing.collect (id, current)) absent
        rw [last, pending, logged]
        exact billing.collect_self id current
      · have different : reading.1 ≠ id := distinct.1 _ later
        obtain ⟨last, pending, logged⟩ := billing.collect_of_ne different
        have sameLast : (billing.collect reading).lastBytes.amount id =
            billing.lastBytes.amount id := by
          simp only [Tally.amount, Std.ExtTreeMap.getD_eq_getD_getElem?, last]
        have samePending : (billing.collect reading).pendingDelta.amount id =
            billing.pendingDelta.amount id := by
          simp only [Tally.amount, Std.ExtTreeMap.getD_eq_getD_getElem?, pending]
        rw [← sameLast, ← samePending, ← pending, ← logged]
        exact inductionHypothesis (billing.collect reading) distinct.2 later

end Billing

/-! ## No delta is applied twice -/

namespace Billing

/-- Unflushed traffic of a camera never exceeds what the log still allows. -/
def Covered (billing : Billing) (id : String) (flushed allowance : Nat) : Prop :=
  flushed + (billing.pendingDelta.amount id).toNat ≤
    allowance + total billing.collected id

theorem covered_add
    {billing : Billing}
    {id : String}
    {flushed allowance : Nat}
    (covered : billing.Covered id flushed allowance)
    (other : String)
    (delta : UInt64) :
    (billing.add other delta).Covered id flushed allowance := by
  unfold Covered at covered ⊢
  simp only [add, Tally.amount_add, total_append, total_cons, total_nil]
  by_cases same : other = id
  · subst same
    have wrapped : (billing.pendingDelta.amount other + delta).toNat ≤
        (billing.pendingDelta.amount other).toNat + delta.toNat := by
      rw [UInt64.toNat_add]
      exact Nat.mod_le _ _
    simp only [if_true]
    omega
  · simp only [same, if_false]
    omega

/-- Collecting keeps the account of every camera covered. -/
theorem covered_collect
    {billing : Billing}
    {id : String}
    {flushed allowance : Nat}
    (covered : billing.Covered id flushed allowance)
    (reading : String × UInt64) :
    (billing.collect reading).Covered id flushed allowance := by
  have added : ∀ next : Billing, next.Covered id flushed allowance →
      Covered { next with
        lastBytes := next.lastBytes.insert reading.1 reading.2 }
        id flushed allowance :=
    fun _ holds => holds
  simp only [collect]
  apply added
  split
  · exact covered_add covered _ _
  · split
    · exact covered_add covered _ _
    · exact covered

theorem covered_collectBillingDelta
    {billing : Billing}
    {id : String}
    {flushed allowance : Nat}
    (covered : billing.Covered id flushed allowance)
    (readings : List (String × UInt64)) :
    (billing.collectBillingDelta readings).Covered id flushed allowance := by
  have loop : (readings.foldl collect billing).Covered id flushed allowance := by
    induction readings generalizing billing with
    | nil => exact covered
    | cons reading rest inductionHypothesis =>
        exact inductionHypothesis (covered_collect covered reading)
  exact loop

end Billing

namespace BillingState

/-- Persisted plus pending traffic of a camera is covered by the allowance and
the deltas collected. -/
def Accounted (id : String) (allowance : Nat) (state : BillingState) : Prop :=
  state.billing.Covered id (trafficUsed state.db id) allowance

/-- A tick whose flush is whole for a camera keeps its account. -/
theorem accounted_tick
    {nowMonth id : String}
    {allowance : Nat}
    {state next : BillingState}
    {t : Tick}
    (accounted : Accounted id allowance state)
    (whole : FlushedWhole id state t)
    (taken : tick nowMonth state t = some next) :
    Accounted id allowance next := by
  have covered :=
    Billing.covered_collectBillingDelta accounted t.readings
  unfold tick at taken
  simp only at taken
  split at taken
  · rw [← Option.some.inj taken]
    exact covered
  · split at taken
    · rename_i permuted
      have flushed : total t.order id = (Tally.amount _ id).toNat :=
        (total_perm permuted id).trans (total_toList _ id)
      obtain ⟨bound, unchanged⟩ :=
        trafficUsed_batchUpdateTraffic t.order nowMonth t.failAt state.db id whole
      unfold Billing.Covered at covered
      split at taken
      · rename_i db succeeded
        simp only [succeeded] at bound
        rw [← Option.some.inj taken]
        simp only [Accounted, Billing.Covered, Tally.amount_empty,
          UInt64.toNat_zero]
        omega
      · rename_i db failed
        simp only [failed, forall_const] at unchanged
        rw [← Option.some.inj taken]
        simp only [Accounted, Billing.Covered]
        omega
    · simp at taken

end BillingState

open BillingState

/-- In every run of billing ticks within one month, no flush of which fails
after committing a chunk that holds the camera, the persisted traffic of the
camera never exceeds its starting value plus the deltas collected for it. -/
theorem traffic_le_collected_of_flushedWhole
    (nowMonth id : String)
    (db : DB)
    (ticks : List Tick)
    {finish : BillingState}
    (reached : run (tick nowMonth) (start db) ticks = some finish)
    (whole : Meets (tick nowMonth) (FlushedWhole id) (start db) ticks) :
    trafficUsed finish.db id ≤
      trafficUsed db id + total finish.billing.collected id := by
  have initial : Accounted id (trafficUsed db id) (start db) := by
    simp [Accounted, Billing.Covered, start, Billing.start]
  have accounted : Accounted id (trafficUsed db id) finish := whole.invariant
    (fun _ _ _ holds met taken => accounted_tick holds met taken)
    initial reached
  unfold Accounted Billing.Covered at accounted
  omega

/-- A flush that fails before it commits anything, and its retry after more
traffic. -/
theorem traffic_le_collected_of_flushedWhole_retried :
    let ticks : List Tick :=
      [{ readings := [("cam", 5)], order := [("cam", 5)], failAt := some 0 },
        { readings := [("cam", 8)], order := [("cam", 8)], failAt := none }]
    let db := DB.empty.set cameras "cam" { id := "cam" }
    ∃ finish, run (tick "2026-01") (start db) ticks = some finish ∧
      trafficUsed finish.db "cam" ≤
        trafficUsed db "cam" + total finish.billing.collected "cam" := by
  intro ticks db
  have enabled : (run (tick "2026-01") (start db) ticks).isSome := by
    decide +kernel
  obtain ⟨finish, reached⟩ := Option.isSome_iff_exists.mp enabled
  refine ⟨finish, reached, ?_⟩
  apply traffic_le_collected_of_flushedWhole "2026-01" "cam" db ticks reached
  simp [Meets, FlushedWhole, ticks, committedBefore]

/-! ## A flush that fails halfway -/

namespace Billing

/-- The first collection of distinct streams makes their counters pending. -/
theorem pendingDelta_first
    {readings : List (String × UInt64)}
    (distinct : readings.Pairwise fun first second => first.1 ≠ second.1)
    (positive : ∀ reading ∈ readings, reading.2 ≠ 0) :
    readings.Perm (start.collectBillingDelta readings).pendingDelta.toList := by
  have nodup : readings.Nodup := distinct.imp fun different same =>
    different (congrArg Prod.fst same)
  have nodupToList :
      (start.collectBillingDelta readings).pendingDelta.toList.Nodup :=
    (Store.toList_keys_ne _).imp fun different same =>
      different (congrArg Prod.fst same)
  rw [List.perm_ext_iff_of_nodup nodup nodupToList]
  have pendingOfMem : ∀ id current, (id, current) ∈ readings →
      (readings.foldl collect start).pendingDelta[id]? = some current := by
    intro id current member
    have nonzero := positive _ member
    have pending := (start.foldl_collect_of_mem distinct member).2.1
    have grown : current > 0 := UInt64.pos_iff_ne_zero.mpr nonzero
    simpa [start, nonzero, delta, grown] using pending
  rintro ⟨id, current⟩
  rw [Std.ExtTreeMap.mem_toList_iff_getElem?_eq_some]
  constructor
  · exact pendingOfMem id current
  · intro pending
    by_cases absent : ∀ reading ∈ readings, reading.1 ≠ id
    · have untouched := (start.foldl_collect_of_absent absent).2.1
      have impossible := untouched.symm.trans pending
      simp [start] at impossible
    · push Not at absent
      obtain ⟨⟨other, value⟩, member, same⟩ := absent
      simp only at same
      subst same
      have read := (pendingOfMem other value member).symm.trans pending
      rw [← Option.some.inj read]
      exact member

/-- After a collection, the last counter of every stream is its reading. -/
theorem lastBytes_collectBillingDelta
    (billing : Billing)
    {readings : List (String × UInt64)}
    (distinct : readings.Pairwise fun first second => first.1 ≠ second.1)
    {id : String}
    {current : UInt64}
    (member : (id, current) ∈ readings) :
    (billing.collectBillingDelta readings).lastBytes[id]? = some current := by
  rw [collectBillingDelta, Std.ExtTreeMap.getElem?_filter',
    (billing.foldl_collect_of_mem distinct member).1, Option.filter_some,
    if_pos]
  rw [List.contains_iff_mem]
  exact List.mem_map_of_mem member

/-- Collecting again without traffic in between adds nothing. -/
theorem collectBillingDelta_again
    (billing : Billing)
    {readings : List (String × UInt64)}
    (distinct : readings.Pairwise fun first second => first.1 ≠ second.1) :
    let once := billing.collectBillingDelta readings
    let twice := once.collectBillingDelta readings
    twice.pendingDelta = once.pendingDelta ∧
      ∀ id, total twice.collected id = total once.collected id := by
  intro once twice
  have unchanged : ∀ id,
      twice.pendingDelta[id]? = once.pendingDelta[id]? ∧
        total twice.collected id = total once.collected id := by
    intro id
    by_cases absent : ∀ reading ∈ readings, reading.1 ≠ id
    · exact (once.foldl_collect_of_absent absent).2
    · push Not at absent
      obtain ⟨⟨other, current⟩, member, same⟩ := absent
      simp only at same
      subst same
      have last : once.lastBytes.amount other = current := by
        rw [Tally.amount, Std.ExtTreeMap.getD_eq_getD_getElem?,
          billing.lastBytes_collectBillingDelta distinct member,
          Option.getD_some]
      have effect := (once.foldl_collect_of_mem distinct member).2
      simp only [last, if_true, delta, gt_iff_lt, UInt64.lt_irrefl, if_false,
        UInt64.toNat_zero, Nat.add_zero] at effect
      exact effect
  refine ⟨Std.ExtTreeMap.ext_getElem? fun id => (unchanged id).1, ?_⟩
  exact fun id => (unchanged id).2

end Billing

/-- A tick with traffic to flush, by the outcome of the flush. -/
theorem BillingState.tick_of_pending
    (nowMonth : String)
    (billing : Billing)
    (db : DB)
    (t : Tick)
    (ordered : t.order.Perm
      (billing.collectBillingDelta t.readings).pendingDelta.toList)
    (nonempty : t.order ≠ []) :
    tick nowMonth { billing := billing, db := db } t =
      match batchUpdateTraffic t.order nowMonth t.failAt db with
      | (db, true) =>
          some
            { billing :=
                { billing.collectBillingDelta t.readings with
                  pendingDelta := ∅ }
              db := db }
      | (db, false) =>
          some { billing := billing.collectBillingDelta t.readings, db := db } := by
  have pending :
      (billing.collectBillingDelta t.readings).pendingDelta.isEmpty = false := by
    rw [← Std.ExtTreeMap.isEmpty_toList, ← ordered.isEmpty_eq,
      List.isEmpty_eq_false_iff]
    exact nonempty
  simp only [tick, pending, Bool.false_eq_true, if_false, if_pos ordered]

/-- A first flush that fails and a second one that succeeds, over the same
counters: the pending traffic is offered to the store twice. -/
theorem run_flush_again
    {nowMonth : String}
    {readings : List (String × UInt64)}
    (distinct : readings.Pairwise fun first second => first.1 ≠ second.1)
    (positive : ∀ reading ∈ readings, reading.2 ≠ 0)
    (nonempty : readings ≠ [])
    {failAt : Option Nat}
    {db once final : DB}
    (failed : batchUpdateTraffic readings nowMonth failAt db = (once, false))
    (flushed : batchUpdateTraffic readings nowMonth none once = (final, true)) :
    ∃ finish,
      run (tick nowMonth) (start db)
        [{ readings := readings, order := readings, failAt := failAt },
          { readings := readings, order := readings, failAt := none }] =
        some finish ∧
      finish.db = final ∧
      ∀ id current, (id, current) ∈ readings →
        total finish.billing.collected id = current.toNat := by
  have pending := Billing.pendingDelta_first distinct positive
  obtain ⟨samePending, sameLog⟩ :=
    Billing.start.collectBillingDelta_again distinct
  have firstTick := tick_of_pending nowMonth Billing.start db
    { readings := readings, order := readings, failAt := failAt } pending nonempty
  have secondTick := tick_of_pending nowMonth
    (Billing.start.collectBillingDelta readings) once
    { readings := readings, order := readings, failAt := none }
    (by rw [samePending]; exact pending) nonempty
  simp only [failed] at firstTick
  simp only [flushed] at secondTick
  refine ⟨_, run_cons_eq_some.mpr ⟨_, firstTick,
    run_cons_eq_some.mpr ⟨_, secondTick, run_nil _⟩⟩, rfl, ?_⟩
  intro id current member
  have read := (Billing.start.foldl_collect_of_mem distinct member).2.2
  have first : Billing.delta (Billing.start.lastBytes.amount id) current =
      current := by
    have grown : current > 0 := UInt64.pos_iff_ne_zero.mpr (positive _ member)
    simp [Billing.start, Billing.delta, grown]
  rw [first] at read
  exact (sameLog id).trans (read.trans (Nat.zero_add _))

/-- Identifiers of 200 cameras. -/
def crowdIDs : List String :=
  (List.range 200).map fun k => String.ofList (List.replicate (k + 1) 'x')

/-- Counters of 201 streams, one of them of the camera `cam`. -/
def crowd : List (String × UInt64) :=
  ("cam", 5) :: crowdIDs.map fun id => (id, 1)

/-- A store with all 201 cameras. -/
def crowdDB : DB :=
  (setAll cameras CameraConfig.id DB.empty
    (crowdIDs.map fun id => { id := id })).set cameras "cam" { id := "cam" }

theorem cam_notMem_crowdIDs : ∀ id ∈ crowdIDs, id ≠ "cam" := by
  intro id member
  simp only [crowdIDs, List.mem_map] at member
  obtain ⟨k, _, rfl⟩ := member
  intro same
  have heads := congrArg (fun name : String => name.toList.head?) same
  simp [List.replicate_succ] at heads

theorem crowd_distinct :
    crowd.Pairwise fun first second => first.1 ≠ second.1 := by
  rw [crowd, List.pairwise_cons]
  constructor
  · intro entry member
    simp only [List.mem_map] at member
    obtain ⟨id, inCrowd, rfl⟩ := member
    exact (cam_notMem_crowdIDs id inCrowd).symm
  · rw [List.pairwise_map, crowdIDs, List.pairwise_map]
    refine List.nodup_range.imp fun different same => different ?_
    have lengths := congrArg (fun name : String => name.toList.length) same
    simpa using lengths

theorem crowd_take :
    crowd.take batchSize =
      ("cam", 5) :: (crowdIDs.map fun id => (id, 1)).take 199 :=
  List.take_succ_cons

theorem crowd_drop :
    crowd.drop batchSize = (crowdIDs.map fun id => (id, 1)).drop 199 :=
  List.drop_succ_cons

theorem length_crowd : crowd.length = 201 := by
  simp [crowd, crowdIDs]

/-- The crowd is flushed in two chunks. -/
theorem batches_crowd :
    batches crowd = [crowd.take batchSize, crowd.drop batchSize] := by
  have last : (crowd.drop batchSize).take batchSize = crowd.drop batchSize := by
    apply List.take_of_length_le
    rw [List.length_drop, length_crowd]
    decide
  have count : (crowd.length + (batchSize - 1)) / batchSize = 2 := by
    rw [length_crowd]
    rfl
  rw [batches, count]
  change [(crowd.drop (batchSize * 0)).take batchSize,
    (crowd.drop (batchSize * 1)).take batchSize] = _
  rw [Nat.mul_zero, List.drop_zero, Nat.mul_one, last]

/-- The first chunk charges `cam` once. -/
theorem crowd_first_chunk
    (nowMonth : String)
    {db : DB}
    {cam : CameraConfig}
    (stored : db.get cameras "cam" = .ok cam) :
    ∃ next, (Txn.traffic (crowd.take batchSize) nowMonth).exec db = .ok next ∧
      next.get cameras "cam" = .ok (addTraffic nowMonth 5 cam) := by
  obtain ⟨next, applied⟩ :=
    exec_traffic_ok nowMonth (crowd.take batchSize) db
  refine ⟨next, applied, ?_⟩
  rw [crowd_take] at applied
  obtain ⟨middle, first, others⟩ := chunk_cons_eq_ok.mp applied
  rw [get_chunk_of_absent others]
  · simp only [applyEntry, stored, Except.ok.injEq] at first
    rw [← first, DB.get_set_self]
  · intro entry member
    obtain ⟨id, listed, rfl⟩ := List.mem_map.mp (List.mem_of_mem_take member)
    exact cam_notMem_crowdIDs id listed

/-- The second chunk does not hold `cam`. -/
theorem crowd_second_chunk (nowMonth : String) (db : DB) :
    ∃ next, (Txn.traffic (crowd.drop batchSize) nowMonth).exec db = .ok next ∧
      next.get cameras "cam" = db.get cameras "cam" := by
  obtain ⟨next, applied⟩ :=
    exec_traffic_ok nowMonth (crowd.drop batchSize) db
  refine ⟨next, applied, get_chunk_of_absent applied ?_⟩
  intro entry member
  rw [crowd_drop] at member
  obtain ⟨id, listed, rfl⟩ := List.mem_map.mp (List.mem_of_mem_drop member)
  exact cam_notMem_crowdIDs id listed

/-- Flushing the crowd, with the second transaction rejected and without. -/
theorem batchUpdateTraffic_crowd
    {nowMonth : String}
    {db once final : DB}
    (first : (Txn.traffic (crowd.take batchSize) nowMonth).exec db = .ok once)
    (second : (Txn.traffic (crowd.drop batchSize) nowMonth).exec once =
      .ok final) :
    batchUpdateTraffic crowd nowMonth (some 1) db = (once, false) ∧
      batchUpdateTraffic crowd nowMonth none db = (final, true) := by
  have nonempty : crowd.isEmpty = false := rfl
  have transactions :
      (Call.batchUpdateTraffic crowd nowMonth).transactions =
        some [.traffic (crowd.take batchSize) nowMonth,
          .traffic (crowd.drop batchSize) nowMonth] := by
    rw [Call.transactions, nonempty, if_neg Bool.false_ne_true, batches_crowd]
    rfl
  unfold batchUpdateTraffic
  rw [transactions]
  simp only [execAll, first, second, Option.map_some, Option.map_none]
  exact ⟨rfl, rfl⟩

/-- Two ticks over the same counters; the second transaction of the first flush
is rejected. -/
def crowdTicks : List Tick :=
  [{ readings := crowd, order := crowd, failAt := some 1 },
    { readings := crowd, order := crowd, failAt := none }]

/-- The traffic of `cam` is persisted twice. -/
theorem traffic_exceeds_collected :
    ∃ finish,
      run (tick "2026-01") (start crowdDB) crowdTicks = some finish ∧
      trafficUsed crowdDB "cam" + total finish.billing.collected "cam" <
        trafficUsed finish.db "cam" := by
  have stored : crowdDB.get cameras "cam" = .ok { id := "cam" } :=
    DB.get_set_self _ cameras "cam" _
  obtain ⟨once, firstChunk, chargedOnce⟩ :=
    crowd_first_chunk "2026-01" stored
  obtain ⟨_, secondChunk, _⟩ := crowd_second_chunk "2026-01" once
  obtain ⟨again, firstChunkAgain, chargedTwice⟩ :=
    crowd_first_chunk "2026-01" chargedOnce
  obtain ⟨final, secondChunkAgain, unchanged⟩ :=
    crowd_second_chunk "2026-01" again
  have positive : ∀ reading ∈ crowd, reading.2 ≠ 0 := by
    simp [crowd]
  obtain ⟨finish, reached, isFinal, collected⟩ :=
    run_flush_again crowd_distinct positive (List.cons_ne_nil _ _)
      (batchUpdateTraffic_crowd firstChunk secondChunk).1
      (batchUpdateTraffic_crowd firstChunkAgain secondChunkAgain).2
  refine ⟨finish, reached, ?_⟩
  rw [collected "cam" 5 List.mem_cons_self, isFinal, trafficUsed_of_get stored,
    trafficUsed_of_get (unchanged.trans chargedTwice)]
  decide

end Streaming
end RuseonCore
