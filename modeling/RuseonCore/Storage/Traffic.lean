import RuseonCore.Foundation.Tally
import RuseonCore.Storage.Transactions

/-!
# Traffic updates

What `BatchUpdateTraffic` does to the traffic counter of one camera.  An update
is split into chunks of `batchSize` entries, each committed by a transaction of
its own; when a transaction fails, the chunks before it stay committed.
-/

namespace RuseonCore
namespace Storage

/-- Persisted traffic of a camera; zero for a camera that is not stored. -/
def trafficUsed (db : DB) (id : String) : Nat :=
  match db.get cameras id with
  | .ok cam => cam.trafficUsed.toNat
  | .error _ => 0

theorem trafficUsed_of_get
    {db : DB}
    {id : String}
    {cam : CameraConfig}
    (stored : db.get cameras id = .ok cam) :
    trafficUsed db id = cam.trafficUsed.toNat := by
  rw [trafficUsed, stored]

/-- Entries of the chunks committed before the failing transaction. -/
def committedBefore
    (updates : List (String × UInt64))
    (failAt : Nat) : List (String × UInt64) :=
  ((batches updates).take failAt).flatten

/-- Adding traffic raises the counter by at most the delta: a new month resets
it first, and an overflow wraps around. -/
theorem trafficUsed_addTraffic_le
    (nowMonth : String)
    (delta : UInt64)
    (cam : CameraConfig) :
    (addTraffic nowMonth delta cam).trafficUsed.toNat ≤
      cam.trafficUsed.toNat + delta.toNat := by
  have wrapped : ∀ used : UInt64,
      (used + delta).toNat ≤ used.toNat + delta.toNat := by
    intro used
    rw [UInt64.toNat_add]
    exact Nat.mod_le _ _
  unfold addTraffic
  have reset := wrapped 0
  have kept := wrapped cam.trafficUsed
  simp only [UInt64.toNat_zero, Nat.zero_add] at reset
  by_cases newMonth : cam.lastResetMonth ≠ nowMonth <;>
    by_cases unlimited : cam.trafficLimit = 0 <;>
    simp_all

/-- An entry leaves other cameras alone. -/
theorem get_applyEntry_of_ne
    {nowMonth : String}
    {db next : DB}
    {entry : String × UInt64}
    (applied : applyEntry nowMonth db entry = .ok next)
    {id : String}
    (different : entry.1 ≠ id) :
    next.get cameras id = db.get cameras id := by
  unfold applyEntry at applied
  split at applied
  · rw [← Except.ok.inj applied]
  · simp at applied
  · rw [← Except.ok.inj applied, db.get_set_of_ne cameras different]

/-- One entry raises the counter of its own camera only, by at most its
delta. -/
theorem trafficUsed_applyEntry_le
    {nowMonth : String}
    {db next : DB}
    {entry : String × UInt64}
    (applied : applyEntry nowMonth db entry = .ok next)
    (id : String) :
    trafficUsed next id ≤
      trafficUsed db id + (if entry.1 = id then entry.2.toNat else 0) := by
  by_cases same : entry.1 = id
  · subst same
    unfold applyEntry at applied
    split at applied
    · rw [← Except.ok.inj applied]
      exact Nat.le_add_right _ _
    · simp at applied
    · rename_i cam found
      rw [← Except.ok.inj applied]
      simp only [trafficUsed, DB.get_set_self, found, if_true]
      exact trafficUsed_addTraffic_le nowMonth entry.2 cam
  · simp [trafficUsed, get_applyEntry_of_ne applied same]

/-- A chunk applies its first entry, then the others. -/
theorem chunk_cons_eq_ok
    {nowMonth : String}
    {entry : String × UInt64}
    {rest : List (String × UInt64)}
    {db next : DB} :
    (entry :: rest).foldlM (applyEntry nowMonth) db = .ok next ↔
      ∃ middle, applyEntry nowMonth db entry = .ok middle ∧
        rest.foldlM (applyEntry nowMonth) middle = .ok next := by
  rw [List.foldlM_cons]
  cases first : applyEntry nowMonth db entry with
  | error error => simp [bind, Except.bind]
  | ok middle => simp [bind, Except.bind]

/-- A chunk raises the counter of a camera by at most the chunk's total for
it. -/
theorem trafficUsed_chunk_le
    {nowMonth : String}
    {chunk : List (String × UInt64)}
    {db next : DB}
    (applied : chunk.foldlM (applyEntry nowMonth) db = .ok next)
    (id : String) :
    trafficUsed next id ≤ trafficUsed db id + total chunk id := by
  induction chunk generalizing db with
  | nil =>
      rw [List.foldlM_nil] at applied
      rw [← Except.ok.inj applied]
      exact Nat.le_add_right _ _
  | cons entry rest inductionHypothesis =>
      obtain ⟨middle, first, others⟩ := chunk_cons_eq_ok.mp applied
      have later := inductionHypothesis others
      have now := trafficUsed_applyEntry_le first id
      rw [total_cons]
      omega

/-- A chunk leaves cameras without an entry alone. -/
theorem get_chunk_of_absent
    {nowMonth : String}
    {chunk : List (String × UInt64)}
    {db next : DB}
    (applied : chunk.foldlM (applyEntry nowMonth) db = .ok next)
    {id : String}
    (absent : ∀ entry ∈ chunk, entry.1 ≠ id) :
    next.get cameras id = db.get cameras id := by
  induction chunk generalizing db with
  | nil =>
      rw [List.foldlM_nil] at applied
      rw [← Except.ok.inj applied]
  | cons entry rest inductionHypothesis =>
      rw [List.forall_mem_cons] at absent
      obtain ⟨middle, first, others⟩ := chunk_cons_eq_ok.mp applied
      rw [inductionHypothesis others absent.2,
        get_applyEntry_of_ne first absent.1]

/-- Entries of a typed database always apply. -/
theorem applyEntry_ok (nowMonth : String) (db : DB) (entry : String × UInt64) :
    ∃ next, applyEntry nowMonth db entry = .ok next := by
  unfold applyEntry
  split
  · exact ⟨db, rfl⟩
  · rename_i malformed
    have missing := (db.kind_typed cameras).get_error malformed
    simp at missing
  · exact ⟨_, rfl⟩

/-- A traffic transaction fails only if the database rejects it. -/
theorem exec_traffic_ok
    (nowMonth : String)
    (chunk : List (String × UInt64))
    (db : DB) :
    ∃ next, (Txn.traffic chunk nowMonth).exec db = .ok next := by
  change ∃ next, chunk.foldlM (applyEntry nowMonth) db = .ok next
  induction chunk generalizing db with
  | nil => exact ⟨db, rfl⟩
  | cons entry rest inductionHypothesis =>
      obtain ⟨middle, first⟩ := applyEntry_ok nowMonth db entry
      obtain ⟨next, later⟩ := inductionHypothesis middle
      exact ⟨next, chunk_cons_eq_ok.mpr ⟨middle, first, later⟩⟩

theorem execAll_cons_ok
    {txn : Txn}
    {failAt : Option Nat}
    {db next : DB}
    (accepted : failAt ≠ some 0)
    (applied : txn.exec db = .ok next)
    (txns : List Txn) :
    execAll (txn :: txns) failAt db = execAll txns (failAt.map Nat.pred) next := by
  simp [execAll, accepted, applied]

/-- Items before the failing one, when that is not the first. -/
theorem take_failAt_cons
    {failAt : Option Nat}
    (accepted : failAt ≠ some 0)
    (item : α)
    (rest : List α) :
    (item :: rest).take (failAt.getD (item :: rest).length) =
      item :: rest.take ((failAt.map Nat.pred).getD rest.length) := by
  cases failAt with
  | none => simp
  | some k =>
      cases k with
      | zero => exact absurd rfl accepted
      | succ k => simp

/-- Traffic transactions raise the counter of a camera by at most the total of
the chunks before the failing one, and they all commit unless one of them is
rejected. -/
theorem execAll_traffic
    (nowMonth : String)
    (chunks : List (List (String × UInt64)))
    (failAt : Option Nat)
    (db : DB) :
    let outcome :=
      execAll (chunks.map fun chunk => .traffic chunk nowMonth) failAt db
    (∀ id, trafficUsed outcome.1 id ≤ trafficUsed db id +
      total (chunks.take (failAt.getD chunks.length)).flatten id) ∧
    (outcome.2 = false → ∃ k, failAt = some k ∧ k < chunks.length) := by
  induction chunks generalizing failAt db with
  | nil => simp [execAll]
  | cons chunk rest inductionHypothesis =>
      by_cases rejected : failAt = some 0
      · simp [rejected, execAll]
      · obtain ⟨next, applied⟩ := exec_traffic_ok nowMonth chunk db
        obtain ⟨bound, complete⟩ :=
          inductionHypothesis (failAt.map Nat.pred) next
        rw [List.map_cons, execAll_cons_ok rejected applied,
          take_failAt_cons rejected]
        refine ⟨fun id => ?_, fun failed => ?_⟩
        · have laterBound := bound id
          have nowBound := trafficUsed_chunk_le applied id
          rw [List.flatten_cons, total_append]
          omega
        · obtain ⟨_, isLater, inRange⟩ := complete failed
          obtain ⟨k, fails, rfl⟩ := Option.map_eq_some_iff.mp isLater
          refine ⟨k, fails, ?_⟩
          rw [List.length_cons]
          rw [Nat.pred_eq_sub_one] at inRange
          omega

/-- The first chunks hold the first entries in order. -/
theorem flatten_take_batches
    (updates : List (String × UInt64))
    (count : Nat) :
    ((List.range count).map fun i =>
      (updates.drop (batchSize * i)).take batchSize).flatten =
      updates.take (batchSize * count) := by
  induction count with
  | zero => simp
  | succ count inductionHypothesis =>
      rw [List.range_succ, List.map_append, List.flatten_append,
        inductionHypothesis, Nat.mul_succ, List.take_add]
      simp

/-- The chunks of an update hold its entries in order. -/
theorem flatten_batches (updates : List (String × UInt64)) :
    (batches updates).flatten = updates := by
  rw [batches, flatten_take_batches]
  apply List.take_of_length_le
  simp only [batchSize]
  omega

/-- A traffic update raises the counter of a camera by at most its total, and
by nothing if it fails before any chunk with the camera is committed. -/
theorem trafficUsed_batchUpdateTraffic
    (updates : List (String × UInt64))
    (nowMonth : String)
    (failAt : Option Nat)
    (db : DB)
    (id : String)
    (whole : ∀ k, failAt = some k → k < (batches updates).length →
      ∀ entry ∈ committedBefore updates k, entry.1 ≠ id) :
    let outcome := batchUpdateTraffic updates nowMonth failAt db
    trafficUsed outcome.1 id ≤ trafficUsed db id + total updates id ∧
      (outcome.2 = false → trafficUsed outcome.1 id ≤ trafficUsed db id) := by
  simp only [batchUpdateTraffic, Call.transactions]
  by_cases empty : updates.isEmpty
  · simp [empty]
  · simp only [empty, Bool.false_eq_true, if_false]
    obtain ⟨bound, complete⟩ :=
      execAll_traffic nowMonth (batches updates) failAt db
    refine ⟨?_, fun failed => ?_⟩
    · have taken : total ((batches updates).take
          (failAt.getD (batches updates).length)).flatten id ≤
            total updates id := by
        conv_rhs => rw [← flatten_batches updates,
          ← List.take_append_drop (failAt.getD (batches updates).length)
            (batches updates), List.flatten_append, total_append]
        exact Nat.le_add_right _ _
      exact (bound id).trans (Nat.add_le_add_left taken _)
    · obtain ⟨k, rejected, inRange⟩ := complete failed
      have untouched : total ((batches updates).take k).flatten id = 0 :=
        total_eq_zero (whole k rejected inRange)
      have bounded := bound id
      subst rejected
      rw [Option.getD_some, untouched, Nat.add_zero] at bounded
      exact bounded

end Storage
end RuseonCore
