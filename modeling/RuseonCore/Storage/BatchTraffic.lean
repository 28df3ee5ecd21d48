import RuseonCore.Storage.Traffic

/-!
# Outcome of a traffic update

What a `BatchUpdateTraffic` that succeeds leaves in the database.  The map of the
updates has no order, so its entries arrive in any order, each identifier once.
Entries of different cameras commute; hence neither the order nor the cut into
transactions can be seen in the database.
-/

namespace RuseonCore
namespace Storage

/-- Traffic that a camera takes into the month. -/
def carriedTraffic (nowMonth : String) (cam : CameraConfig) : UInt64 :=
  if cam.lastResetMonth = nowMonth then cam.trafficUsed else 0

/-- A camera before and after an update with the delta; sums that do not fit into
64 bits are left open. -/
structure Accumulates
    (nowMonth : String)
    (delta : UInt64)
    (cam after : CameraConfig) : Prop where
  month : after.lastResetMonth = nowMonth
  used : delta.toNat + (carriedTraffic nowMonth cam).toNat < 2 ^ 64 →
    after.trafficUsed.toNat = delta.toNat + (carriedTraffic nowMonth cam).toNat
  limit : after.trafficLimit =
    if cam.trafficLimit = 0 then defaultTrafficLimit else cam.trafficLimit
  others : after = { cam with
    lastResetMonth := after.lastResetMonth
    trafficUsed := after.trafficUsed
    trafficLimit := after.trafficLimit }

theorem addTraffic_eq (nowMonth : String) (delta : UInt64) (cam : CameraConfig) :
    addTraffic nowMonth delta cam =
      { cam with
        lastResetMonth := nowMonth
        trafficUsed := carriedTraffic nowMonth cam + delta
        trafficLimit :=
          if cam.trafficLimit = 0 then defaultTrafficLimit else cam.trafficLimit } := by
  unfold addTraffic carriedTraffic
  by_cases sameMonth : cam.lastResetMonth = nowMonth
  · subst sameMonth
    by_cases unlimited : cam.trafficLimit = 0 <;> simp [unlimited]
  · by_cases unlimited : cam.trafficLimit = 0 <;> simp [sameMonth, unlimited]

theorem accumulates_addTraffic
    (nowMonth : String)
    (delta : UInt64)
    (cam : CameraConfig) :
    Accumulates nowMonth delta cam (addTraffic nowMonth delta cam) := by
  rw [addTraffic_eq]
  refine ⟨rfl, fun fits => ?_, rfl, rfl⟩
  rw [UInt64.toNat_add, Nat.add_comm, Nat.mod_eq_of_lt fits]

/-! ## Sequences of entries -/

section

variable {nowMonth : String} {db next : DB}

/-- An entry of a stored camera. -/
theorem applyEntry_stored
    {entry : String × UInt64}
    {cam : CameraConfig}
    (stored : db.get cameras entry.1 = .ok cam) :
    applyEntry nowMonth db entry =
      .ok (db.set cameras entry.1 (addTraffic nowMonth entry.2 cam)) := by
  unfold applyEntry
  rw [stored]

/-- An entry without a camera. -/
theorem applyEntry_missing
    {entry : String × UInt64}
    (missing : db.get cameras entry.1 = .error .keyNotFound) :
    applyEntry nowMonth db entry = .ok db := by
  unfold applyEntry
  rw [missing]

/-- A camera is stored, or its key is not there. -/
theorem stored_or_missing (db : DB) (id : String) :
    (∃ cam, db.get cameras id = .ok cam) ∨ db.get cameras id = .error .keyNotFound := by
  cases found : db.get cameras id with
  | ok cam => exact .inl ⟨cam, rfl⟩
  | error error =>
      rw [(db.kind_typed cameras).get_error found]
      exact .inr rfl

/-- An entry without a camera commutes with those of other cameras. -/
theorem applyEntry_comm_of_missing
    {first second : String × UInt64}
    (different : first.1 ≠ second.1)
    (missing : db.get cameras first.1 = .error .keyNotFound) :
    (applyEntry nowMonth db first >>= (applyEntry nowMonth · second)) =
      (applyEntry nowMonth db second >>= (applyEntry nowMonth · first)) := by
  obtain ⟨next, applied⟩ := applyEntry_ok nowMonth db second
  have stillMissing : next.get cameras first.1 = .error .keyNotFound :=
    (get_applyEntry_of_ne applied (Ne.symm different)).trans missing
  rw [applyEntry_missing missing, applied]
  change applyEntry nowMonth db second = applyEntry nowMonth next first
  rw [applyEntry_missing stillMissing, applied]

/-- Entries of different cameras commute. -/
theorem applyEntry_comm
    (db : DB)
    {first second : String × UInt64}
    (different : first.1 ≠ second.1) :
    (applyEntry nowMonth db first >>= (applyEntry nowMonth · second)) =
      (applyEntry nowMonth db second >>= (applyEntry nowMonth · first)) := by
  obtain ⟨cam, stored⟩ | missing := stored_or_missing db first.1
  · obtain ⟨other, otherStored⟩ | otherMissing := stored_or_missing db second.1
    · have firstUnchanged := fun record =>
        (db.get_set_of_ne cameras (Ne.symm different) record).trans stored
      have secondUnchanged := fun record =>
        (db.get_set_of_ne cameras different record).trans otherStored
      rw [applyEntry_stored stored, applyEntry_stored otherStored]
      change applyEntry nowMonth _ second = applyEntry nowMonth _ first
      rw [applyEntry_stored (secondUnchanged _), applyEntry_stored (firstUnchanged _),
        db.set_comm cameras different]
    · exact (applyEntry_comm_of_missing (Ne.symm different) otherMissing).symm
  · exact applyEntry_comm_of_missing different missing

/-- Each identifier occurs once. -/
def Distinct (updates : List (String × UInt64)) : Prop :=
  (updates.map Prod.fst).Nodup

instance (updates : List (String × UInt64)) : Decidable (Distinct updates) :=
  inferInstanceAs (Decidable (updates.map Prod.fst).Nodup)

/-- The entries of a map have the same effect in every order. -/
theorem foldlM_applyEntry_perm
    {updates others : List (String × UInt64)}
    (distinct : Distinct updates)
    (same : updates.Perm others)
    (db : DB) :
    updates.foldlM (applyEntry nowMonth) db = others.foldlM (applyEntry nowMonth) db := by
  rw [List.foldlM_eq_foldl, List.foldlM_eq_foldl]
  apply same.foldl_eq'
  intro first firstMember second secondMember reached
  by_cases sameId : first.1 = second.1
  · rw [List.inj_on_of_nodup_map distinct firstMember secondMember sameId]
  · cases reached with
    | error error =>
        calc
          _ = Except.error error := rfl
          _ = _ := rfl
    | ok reached => exact applyEntry_comm reached sameId

/-- Entries store no camera that was missing. -/
theorem get_entries_of_missing
    {updates : List (String × UInt64)}
    (applied : updates.foldlM (applyEntry nowMonth) db = .ok next)
    {id : String}
    (missing : db.get cameras id = .error .keyNotFound) :
    next.get cameras id = .error .keyNotFound := by
  induction updates generalizing db with
  | nil =>
      rw [← Except.ok.inj applied]
      exact missing
  | cons entry updates inductionHypothesis =>
      obtain ⟨middle, first, others⟩ := chunk_cons_eq_ok.mp applied
      apply inductionHypothesis others
      by_cases same : entry.1 = id
      · subst same
        rw [applyEntry_missing missing] at first
        rw [← Except.ok.inj first]
        exact missing
      · rw [get_applyEntry_of_ne first same]
        exact missing

/-- The entry of a stored camera has its effect, wherever it stands among the
others. -/
theorem get_entries_of_mem
    {updates : List (String × UInt64)}
    (distinct : Distinct updates)
    (applied : updates.foldlM (applyEntry nowMonth) db = .ok next)
    {id : String}
    {delta : UInt64}
    (listed : (id, delta) ∈ updates)
    {cam : CameraConfig}
    (stored : db.get cameras id = .ok cam) :
    next.get cameras id = .ok (addTraffic nowMonth delta cam) := by
  induction updates generalizing db with
  | nil => cases listed
  | cons entry updates inductionHypothesis =>
      obtain ⟨middle, first, others⟩ := chunk_cons_eq_ok.mp applied
      obtain ⟨fresh, distinctRest⟩ := List.nodup_cons.mp distinct
      rcases List.mem_cons.mp listed with rfl | later
      · have absent : ∀ entry ∈ updates, entry.1 ≠ id := by
          intro other member same
          exact fresh (List.mem_map.mpr ⟨other, member, same⟩)
        rw [get_chunk_of_absent others absent]
        rw [applyEntry_stored stored] at first
        rw [← Except.ok.inj first, DB.get_set_self]
      · have different : entry.1 ≠ id := by
          intro same
          exact fresh (List.mem_map.mpr ⟨(id, delta), later, same.symm⟩)
        apply inductionHypothesis distinctRest others later
        rw [get_applyEntry_of_ne first different]
        exact stored

/-! ## Sequences of transactions -/

/-- Transactions that all commit apply their entries in turn. -/
theorem entries_of_execAll
    {chunks : List (List (String × UInt64))}
    {failAt : Option Nat}
    (committed : execAll (chunks.map fun chunk => .traffic chunk nowMonth) failAt db =
      (next, true)) :
    chunks.flatten.foldlM (applyEntry nowMonth) db = .ok next := by
  induction chunks generalizing failAt db with
  | nil => exact congrArg Except.ok (Prod.mk.inj committed).1
  | cons chunk chunks inductionHypothesis =>
      rw [List.map_cons, execAll] at committed
      split at committed
      · cases (Prod.mk.inj committed).2
      · split at committed
        · cases (Prod.mk.inj committed).2
        · rename_i middle applied
          rw [List.flatten_cons, List.foldlM_append]
          change (Txn.traffic chunk nowMonth).exec db >>= _ = _
          rw [applied]
          exact inductionHypothesis committed

/-- Transactions of which none is rejected commit whenever their entries apply. -/
theorem execAll_of_entries
    {chunks : List (List (String × UInt64))}
    (applied : chunks.flatten.foldlM (applyEntry nowMonth) db = .ok next) :
    execAll (chunks.map fun chunk => .traffic chunk nowMonth) none db = (next, true) := by
  induction chunks generalizing db with
  | nil => exact Prod.ext (Except.ok.inj applied) rfl
  | cons chunk chunks inductionHypothesis =>
      obtain ⟨middle, first⟩ := exec_traffic_ok nowMonth chunk db
      rw [List.flatten_cons, List.foldlM_append] at applied
      change (Txn.traffic chunk nowMonth).exec db >>= _ = _ at applied
      rw [first] at applied
      rw [List.map_cons, execAll_cons_ok (by simp) first]
      exact inductionHypothesis applied

/-- An empty update, which begins no transaction, is no exception. -/
theorem batchUpdateTraffic_eq_execAll
    (updates : List (String × UInt64))
    (nowMonth : String)
    (failAt : Option Nat)
    (db : DB) :
    batchUpdateTraffic updates nowMonth failAt db =
      execAll ((batches updates).map fun chunk => .traffic chunk nowMonth) failAt db := by
  simp only [batchUpdateTraffic, Call.transactions]
  by_cases empty : updates.isEmpty
  · rw [if_pos empty, List.isEmpty_iff.mp empty]
    rfl
  · rw [if_neg empty]

/-- An update succeeds if no transaction is rejected. -/
theorem batchUpdateTraffic_of_entries
    {updates : List (String × UInt64)}
    (applied : updates.foldlM (applyEntry nowMonth) db = .ok next) :
    batchUpdateTraffic updates nowMonth none db = (next, true) := by
  rw [batchUpdateTraffic_eq_execAll]
  apply execAll_of_entries
  rw [flatten_batches]
  exact applied

end

/-- An update that succeeds bills every listed camera that is stored, creates none,
and leaves the others as they were.  The resulting database is the same for every
order of the entries and for every cut of the entries into transactions. -/
theorem batchUpdateTraffic_bills
    (db : DB)
    (updates : List (String × UInt64))
    (nowMonth : String)
    (failAt : Option Nat)
    {next : DB}
    (distinct : Distinct updates)
    (succeeded : batchUpdateTraffic updates nowMonth failAt db = (next, true)) :
    (∀ id delta, (id, delta) ∈ updates → ∀ cam, db.get cameras id = .ok cam →
      ∃ after, next.get cameras id = .ok after ∧ Accumulates nowMonth delta cam after) ∧
    (∀ id, db.get cameras id = .error .keyNotFound →
      next.get cameras id = .error .keyNotFound) ∧
    (∀ id, (∀ entry ∈ updates, entry.1 ≠ id) →
      next.get cameras id = db.get cameras id) ∧
    (∀ others, updates.Perm others →
      batchUpdateTraffic others nowMonth none db = (next, true)) ∧
    (∀ chunks : List (List (String × UInt64)), updates.Perm chunks.flatten →
      execAll (chunks.map fun chunk => .traffic chunk nowMonth) none db =
        (next, true)) := by
  rw [batchUpdateTraffic_eq_execAll] at succeeded
  have applied := entries_of_execAll succeeded
  rw [flatten_batches] at applied
  refine ⟨?_, ?_, ?_, ?_, ?_⟩
  · intro id delta listed cam stored
    exact ⟨_, get_entries_of_mem distinct applied listed stored,
      accumulates_addTraffic nowMonth delta cam⟩
  · intro id missing
    exact get_entries_of_missing applied missing
  · intro id absent
    exact get_chunk_of_absent applied absent
  · intro others same
    apply batchUpdateTraffic_of_entries
    rw [← foldlM_applyEntry_perm distinct same]
    exact applied
  · intro chunks same
    apply execAll_of_entries
    rw [← foldlM_applyEntry_perm distinct same]
    exact applied

/-- A camera that is billed in a new month. -/
def meteredCamera : CameraConfig where
  id := "cam"
  trafficUsed := 100
  lastResetMonth := "2026-08"

theorem batchUpdateTraffic_bills_newMonth :
    ∃ next after,
      batchUpdateTraffic [("ghost", 7), ("cam", 50)] "2026-09" none
        (DB.empty.set cameras "cam" meteredCamera) = (next, true) ∧
      next.get cameras "cam" = .ok after ∧
      Accumulates "2026-09" 50 meteredCamera after ∧
      next.get cameras "ghost" = .error .keyNotFound := by
  obtain ⟨next, applied⟩ := exec_traffic_ok "2026-09" [("ghost", 7), ("cam", 50)]
    (DB.empty.set cameras "cam" meteredCamera)
  have succeeded := batchUpdateTraffic_of_entries applied
  obtain ⟨bills, creates, -⟩ := batchUpdateTraffic_bills _ _ _ _ (by decide) succeeded
  obtain ⟨after, stored, accumulates⟩ :=
    bills "cam" 50 (by decide) meteredCamera (DB.get_set_self _ _ _ _)
  refine ⟨next, after, succeeded, stored, accumulates, creates "ghost" ?_⟩
  rw [DB.get_set_of_ne _ _ (by decide), DB.get_empty]

end Storage
end RuseonCore
