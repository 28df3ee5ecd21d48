import RuseonCore.Foundation.Transition
import RuseonCore.Storage.Transactions

/-!
# The camera list cache

`ListCameras` serves the camera list from an atomic cell and fills the cell
from a snapshot of the database; every call that writes cameras clears the cell
before its transactions.  The atomic steps of concurrent calls interleave
freely.  Cell and database agree as long as no commit and no filling of the
cell overtakes the other.  Defensive clones are identities on values.
-/

namespace RuseonCore
namespace Storage

open Transition

/-- Shared state and the calls in flight.  A `ListCameras` that missed the
cache waits without, then with the snapshot it read; a writing call that has
cleared the cache waits with its remaining transactions. -/
structure CacheState where
  db : DB
  cachedCameras : Option (List CameraConfig)
  readers : List (Option (List CameraConfig))
  writers : List (List Txn)

/-- A storage just opened on a database. -/
def newStorage (db : DB) : CacheState where
  db := db
  cachedCameras := none
  readers := []
  writers := []

/-- Atomic steps.  The flag of a step that accesses the database tells whether
the access fails. -/
inductive CacheStep
  | load
  | view (reader : Nat) (fails : Bool)
  | store (reader : Nat)
  | invalidate (call : Call)
  | commit (writer : Nat) (fails : Bool)

namespace CacheState

/-- No storage call is in flight. -/
def Quiescent (state : CacheState) : Prop :=
  state.readers = [] ∧ state.writers = []

/-- The cached list is absent or up to date. -/
def Coherent (state : CacheState) : Prop :=
  state.cachedCameras = none ∨
    state.cachedCameras = some (state.db.list cameras).1

/-- `ListCameras` called while no other call is in flight. -/
def listCameras (state : CacheState) :
    (List CameraConfig × Option ReadError) × CacheState :=
  match state.cachedCameras with
  | some cached => ((cached, none), state)
  | none =>
      match state.db.list cameras with
      | (listed, none) =>
          ((listed, none), { state with cachedCameras := some listed })
      | (listed, some error) => ((listed, some error), state)

/-- Snapshot of a reader that missed the cache.  A failed read ends the call. -/
def viewCameras (state : CacheState) (reader : Nat) (fails : Bool) :
    CacheState :=
  match state.db.list cameras with
  | (listed, none) =>
      if fails then { state with readers := state.readers.eraseIdx reader }
      else { state with readers := state.readers.set reader (some listed) }
  | (_, some _) => { state with readers := state.readers.eraseIdx reader }

/-- Next transaction of a writer.  A failed one ends the call. -/
def commitNext
    (state : CacheState)
    (writer : Nat)
    (txn : Txn)
    (rest : List Txn)
    (fails : Bool) : CacheState :=
  let ended := { state with writers := state.writers.eraseIdx writer }
  if fails then ended
  else
    match txn.exec state.db with
    | .error _ => ended
    | .ok db =>
        if rest.isEmpty then { ended with db := db }
        else { state with db := db, writers := state.writers.set writer rest }

/-- Effect of one atomic step. -/
def step (state : CacheState) : CacheStep → Option CacheState
  | .load =>
      match state.cachedCameras with
      | some _ => some state
      | none => some { state with readers := state.readers ++ [none] }
  | .view reader fails =>
      match state.readers[reader]? with
      | some none => some (state.viewCameras reader fails)
      | _ => none
  | .store reader =>
      match state.readers[reader]? with
      | some (some listed) =>
          some { state with
            cachedCameras := some listed
            readers := state.readers.eraseIdx reader }
      | _ => none
  | .invalidate call =>
      match call.transactions with
      | none => some state
      | some txns =>
          some { state with
            cachedCameras := none
            writers := state.writers ++ [txns] }
  | .commit writer fails =>
      match state.writers[writer]? with
      | some (txn :: rest) => some (state.commitNext writer txn rest fails)
      | some [] =>
          some { state with writers := state.writers.eraseIdx writer }
      | none => none

/-- No overtaking: a transaction that changes the camera list commits while the
cache is empty, and a snapshot is cached while it is still the camera list. -/
def InOrder (state : CacheState) : CacheStep → Prop
  | .store reader => ∀ listed, state.readers[reader]? = some (some listed) →
      listed = (state.db.list cameras).1
  | .commit writer false => ∀ txn rest db,
      state.writers[writer]? = some (txn :: rest) →
      txn.exec state.db = .ok db →
      state.cachedCameras = none ∨
        (db.list cameras).1 = (state.db.list cameras).1
  | _ => True

/-- Taking a snapshot changes neither cache nor database. -/
theorem viewCameras_frame
    (state : CacheState)
    (reader : Nat)
    (fails : Bool) :
    (state.viewCameras reader fails).cachedCameras = state.cachedCameras ∧
      (state.viewCameras reader fails).db = state.db := by
  unfold viewCameras
  split
  · split <;> exact ⟨rfl, rfl⟩
  · exact ⟨rfl, rfl⟩

/-- A transaction leaves the cache alone and either commits or has no effect. -/
theorem commitNext_frame
    (state : CacheState)
    (writer : Nat)
    (txn : Txn)
    (rest : List Txn)
    (fails : Bool) :
    (state.commitNext writer txn rest fails).cachedCameras =
        state.cachedCameras ∧
      ((state.commitNext writer txn rest fails).db = state.db ∧
          (fails = true ∨ ∃ error, txn.exec state.db = .error error) ∨
        fails = false ∧
          txn.exec state.db =
            .ok (state.commitNext writer txn rest fails).db) := by
  unfold commitNext
  cases fails with
  | true => simp
  | false =>
      cases committed : txn.exec state.db with
      | error error => simp
      | ok db => cases rest <;> simp

/-- Coherence depends on the cache and the database only. -/
theorem coherent_congr
    {state next : CacheState}
    (sameCache : next.cachedCameras = state.cachedCameras)
    (sameDB : next.db = state.db) :
    next.Coherent ↔ state.Coherent := by
  rw [Coherent, Coherent, sameCache, sameDB]

/-- What being in order means for a transaction that commits. -/
theorem inOrder_commit_iff
    {state : CacheState}
    {writer : Nat}
    {txn : Txn}
    {rest : List Txn}
    {db : DB}
    (present : state.writers[writer]? = some (txn :: rest))
    (committed : txn.exec state.db = .ok db) :
    state.InOrder (.commit writer false) ↔
      state.cachedCameras = none ∨
        (db.list cameras).1 = (state.db.list cameras).1 := by
  constructor
  · intro inOrder
    exact inOrder txn rest db present committed
  · intro holds other later otherDB otherPresent otherCommitted
    simp only [present, Option.some.injEq, List.cons.injEq] at otherPresent
    rw [← otherPresent.1, committed, Except.ok.injEq] at otherCommitted
    exact otherCommitted ▸ holds

/-- From a coherent state, a transaction stays coherent exactly if it is in
order. -/
theorem coherent_commitNext
    {state : CacheState}
    (coherent : state.Coherent)
    {writer : Nat}
    {txn : Txn}
    {rest : List Txn}
    (present : state.writers[writer]? = some (txn :: rest))
    (fails : Bool) :
    (state.commitNext writer txn rest fails).Coherent ↔
      state.InOrder (.commit writer fails) := by
  obtain ⟨sameCache, ⟨sameDB, failed⟩ | ⟨succeeded, committed⟩⟩ :=
    state.commitNext_frame writer txn rest fails
  · refine iff_of_true ((coherent_congr sameCache sameDB).mpr coherent) ?_
    rcases failed with failed | ⟨error, rolledBack⟩
    · subst failed
      trivial
    · cases fails with
      | true => trivial
      | false =>
          intro other later db otherPresent otherCommitted
          simp only [present, Option.some.injEq, List.cons.injEq]
            at otherPresent
          simp [← otherPresent.1, rolledBack] at otherCommitted
  · subst succeeded
    rw [inOrder_commit_iff present committed, Coherent, sameCache]
    rcases coherent with absent | upToDate
    · simp [absent]
    · simp only [upToDate, reduceCtorEq, false_or, Option.some.injEq]
      exact eq_comm

/-- From a coherent state, a step stays coherent exactly if it is in order. -/
theorem coherent_step
    {state next : CacheState}
    {label : CacheStep}
    (coherent : state.Coherent)
    (taken : state.step label = some next) :
    next.Coherent ↔ state.InOrder label := by
  cases label with
  | load =>
      simp only [step] at taken
      refine iff_of_true ?_ trivial
      split at taken <;> rw [← Option.some.inj taken] <;> exact coherent
  | view reader fails =>
      simp only [step] at taken
      split at taken
      · obtain ⟨sameCache, sameDB⟩ := state.viewCameras_frame reader fails
        rw [← Option.some.inj taken, coherent_congr sameCache sameDB]
        exact iff_of_true coherent trivial
      · simp at taken
  | store reader =>
      simp only [step] at taken
      split at taken
      · rename_i listed present
        rw [← Option.some.inj taken]
        simp [Coherent, InOrder, present]
      · simp at taken
  | invalidate call =>
      simp only [step] at taken
      split at taken
      · rw [← Option.some.inj taken]
        exact iff_of_true coherent trivial
      · rw [← Option.some.inj taken]
        exact iff_of_true (.inl rfl) trivial
  | commit writer fails =>
      simp only [step] at taken
      split at taken
      · rename_i txn rest present
        rw [← Option.some.inj taken]
        exact coherent_commitNext coherent present fails
      · rename_i present
        rw [← Option.some.inj taken]
        refine iff_of_true coherent ?_
        cases fails <;> simp [InOrder, present]
      · simp at taken

/-- A new storage has an empty cache. -/
theorem coherent_newStorage (db : DB) : (newStorage db).Coherent :=
  .inl rfl

/-- Called alone in a coherent state, `ListCameras` returns the cameras of the
database. -/
theorem listCameras_of_coherent
    {state : CacheState}
    (coherent : state.Coherent) :
    state.listCameras.1 = state.db.list cameras := by
  have complete := state.db.list_complete cameras
  unfold listCameras
  rcases coherent with absent | upToDate
  · rw [absent]
    generalize state.db.list cameras = result at complete
    obtain ⟨listed, error⟩ := result
    simp only at complete
    subst complete
    rfl
  · rw [upToDate]
    exact Prod.ext rfl complete.symm

end CacheState

open CacheState

/-- In every interleaving of `ListCameras` with the calls that write cameras,
cache and database agree in all states visited exactly if no commit and no
filling of the cache overtakes the other; in that case `ListCameras` returns the
stored cameras once no call is in flight. -/
theorem cache_coherent_of_inOrder
    (db : DB)
    (labels : List CacheStep)
    {finish : CacheState}
    (reached : run step (newStorage db) labels = some finish) :
    (Always step Coherent (newStorage db) labels ↔
      Meets step InOrder (newStorage db) labels) ∧
    (Meets step InOrder (newStorage db) labels → finish.Quiescent →
      (finish.cachedCameras = none ∨
        finish.cachedCameras = some (finish.db.list cameras).1) ∧
      finish.listCameras.1 = finish.db.list cameras) := by
  refine ⟨?_, fun inOrder _ => ?_⟩
  · exact always_iff_meets_of_exact
      (fun _ _ _ coherent taken => coherent_step coherent taken)
      (coherent_newStorage db) reached
  · have coherent : finish.Coherent := inOrder.invariant
      (fun _ _ _ coherent met taken => (coherent_step coherent taken).mpr met)
      (coherent_newStorage db) reached
    exact ⟨coherent, listCameras_of_coherent coherent⟩

/-- A reader fills the cache between two saves. -/
def readBetween : List CacheStep :=
  [.invalidate (.saveCamera { id := "cam" }), .commit 0 false, .load, .view 0 false,
    .store 0, .invalidate (.saveCamera { id := "door" }), .commit 0 false]

theorem cache_coherent_of_inOrder_readBetween :
    ∃ finish,
      run step (newStorage DB.empty) readBetween = some finish ∧
      finish.Quiescent ∧
      finish.listCameras.1 = finish.db.list cameras := by
  refine ⟨_, rfl, ⟨rfl, rfl⟩, ?_⟩
  refine ((cache_coherent_of_inOrder DB.empty readBetween rfl).2 ?_ ⟨rfl, rfl⟩).2
  refine ⟨trivial, ?_⟩
  rintro _ ⟨⟩
  refine ⟨fun _ _ _ _ _ => .inl rfl, ?_⟩
  rintro _ ⟨⟩
  refine ⟨trivial, ?_⟩
  rintro _ ⟨⟩
  refine ⟨trivial, ?_⟩
  rintro _ ⟨⟩
  refine ⟨?_, ?_⟩
  · rintro _ ⟨⟩
    rfl
  · rintro _ ⟨⟩
    refine ⟨trivial, ?_⟩
    rintro _ ⟨⟩
    exact ⟨fun _ _ _ _ _ => .inl rfl, fun _ _ => trivial⟩

/-- A reader that fills the cache between the invalidation and the commit of a
save leaves the cache without the saved camera. -/
theorem cache_stale_after_save :
    ∃ finish,
      run step (newStorage DB.empty)
        [.invalidate (.saveCamera { id := "cam" }), .load, .view 0 false,
          .store 0, .commit 0 false] = some finish ∧
      finish.Quiescent ∧
      finish.cachedCameras = some [] ∧
      (finish.db.list cameras).1 = [{ id := "cam" }] ∧
      finish.listCameras.1.1 = [] := by
  refine ⟨_, rfl, ⟨rfl, rfl⟩, ?_⟩
  decide

end Storage
end RuseonCore
