import RuseonCore.Api.Cameras
import RuseonCore.Storage.Backup

/-!
# Backups of the stores reached through the API

The storage calls of the handlers in `internal/api/handler.go`, of the traffic
accounting and of the start of the engine, interleaved as in `Storage.CameraCache`.
Every record stays under its own identifier, because no update function changes the
identifier of its camera, and every cached camera list was once the list of the
cameras.  Hence a storage that is reached in this way backs up its records exactly if
its camera cache is absent or up to date.
-/

namespace RuseonCore
namespace Api

open Storage Transition

/-- Update function of `DeleteTag`, which takes the tag off a camera. -/
def dropTag (id : String) (cam : CameraConfig) : CameraConfig × Bool :=
  let newCamTags := cam.tags.filter (· ≠ id)
  let changed := cam.tags.any (· = id)
  if changed then ({ cam with tags := newCamTags }, true) else (cam, false)

/-- Update function of `DeleteFolder`, which takes a camera out of its folder. -/
def leaveFolder (cam : CameraConfig) : CameraConfig × Bool :=
  ({ cam with folderID := "" }, true)

/-- Storage calls that write cameras, by the operation that makes them. -/
inductive StoreCall
  | addCamera (cam : CameraConfig)
  | editCamera (id : String) (req : CameraConfig) (recordTime disableTime : String)
  | deleteCamera (id : String)
  | deleteTag (camID id : String)
  | deleteFolder (camID : String)
  | importBackupJSON (backup : Option BackupData)
  | flushBilling (updates : List (String × UInt64)) (nowMonth : String)
  | runEngine (cfg : Option Config)

/-- The call that is made. -/
def StoreCall.call : StoreCall → Call
  | .addCamera cam => .saveCamera cam
  | .editCamera id req recordTime disableTime =>
      .updateCameraTx id (applyEdit req recordTime disableTime)
  | .deleteCamera id => .deleteCamera id
  | .deleteTag camID id => .updateCameraTx camID (dropTag id)
  | .deleteFolder camID => .updateCameraTx camID leaveFolder
  | .importBackupJSON backup => .importJSON backup
  | .flushBilling updates nowMonth => .batchUpdateTraffic updates nowMonth
  | .runEngine cfg => .migrateFromConfig cfg

/-- Atomic steps of the calls made to a storage.  Calls that write tags, folders or users
consist of their transaction; one that fails is no step. -/
inductive StoreStep
  | begin (call : StoreCall)
  | load
  | view (reader : Nat) (fails : Bool)
  | store (reader : Nat)
  | commit (writer : Nat) (fails : Bool)
  | saveTag (tag : TagConfig)
  | deleteTag (id : String)
  | saveFolder (folder : FolderConfig)
  | deleteFolder (id : String)
  | saveUser (user : User)
  | deleteUser (username : String)
  | reopen

/-- Effect of one step. -/
def storeStep (s : CacheState) : StoreStep → Option CacheState
  | .begin call => s.step (.invalidate call.call)
  | .load => s.step .load
  | .view reader fails => s.step (.view reader fails)
  | .store reader => s.step (.store reader)
  | .commit writer fails => s.step (.commit writer fails)
  | .saveTag tag => some (s.saveTag tag)
  | .deleteTag id => some (s.deleteTag id)
  | .saveFolder folder => some (s.saveFolder folder)
  | .deleteFolder id => some (s.deleteFolder id)
  | .saveUser user => some (s.saveUser user)
  | .deleteUser username => some (s.deleteUser username)
  | .reopen => some (newStorage s.db)

/-- No overtaking between the commits and the fillings of the camera cache. -/
def InOrder (s : CacheState) : StoreStep → Prop
  | .store reader => s.InOrder (.store reader)
  | .commit writer fails => s.InOrder (.commit writer fails)
  | _ => True

/-! ## Records and camera lists of reachable stores -/

theorem id_dropTag (id : String) (cam : CameraConfig) : (dropTag id cam).1.id = cam.id := by
  simp only [dropTag]
  split <;> rfl

/-- No call of the API moves a record away from its identifier. -/
theorem StoreCall.keepsIDs
    (call : StoreCall)
    {txns : List Txn}
    (made : call.call.transactions = some txns) :
    ∀ txn ∈ txns, txn.KeepsIDs := by
  cases call with
  | addCamera cam =>
      cases made
      exact List.forall_mem_singleton.mpr (Txn.keepsIDs_setCamera cam)
  | editCamera id req recordTime disableTime =>
      cases made
      exact List.forall_mem_singleton.mpr (Txn.keepsIDs_updateCamera id fun cam => rfl)
  | deleteCamera id =>
      cases made
      exact List.forall_mem_singleton.mpr (Txn.keepsIDs_deleteCamera id)
  | deleteTag camID id =>
      cases made
      exact List.forall_mem_singleton.mpr (Txn.keepsIDs_updateCamera camID (id_dropTag id))
  | deleteFolder camID =>
      cases made
      exact List.forall_mem_singleton.mpr (Txn.keepsIDs_updateCamera camID fun cam => rfl)
  | importBackupJSON backup =>
      obtain ⟨data, _, singleton⟩ := Option.map_eq_some_iff.mp made
      rw [← singleton]
      exact List.forall_mem_singleton.mpr (Txn.keepsIDs_restore data)
  | flushBilling updates nowMonth =>
      simp only [StoreCall.call, Call.transactions] at made
      split at made
      · cases made
      · rw [← Option.some.inj made]
        exact List.forall_mem_map.mpr fun chunk _ => Txn.keepsIDs_traffic chunk nowMonth
  | runEngine cfg =>
      obtain ⟨config, _, singleton⟩ := Option.map_eq_some_iff.mp made
      rw [← singleton]
      exact List.forall_mem_singleton.mpr (Txn.keepsIDs_migrate config)

/-- The cameras of a database with every record under its identifier. -/
def Listing (listed : List CameraConfig) : Prop :=
  ∃ past : DB, past.OwnIDs ∧ listed = (past.list cameras).1

/-- What holds of every store reached through the API. -/
structure Sourced (s : CacheState) : Prop where
  own : s.db.OwnIDs
  cached : ∀ listed, s.cachedCameras = some listed → Listing listed
  readers : ∀ listed, some listed ∈ s.readers → Listing listed
  writers : ∀ txns ∈ s.writers, ∀ txn ∈ txns, txn.KeepsIDs

theorem sourced_newStorage {db : DB} (own : db.OwnIDs) : Sourced (newStorage db) where
  own := own
  cached := by
    intro listed cached
    cases cached
  readers := by
    intro listed member
    cases member
  writers := by
    intro txns member
    cases member

namespace Sourced

variable {s : CacheState}

/-- Writing records under their identifiers beside the cache. -/
theorem write
    (sourced : Sourced s)
    {db : DB}
    (own : db.OwnIDs) :
    Sourced { s with db := db } where
  own := own
  cached := sourced.cached
  readers := sourced.readers
  writers := sourced.writers

theorem load
    (sourced : Sourced s)
    {next : CacheState}
    (taken : s.step .load = some next) :
    Sourced next := by
  simp only [CacheState.step] at taken
  split at taken
  next => exact Option.some.inj taken ▸ sourced
  next =>
      cases taken
      refine ⟨sourced.own, sourced.cached, fun listed member => ?_, sourced.writers⟩
      obtain old | new := List.mem_append.mp member
      · exact sourced.readers listed old
      · cases List.mem_singleton.mp new

theorem view
    (sourced : Sourced s)
    (reader : Nat)
    (fails : Bool) :
    Sourced (s.viewCameras reader fails) := by
  have ended : Sourced { s with readers := s.readers.eraseIdx reader } :=
    { own := sourced.own
      cached := sourced.cached
      readers := fun listed member => sourced.readers listed (List.mem_of_mem_eraseIdx member)
      writers := sourced.writers }
  unfold CacheState.viewCameras
  cases listing : s.db.list cameras with
  | mk listed error =>
      cases error with
      | some error => exact ended
      | none =>
          cases fails with
          | true => exact ended
          | false =>
              refine ⟨sourced.own, sourced.cached, fun taken member => ?_, sourced.writers⟩
              obtain old | new := List.mem_or_eq_of_mem_set member
              · exact sourced.readers taken old
              · exact ⟨s.db, sourced.own, by rw [Option.some.inj new, listing]⟩

theorem store
    (sourced : Sourced s)
    {reader : Nat}
    {next : CacheState}
    (taken : s.step (.store reader) = some next) :
    Sourced next := by
  simp only [CacheState.step] at taken
  split at taken
  next listed waiting =>
      cases taken
      refine ⟨sourced.own, fun filled cached => ?_, fun other member => ?_, sourced.writers⟩
      · rw [← Option.some.inj cached]
        exact sourced.readers listed (List.mem_of_getElem? waiting)
      · exact sourced.readers other (List.mem_of_mem_eraseIdx member)
  next => cases taken

/-- A writer that has ended. -/
theorem ended (sourced : Sourced s) (writer : Nat) :
    Sourced { s with writers := s.writers.eraseIdx writer } where
  own := sourced.own
  cached := sourced.cached
  readers := sourced.readers
  writers := fun txns member => sourced.writers txns (List.mem_of_mem_eraseIdx member)

theorem commit
    (sourced : Sourced s)
    {writer : Nat}
    {txn : Txn}
    {rest : List Txn}
    (pending : s.writers[writer]? = some (txn :: rest))
    (fails : Bool) :
    Sourced (s.commitNext writer txn rest fails) := by
  have keeps := sourced.writers _ (List.mem_of_getElem? pending)
  have ended := sourced.ended writer
  unfold CacheState.commitNext
  cases fails with
  | true => exact ended
  | false =>
      cases committed : txn.exec s.db with
      | error err => exact ended
      | ok db =>
          have own : db.OwnIDs := keeps txn List.mem_cons_self s.db db sourced.own committed
          by_cases last : rest.isEmpty = true
          · simpa [last] using ended.write own
          · simp only [last]
            refine ⟨own, sourced.cached, sourced.readers, fun txns member => ?_⟩
            obtain old | new := List.mem_or_eq_of_mem_set member
            · exact sourced.writers txns old
            · intro txn later
              exact keeps txn (List.mem_cons_of_mem _ (new ▸ later))

/-- A call that clears the cache waits with transactions that keep identifiers. -/
theorem begin
    (sourced : Sourced s)
    {call : StoreCall}
    {next : CacheState}
    (taken : s.step (.invalidate call.call) = some next) :
    Sourced next := by
  simp only [CacheState.step] at taken
  split at taken
  next => exact Option.some.inj taken ▸ sourced
  next txns made =>
      cases taken
      refine ⟨sourced.own, fun listed cached => ?_, sourced.readers, fun waiting member => ?_⟩
      · cases cached
      · obtain old | new := List.mem_append.mp member
        · exact sourced.writers waiting old
        · rw [List.mem_singleton.mp new]
          exact call.keepsIDs made

end Sourced

theorem sourced_step
    (s : CacheState)
    (label : StoreStep)
    (next : CacheState)
    (sourced : Sourced s)
    (taken : storeStep s label = some next) :
    Sourced next := by
  cases label with
  | begin call => exact sourced.begin taken
  | load => exact sourced.load taken
  | view reader fails =>
      simp only [storeStep, CacheState.step] at taken
      split at taken
      next => exact Option.some.inj taken ▸ sourced.view reader fails
      next => cases taken
  | store reader => exact sourced.store taken
  | commit writer fails =>
      simp only [storeStep, CacheState.step] at taken
      split at taken
      next txn rest pending => exact Option.some.inj taken ▸ sourced.commit pending fails
      next => exact Option.some.inj taken ▸ sourced.ended writer
      next => cases taken
  | saveTag tag => exact Option.some.inj taken ▸ sourced.write (sourced.own.set .tag rfl)
  | deleteTag id => exact Option.some.inj taken ▸ sourced.write (sourced.own.delete .tag id)
  | saveFolder folder => exact Option.some.inj taken ▸ sourced.write (sourced.own.set .folder rfl)
  | deleteFolder id => exact Option.some.inj taken ▸ sourced.write (sourced.own.delete .folder id)
  | saveUser user => exact Option.some.inj taken ▸ sourced.write (sourced.own.set .user rfl)
  | deleteUser username =>
      exact Option.some.inj taken ▸ sourced.write (sourced.own.delete .user username)
  | reopen => exact Option.some.inj taken ▸ sourced_newStorage sourced.own

theorem backsUp_iff {s : CacheState} (sourced : Sourced s) : BacksUp s ↔ s.Coherent :=
  ⟨coherent_of_backsUp sourced.cached, backsUp_of_coherent sourced.own⟩

/-- Writing records other than cameras leaves a cached list up to date. -/
theorem coherent_write
    {s : CacheState}
    (coherent : s.Coherent)
    {db : DB}
    (same : ∀ id, db.get cameras id = s.db.get cameras id) :
    CacheState.Coherent { s with db := db } := by
  have listings : db.list cameras = s.db.list cameras := list_congr (k := .camera) same
  rw [CacheState.Coherent, listings]
  exact coherent

theorem coherent_storeStep
    {s next : CacheState}
    {label : StoreStep}
    (coherent : s.Coherent)
    (taken : storeStep s label = some next) :
    next.Coherent ↔ InOrder s label := by
  have cached : ∀ cacheStep, s.step cacheStep = some next →
      (next.Coherent ↔ s.InOrder cacheStep) :=
    fun _ taken => CacheState.coherent_step coherent taken
  have saved : ∀ (k : RecordKind) (record : k.Record), k ≠ .camera →
      CacheState.Coherent { s with db := s.db.set k.kind (k.idOf record) record } :=
    fun k record other => coherent_write coherent (s.db.get_set_other other _ record)
  have deleted : ∀ (k : RecordKind) (id : String), k ≠ .camera →
      CacheState.Coherent { s with db := s.db.delete k.kind id } :=
    fun k id other => coherent_write coherent (s.db.get_delete_other other id)
  cases label with
  | begin call => exact cached (.invalidate call.call) taken
  | load => exact cached .load taken
  | view reader fails => exact cached (.view reader fails) taken
  | store reader => exact cached (.store reader) taken
  | commit writer fails => exact cached (.commit writer fails) taken
  | saveTag tag =>
      exact iff_of_true (Option.some.inj taken ▸ saved .tag tag (by decide)) trivial
  | deleteTag id =>
      exact iff_of_true (Option.some.inj taken ▸ deleted .tag id (by decide)) trivial
  | saveFolder folder =>
      exact iff_of_true (Option.some.inj taken ▸ saved .folder folder (by decide)) trivial
  | deleteFolder id =>
      exact iff_of_true (Option.some.inj taken ▸ deleted .folder id (by decide)) trivial
  | saveUser user =>
      exact iff_of_true (Option.some.inj taken ▸ saved .user user (by decide)) trivial
  | deleteUser username =>
      exact iff_of_true (Option.some.inj taken ▸ deleted .user username (by decide)) trivial
  | reopen =>
      exact iff_of_true (Option.some.inj taken ▸ CacheState.coherent_newStorage s.db) trivial

/-- A store reached through the API from an empty database backs up its records exactly
if its camera cache is absent or up to date: the backup then overrides the cameras,
tags and folders of every target, leaves users alone, and has no effect when it fails or
is repeated.  All stores along a run back up their records exactly if no commit and no
filling of the cache overtakes the other. -/
theorem backup_restores_iff
    (labels : List StoreStep)
    {source : CacheState}
    (reached : run storeStep (newStorage DB.empty) labels = some source) :
    (BacksUp source ↔ source.Coherent) ∧
    (Always storeStep BacksUp (newStorage DB.empty) labels ↔
      Meets storeStep InOrder (newStorage DB.empty) labels) := by
  have opened : Sourced (newStorage DB.empty) := sourced_newStorage DB.ownIDs_empty
  have exactStep : ∀ s label next, Sourced s → BacksUp s → storeStep s label = some next →
      (BacksUp next ↔ InOrder s label) := by
    intro s label next sourced backsUp taken
    have coherent : s.Coherent := (backsUp_iff sourced).mp backsUp
    rw [backsUp_iff (sourced_step s label next sourced taken)]
    exact coherent_storeStep coherent taken
  constructor
  · exact backsUp_iff (run_invariant sourced_step opened reached)
  · have initial : BacksUp (newStorage DB.empty) :=
      (backsUp_iff opened).mpr (CacheState.coherent_newStorage DB.empty)
    exact always_iff_meets sourced_step exactStep opened initial reached

/-- A store with a camera and a tag whose cameras have been listed. -/
theorem backup_restores_iff_listed :
    ∃ source,
      run storeStep (newStorage DB.empty)
        [.begin (.addCamera { id := "cam" }), .commit 0 false,
          .saveTag { id := "tag", name := "Yard", color := "red" }, .load, .view 0 false,
          .store 0] = some source ∧
      source.cachedCameras = some [{ id := "cam" }] ∧
      BacksUp source := by
  refine ⟨_, rfl, by decide, ?_⟩
  refine (backup_restores_iff
    [.begin (.addCamera { id := "cam" }), .commit 0 false,
      .saveTag { id := "tag", name := "Yard", color := "red" }, .load, .view 0 false, .store 0]
    rfl).1.mpr (Or.inr ?_)
  decide

/-- The cameras are listed between the invalidation and the commit of `AddCamera`.  Once no
call is in flight, the backup lacks the stored camera, and so does an empty target that has
imported it. -/
theorem stale_backup_lacks_camera :
    ∃ source,
      run storeStep (newStorage DB.empty)
        [.begin (.addCamera { id := "cam" }), .load, .view 0 false, .store 0,
          .commit 0 false] = some source ∧
      source.Quiescent ∧
      source.db.get cameras "cam" = .ok { id := "cam" } ∧
      source.exportJSON.1 = .ok ⟨[], [], []⟩ ∧
      ((newStorage DB.empty).importJSON (some ⟨[], [], []⟩) false).2.db.get cameras "cam" =
        .error .keyNotFound ∧
      ¬BacksUp source := by
  refine ⟨_, rfl, ⟨rfl, rfl⟩, by decide, by decide, by decide, ?_⟩
  rintro ⟨data, exported, restores⟩
  have nothing : data = ⟨[], [], []⟩ := Except.ok.inj (exported.symm.trans (by decide))
  subst nothing
  have absent : ((newStorage DB.empty).importJSON (some ⟨[], [], []⟩) false).2.db.get cameras
      "cam" = .error .keyNotFound := by decide
  have reproduced := (restores (newStorage DB.empty)).reproduced rfl .camera (by decide) "cam"
  cases absent.symm.trans (reproduced.trans (by decide : _ = Except.ok { id := "cam" }))

end Api
end RuseonCore
