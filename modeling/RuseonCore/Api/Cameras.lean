import RuseonCore.Api.Http
import RuseonCore.Foundation.Replay
import RuseonCore.Foundation.Transition
import RuseonCore.Storage.Transactions
import RuseonCore.Streaming.Manager

/-!
# Camera requests

`AddCamera`, `EditCamera` and `DeleteCamera` of `internal/api/handler.go`.  Each
request first checks its input, then makes its store transaction, and only later
calls the stream manager; the steps of concurrent requests interleave freely.
Store and manager agree once all requests are finished, provided that the
manager calls for each camera are made in the order of the commits.

Audit logs, metrics and the response cache of the camera list are not modelled.
-/

namespace RuseonCore
namespace Api

open Storage Streaming Transition Replay

/-- Incoming requests; a body that does not bind is `none`.  The two texts of
an edit are the times at which its history entries are made. -/
inductive CameraRequest
  | addCamera (cam : Option CameraConfig)
  | editCamera (id : String) (req : Option CameraConfig)
      (recordTime disableTime : String)
  | deleteCamera (id : String)
  deriving DecidableEq

/-- A request that passed its checks and has still to write. -/
inductive Job
  | add (cam : CameraConfig)
  | edit (id : String) (req : CameraConfig) (recordTime disableTime : String)
  | delete (id : String)
  deriving DecidableEq

/-- Update function of `EditCamera`. -/
def applyEdit
    (req : CameraConfig)
    (recordTime disableTime : String)
    (cam : CameraConfig) : CameraConfig × Bool :=
  ({ cam with
      url := req.url
      retentionDays := req.retentionDays
      tags := req.tags
      folderID := req.folderID
      comment := req.comment
      simPhone := req.simPhone
      simICCID := req.simICCID
      lazyHLS := req.lazyHLS
      tokenAuth := req.tokenAuth
      transport := req.transport
      recordHistory :=
        if cam.record ≠ req.record then
          cam.recordHistory ++
            [{ timestamp := recordTime
               action := if !req.record then "disable" else "enable"
               reason := "" }]
        else cam.recordHistory
      disableHistory :=
        if cam.disabled ≠ req.disabled then
          cam.disableHistory ++
            [{ timestamp := disableTime
               action := if req.disabled then "disable" else "enable"
               reason := req.disableReason }]
        else cam.disableHistory
      disabled := req.disabled
      disableReason := req.disableReason
      record := req.record },
    true)

/-- The part of a request before its store transaction.  The flag tells whether
the existence check fails to read the store. -/
def checkRequest (db : DB) (readFails : Bool) : CameraRequest → Except Response Job
  | .addCamera none => .error (.error 400 "Invalid input")
  | .addCamera (some cam) =>
      let cam := { cam with id := trimSpace cam.id }
      if cam.id = "" then .error (.error 400 "Camera ID cannot be empty")
      else
        match readFails, db.get cameras cam.id with
        | false, .ok _ =>
            .error (.error 409 s!"Camera with ID '{cam.id}' already exists")
        | _, _ => .ok (.add cam)
  | .editCamera _ none _ _ => .error (.error 400 "Invalid input")
  | .editCamera id (some req) recordTime disableTime =>
      .ok (.edit id { req with id := id } recordTime disableTime)
  | .deleteCamera id =>
      match readFails, db.get cameras id with
      | false, .ok _ => .ok (.delete id)
      | _, _ => .error (.error 404 s!"Camera '{id}' not found")

namespace Job

/-- Camera that the job writes. -/
def id : Job → String
  | .add cam => cam.id
  | .edit id _ _ _ => id
  | .delete id => id

/-- Store transaction of the job. -/
def txn : Job → Txn
  | .add cam => .setCamera cam
  | .edit id req recordTime disableTime =>
      .updateCamera id (applyEdit req recordTime disableTime)
  | .delete id => .deleteCamera id

/-- Answer when the transaction fails. -/
def failure : Job → Response
  | .add _ => .error 500 "Failed to save camera to DB"
  | .edit id _ _ _ =>
      .error 404 s!"Camera '{id}' not found or failed to update"
  | .delete _ => .error 500 "Failed to delete camera"

/-- Manager call of the job. -/
def sync (m : Manager) : Job → Manager
  | .add cam => (m.upsertStream cam.id (pipelineOf cam) cam.disabled).1
  | .edit id req _ _ => (m.upsertStream id (pipelineOf req) req.disabled).1
  | .delete id => (m.removeStream id).1

/-- Settings that the manager call leaves its camera with. -/
def settings : Job → Option PipelineConfig
  | .add cam => if cam.disabled then none else some (pipelineOf cam)
  | .edit _ req _ _ => if req.disabled then none else some (pipelineOf req)
  | .delete _ => none

end Job

/-- Store, manager, and the requests in flight: those that passed their checks,
and in commit order those that have still to call the manager.  Answers are
recorded with the request or job they belong to. -/
structure CameraState where
  db : DB
  manager : Manager
  admitted : List Job
  committed : List Job
  refused : List (CameraRequest × Response)
  answered : List (Job × Response)

/-- Atomic steps of requests. -/
inductive CameraStep
  | begin (request : CameraRequest) (readFails : Bool)
  | commit (job : Nat) (fails : Bool)
  | sync (job : Nat)
  deriving DecidableEq

namespace CameraState

/-- Nothing in flight on the given store and manager. -/
def idle (db : DB) (manager : Manager) : CameraState where
  db := db
  manager := manager
  admitted := []
  committed := []
  refused := []
  answered := []

/-- No request is in flight. -/
def Quiescent (state : CameraState) : Prop :=
  state.admitted = [] ∧ state.committed = []

/-- Transaction of an admitted job. -/
def commitJob
    (state : CameraState)
    (position : Nat)
    (job : Job)
    (fails : Bool) : CameraState :=
  let left := { state with admitted := state.admitted.eraseIdx position }
  match fails, job.txn.exec state.db with
  | false, .ok db =>
      { left with db := db, committed := state.committed ++ [job] }
  | _, _ => { left with answered := state.answered ++ [(job, job.failure)] }

/-- Effect of one step. -/
def step (state : CameraState) : CameraStep → Option CameraState
  | .begin request readFails =>
      match checkRequest state.db readFails request with
      | .error response =>
          some { state with refused := state.refused ++ [(request, response)] }
      | .ok job => some { state with admitted := state.admitted ++ [job] }
  | .commit position fails =>
      state.admitted[position]?.map fun job =>
        state.commitJob position job fails
  | .sync position =>
      state.committed[position]?.map fun job =>
        { state with
          manager := job.sync state.manager
          committed := state.committed.eraseIdx position
          answered := state.answered ++ [(job, .ok)] }

/-- The manager calls for each camera are made in commit order. -/
def OldestFirst (state : CameraState) : CameraStep → Prop
  | .sync position => ∀ job, state.committed[position]? = some job →
      ∀ earlier ∈ state.committed.take position, earlier.id ≠ job.id
  | _ => True

instance (state : CameraState) (label : CameraStep) : Decidable (state.OldestFirst label) :=
  match label with
  | .sync position => inferInstanceAs (Decidable (∀ job ∈ state.committed[position]?,
      ∀ earlier ∈ state.committed.take position, earlier.id ≠ job.id))
  | .begin _ _ | .commit _ _ => inferInstanceAs (Decidable True)

end CameraState

/-- Settings with which a camera should be running according to the store. -/
def wanted (db : DB) (id : String) : Option PipelineConfig :=
  match db.get cameras id with
  | .ok cam => if cam.disabled then none else some (pipelineOf cam)
  | .error _ => none

/-- Every camera runs as the store wants it to. -/
def Synced (db : DB) (m : Manager) : Prop :=
  ∀ id, m.running id = wanted db id

/-! ## Agreement of store and manager -/

/-- Agreement in terms of streams and stored cameras. -/
theorem synced_iff {db : DB} {m : Manager} :
    Synced db m ↔
      (∀ id, (∃ st, m.getStream id = some st) ↔
        ∃ cam, db.get cameras id = .ok cam ∧ cam.disabled = false) ∧
      ∀ id st cam, m.getStream id = some st → db.get cameras id = .ok cam →
        st.pipeline = pipelineOf cam := by
  rw [← forall_and]
  apply forall_congr'
  intro id
  unfold Manager.running wanted
  cases registered : m.getStream id with
  | none =>
      cases stored : db.get cameras id with
      | error error => simp
      | ok cam => cases disabled : cam.disabled <;> simp [disabled]
  | some st =>
      cases stored : db.get cameras id with
      | error error => simp
      | ok cam => cases disabled : cam.disabled <;> simp [disabled]

/-- Effect of a job's manager call. -/
theorem running_sync (m : Manager) (job : Job) (id : String) :
    (job.sync m).running id =
      if job.id = id then job.settings else m.running id := by
  cases job with
  | add cam => exact m.running_upsertStream _ _ _ id
  | edit id' req recordTime disableTime =>
      exact m.running_upsertStream _ _ _ id
  | delete id' => exact m.running_removeStream _ id

/-- A committed job makes the store want what its manager call will set. -/
theorem wanted_txn
    {db next : DB}
    {job : Job}
    (committed : job.txn.exec db = .ok next)
    (id : String) :
    wanted next id = if job.id = id then job.settings else wanted db id := by
  cases job with
  | add cam =>
      simp only [Job.txn, Txn.exec, Except.ok.injEq] at committed
      subst next
      by_cases same : cam.id = id
      · subst same
        simp [wanted, Job.id, Job.settings]
      · simp [wanted, Job.id, same, db.get_set_of_ne cameras same]
  | edit id' req recordTime disableTime =>
      simp only [Job.txn, Txn.exec] at committed
      split at committed
      · simp at committed
      · rename_i cam found
        simp only [applyEdit, if_true, Except.ok.injEq] at committed
        subst next
        by_cases same : id' = id
        · subst same
          simp [wanted, Job.id, Job.settings, pipelineOf]
        · simp [wanted, Job.id, same, db.get_set_of_ne cameras same]
  | delete id' =>
      simp only [Job.txn, Txn.exec, Except.ok.injEq] at committed
      subst next
      by_cases same : id' = id
      · subst same
        simp [wanted, Job.id, Job.settings]
      · simp [wanted, Job.id, same, db.get_delete_of_ne cameras same]

namespace CameraState

/-- Once the pending manager calls are made in commit order, every camera runs
as the store wants it to. -/
def WillSync (state : CameraState) : Prop :=
  ∀ id, settle Job.id Job.settings id (state.manager.running id)
    state.committed = wanted state.db id

/-- A transaction keeps the agreement to come. -/
theorem willSync_commitJob
    {state : CameraState}
    (willSync : state.WillSync)
    (position : Nat)
    (job : Job)
    (fails : Bool) :
    (state.commitJob position job fails).WillSync := by
  intro id
  unfold commitJob
  split
  · rename_i db committed
    rw [settle_concat, wanted_txn committed id]
    exact ite_congr rfl (fun _ => rfl) (fun _ => willSync id)
  · exact willSync id

/-- Every step in commit order keeps the agreement to come. -/
theorem willSync_step
    {state next : CameraState}
    {label : CameraStep}
    (willSync : state.WillSync)
    (ordered : state.OldestFirst label)
    (taken : state.step label = some next) :
    next.WillSync := by
  cases label with
  | begin request readFails =>
      simp only [step] at taken
      split at taken <;> rw [← Option.some.inj taken] <;> exact willSync
  | commit position fails =>
      obtain ⟨job, _, rfl⟩ := Option.map_eq_some_iff.mp taken
      exact willSync_commitJob willSync position job fails
  | sync position =>
      obtain ⟨job, present, rfl⟩ := Option.map_eq_some_iff.mp taken
      intro id
      rw [running_sync]
      by_cases same : job.id = id
      · rw [if_pos same, settle_eraseIdx_oldest Job.id Job.settings
          (state.manager.running id) present same]
        · exact willSync id
        · intro earlier before
          rw [← same]
          exact ordered job present earlier before
      · rw [if_neg same, settle_eraseIdx_of_ne Job.id Job.settings
          (state.manager.running id) present same]
        exact willSync id

end CameraState

open CameraState

/-- If the manager calls of each camera are made in commit order, store and
manager agree once no request is in flight. -/
theorem synced_of_oldestFirst
    {db : DB}
    {manager : Manager}
    (synced : Synced db manager)
    {labels : List CameraStep}
    {finish : CameraState}
    (reached : run step (idle db manager) labels = some finish)
    (ordered : Meets step OldestFirst (idle db manager) labels)
    (quiescent : finish.Quiescent) :
    Synced finish.db finish.manager := by
  have initial : (idle db manager).WillSync := fun id => synced id
  have willSync : finish.WillSync := ordered.invariant
    (fun _ _ _ holds met taken => willSync_step holds met taken)
    initial reached
  intro id
  have settled := willSync id
  rw [quiescent.2, settle_nil] at settled
  exact settled

/-- In every interleaving of camera requests whose manager calls are made, for
each camera, in the order of the commits, store and manager agree once no
request is in flight. -/
theorem streams_match_store_of_oldestFirst
    (db : DB)
    (manager : Manager)
    (synced : Synced db manager)
    (labels : List CameraStep)
    {finish : CameraState}
    (reached : run step (idle db manager) labels = some finish)
    (ordered : Meets step OldestFirst (idle db manager) labels)
    (quiescent : finish.Quiescent) :
    (∀ id, (∃ st, finish.manager.getStream id = some st) ↔
      ∃ cam, finish.db.get cameras id = .ok cam ∧ cam.disabled = false) ∧
    ∀ id st cam, finish.manager.getStream id = some st →
      finish.db.get cameras id = .ok cam → st.pipeline = pipelineOf cam := by
  exact synced_iff.mp (synced_of_oldestFirst synced reached ordered quiescent)

/-- An empty store and an empty manager agree. -/
theorem synced_empty : Synced DB.empty Manager.empty := by
  intro id
  simp [Manager.running, Manager.getStream, Manager.empty, wanted]

/-- An edit and a delete of one camera, both committed before the manager is called
for either. -/
def editThenDelete : List CameraStep :=
  [.begin (.addCamera (some { id := " cam" })) false, .commit 0 false, .sync 0,
    .begin (.editCamera "cam" (some { id := "cam", record := true }) "" "") false,
    .begin (.deleteCamera "cam") false, .commit 0 false, .commit 0 false,
    .sync 0, .sync 0]

theorem streams_match_store_of_oldestFirst_editThenDelete :
    ∃ finish,
      run step (idle DB.empty Manager.empty) editThenDelete = some finish ∧
      finish.Quiescent ∧
      ¬ ∃ st, finish.manager.getStream "cam" = some st := by
  refine ⟨_, rfl, ⟨rfl, rfl⟩, ?_⟩
  have agree := streams_match_store_of_oldestFirst DB.empty Manager.empty synced_empty
    editThenDelete rfl (by decide) ⟨rfl, rfl⟩
  rw [agree.1 "cam"]
  rintro ⟨cam, stored, _⟩
  cases stored

/-- An edit and a delete of one camera: the edit commits first and calls the
manager last. -/
def editOvertaken : List CameraStep :=
  [.begin (.addCamera (some { id := "cam" })) false, .commit 0 false, .sync 0,
    .begin (.editCamera "cam" (some { id := "cam", record := true }) "" "") false,
    .commit 0 false,
    .begin (.deleteCamera "cam") false, .commit 0 false,
    .sync 1, .sync 0]

/-- The edit's manager call resurrects the stream of the deleted camera. -/
theorem deleted_camera_resurrected :
    Synced DB.empty Manager.empty ∧
    ∃ finish,
      run step (idle DB.empty Manager.empty) editOvertaken = some finish ∧
      finish.Quiescent ∧
      (∃ st, finish.manager.getStream "cam" = some st) ∧
      finish.db.get cameras "cam" = .error .keyNotFound := by
  exact ⟨synced_empty, _, rfl, ⟨rfl, rfl⟩, ⟨_, rfl⟩, rfl⟩

end Api
end RuseonCore
