import RuseonCore.Api.Cameras
import RuseonCore.Storage.Migration

/-!
# Identifiers of cameras

`AddCamera` trims the identifier of a new camera and refuses an empty one.
`ImportJSON` and `MigrateFromConfig` store cameras as well, under the identifiers
that the backup or the configuration file gives them.
-/

namespace RuseonCore
namespace Api

open Storage Transition

/-- The identifier is not empty, and has no white space at its ends. -/
def CleanID (id : String) : Prop :=
  id ≠ "" ∧ (∀ c ∈ id.toList.head?, isSpace c = false) ∧
    ∀ c ∈ id.toList.getLast?, isSpace c = false

instance (id : String) : Decidable (CleanID id) :=
  inferInstanceAs (Decidable (_ ∧ _ ∧ _))

/-- All cameras have clean identifiers. -/
def CleanCameras (db : DB) : Prop :=
  ∀ id cam, db.get cameras id = .ok cam → CleanID cam.id

/-- Operations that write cameras, one after the other.  The flags tell whether a
read fails, and whether the transaction fails; a payload that does not parse, and a
nil configuration, is `none`. -/
inductive CameraOp
  | request (incoming : CameraRequest) (readFails fails : Bool)
  | importJSON (backup : Option BackupData) (fails : Bool)
  | migrateFromConfig (cfg : Option Config) (fails : Bool)

namespace CameraOp

/-- Transaction that the operation commits, if it gets that far. -/
def txn (db : DB) : CameraOp → Option Txn
  | .request incoming readFails false =>
      match checkRequest db readFails incoming with
      | .ok job => some job.txn
      | .error _ => none
  | .importJSON (some backup) false => some (.restore backup)
  | .migrateFromConfig (some cfg) false => some (.migrate cfg)
  | _ => none

/-- The database after the operation. -/
def apply (db : DB) (op : CameraOp) : DB :=
  match op.txn db with
  | some txn =>
      match txn.exec db with
      | .ok next => next
      | .error _ => db
  | none => db

def step (db : DB) (op : CameraOp) : Option DB :=
  some (op.apply db)

/-- The operation brings only cameras with clean identifiers; a migration brings
none if there are cameras already. -/
def Vetted (db : DB) : CameraOp → Prop
  | .importJSON (some backup) false => ∀ cam ∈ backup.cameras, CleanID cam.id
  | .migrateFromConfig (some cfg) false =>
      cameras.nonempty db.store = false → ∀ cam ∈ cfg.cameras, CleanID cam.id
  | _ => True

instance (db : DB) (op : CameraOp) : Decidable (op.Vetted db) := by
  unfold Vetted
  split <;> infer_instance

/-- An operation does nothing or commits its transaction. -/
theorem apply_cases (db : DB) (op : CameraOp) :
    op.apply db = db ∨ ∃ txn, op.txn db = some txn ∧ txn.exec db = .ok (op.apply db) := by
  unfold apply
  cases found : op.txn db with
  | none => exact .inl rfl
  | some txn =>
      dsimp only
      cases committed : txn.exec db with
      | error err => exact .inl rfl
      | ok next => exact .inr ⟨txn, rfl, committed⟩

end CameraOp

/-! ## Trimming -/

theorem head?_dropWhile
    {p : Char → Bool}
    {text : List Char}
    {c : Char}
    (first : (text.dropWhile p).head? = some c) :
    p c = false := by
  have known := List.head?_dropWhile_not p text
  rw [first] at known
  exact known

/-- What is left of a text after trimming has no white space at its ends. -/
theorem cleanID_trimSpace
    {text : String}
    (left : trimSpace text ≠ "") :
    CleanID (trimSpace text) := by
  refine ⟨left, ?_, ?_⟩
  · intro c first
    rw [trimSpace, String.toList_ofList, List.head?_reverse] at first
    -- Trimming the end leaves the first character as it was.
    obtain ⟨cut, split⟩ := List.dropWhile_suffix isSpace
      (l := (text.toList.dropWhile isSpace).reverse)
    have same : (text.toList.dropWhile isSpace).head? = some c := by
      rw [← List.getLast?_reverse, ← split, List.getLast?_append, first]
      rfl
    exact head?_dropWhile same
  · intro c last
    rw [trimSpace, String.toList_ofList, List.getLast?_reverse] at last
    exact head?_dropWhile last

/-! ## Transactions -/

section

variable {db next : DB}

theorem CleanCameras.set
    (clean : CleanCameras db)
    {id : String}
    {cam : CameraConfig}
    (cleanID : CleanID cam.id) :
    CleanCameras (db.set cameras id cam) := by
  intro other found read
  by_cases same : id = other
  · subst same
    rw [db.get_set_self] at read
    rw [← Except.ok.inj read]
    exact cleanID
  · rw [db.get_set_of_ne cameras same] at read
    exact clean other found read

theorem CleanCameras.delete
    (clean : CleanCameras db)
    (id : String) :
    CleanCameras (db.delete cameras id) := by
  intro other found read
  by_cases same : id = other
  · subst same
    rw [db.get_delete_self] at read
    cases read
  · rw [db.get_delete_of_ne cameras same] at read
    exact clean other found read

/-- Inserting cameras keeps the identifiers clean exactly if theirs are. -/
theorem cleanCameras_setAll_iff
    (own : db.OwnIDs)
    (clean : CleanCameras db)
    (cams : List CameraConfig) :
    CleanCameras (setAll cameras CameraConfig.id db cams) ↔ ∀ cam ∈ cams, CleanID cam.id := by
  constructor
  · intro cleanNext cam member
    obtain ⟨found, read⟩ := isStored_of_mem .camera db member
    have same : found.id = cam.id := own.setRecords .camera cams .camera cam.id found read
    rw [← same]
    exact cleanNext cam.id found read
  · intro cleanNew id found read
    rcases get_setAll_cases .camera read with ⟨member, _⟩ | before
    · exact cleanNew found member
    · exact clean id found before

/-- Only the cameras matter. -/
theorem cleanCameras_congr
    (same : ∀ id, next.get cameras id = db.get cameras id) :
    CleanCameras next ↔ CleanCameras db := by
  unfold CleanCameras
  simp only [same]

theorem cleanCameras_restore_iff
    (own : db.OwnIDs)
    (clean : CleanCameras db)
    {backup : BackupData}
    (committed : (Txn.restore backup).exec db = .ok next) :
    CleanCameras next ↔ ∀ cam ∈ backup.cameras, CleanID cam.id := by
  rw [← cleanCameras_setAll_iff own clean]
  apply cleanCameras_congr
  intro id
  rw [← Except.ok.inj committed]
  exact (get_setAll_other .folder .camera (by decide) _ _ _ id).trans
    (get_setAll_other .tag .camera (by decide) _ _ _ id)

theorem cleanCameras_migrate_iff
    (own : db.OwnIDs)
    (clean : CleanCameras db)
    {cfg : Config}
    (committed : (Txn.migrate cfg).exec db = .ok next) :
    CleanCameras next ↔
      (cameras.nonempty db.store = false → ∀ cam ∈ cfg.cameras, CleanID cam.id) := by
  rw [exec_migrate, Except.ok.injEq] at committed
  have untouched : ∀ id, next.get RecordKind.camera.kind id =
      (migrateKind .camera db cfg.cameras).get RecordKind.camera.kind id := by
    rw [← committed]
    exact get_migrateKind_other .tag (by decide) _ cfg.globalTags
  rw [cleanCameras_congr untouched]
  cases present : cameras.nonempty db.store with
  | false =>
      rw [migrateKind_of_empty .camera present, forall_prop_of_true rfl]
      exact cleanCameras_setAll_iff own clean cfg.cameras
  | true =>
      rw [migrateKind_of_nonempty .camera present]
      simpa using clean

/-- A request that passes its checks writes a clean identifier, or that of a stored
camera. -/
theorem cleanCameras_request
    (clean : CleanCameras db)
    {incoming : CameraRequest}
    {readFails : Bool}
    {job : Job}
    (admitted : checkRequest db readFails incoming = .ok job)
    (committed : job.txn.exec db = .ok next) :
    CleanCameras next := by
  cases incoming with
  | addCamera body =>
      cases body with
      | none => cases admitted
      | some cam =>
          simp only [checkRequest] at admitted
          split at admitted
          · cases admitted
          · rename_i left
            split at admitted
            · cases admitted
            · rw [← Except.ok.inj admitted] at committed
              rw [← Except.ok.inj committed]
              exact clean.set (cleanID_trimSpace left)
  | editCamera id body recordTime disableTime =>
      cases body with
      | none => cases admitted
      | some req =>
          rw [← Except.ok.inj admitted] at committed
          simp only [Job.txn, Txn.exec] at committed
          split at committed
          · cases committed
          · rename_i cam read
            rw [← Except.ok.inj committed]
            exact clean.set (clean id cam read)
  | deleteCamera id =>
      simp only [checkRequest] at admitted
      split at admitted
      · rw [← Except.ok.inj admitted] at committed
        rw [← Except.ok.inj committed]
        exact clean.delete id
      · cases admitted

end

/-! ## Runs -/

theorem Job.keepsIDs (job : Job) : job.txn.KeepsIDs := by
  cases job with
  | add cam => exact Txn.keepsIDs_setCamera cam
  | edit id req recordTime disableTime =>
      apply Txn.keepsIDs_updateCamera
      intro cam
      rfl
  | delete id => exact Txn.keepsIDs_deleteCamera id

namespace CameraOp

theorem keepsIDs_txn
    {db : DB}
    {op : CameraOp}
    {txn : Txn}
    (found : op.txn db = some txn) :
    txn.KeepsIDs := by
  unfold CameraOp.txn at found
  split at found
  · split at found
    · rw [← Option.some.inj found]
      exact Job.keepsIDs _
    · cases found
  · rw [← Option.some.inj found]
    exact Txn.keepsIDs_restore _
  · rw [← Option.some.inj found]
    exact Txn.keepsIDs_migrate _
  · cases found

theorem ownIDs_step
    (db : DB)
    (op : CameraOp)
    (next : DB)
    (own : db.OwnIDs)
    (taken : step db op = some next) :
    next.OwnIDs := by
  rw [← Option.some.inj taken]
  rcases op.apply_cases db with same | ⟨txn, found, committed⟩
  · rw [same]
    exact own
  · exact keepsIDs_txn found db _ own committed

/-- One operation keeps the identifiers clean exactly if it is vetted. -/
theorem cleanCameras_step_iff
    (db : DB)
    (op : CameraOp)
    (next : DB)
    (own : db.OwnIDs)
    (clean : CleanCameras db)
    (taken : step db op = some next) :
    CleanCameras next ↔ op.Vetted db := by
  rw [← Option.some.inj taken]
  cases op with
  | request incoming readFails fails =>
      refine iff_of_true ?_ trivial
      rcases (request incoming readFails fails).apply_cases db with
        same | ⟨txn, found, committed⟩
      · rw [same]
        exact clean
      · cases fails with
        | true => cases found
        | false =>
            simp only [CameraOp.txn] at found
            split at found
            · rename_i job admitted
              rw [← Option.some.inj found] at committed
              exact cleanCameras_request clean admitted committed
            · cases found
  | importJSON backup fails =>
      cases backup with
      | none => exact iff_of_true clean trivial
      | some backup =>
          cases fails with
          | true => exact iff_of_true clean trivial
          | false => exact cleanCameras_restore_iff own clean rfl
  | migrateFromConfig cfg fails =>
      cases cfg with
      | none => exact iff_of_true clean trivial
      | some cfg =>
          cases fails with
          | true => exact iff_of_true clean trivial
          | false =>
              apply cleanCameras_migrate_iff own clean
              simp only [apply, CameraOp.txn, exec_migrate]

end CameraOp

/-- For every sequence of operations on an empty database, all cameras have clean
identifiers at all times exactly if the imports, and the migrations into a database
without cameras, bring only such identifiers. -/
theorem camera_ids_clean_iff (ops : List CameraOp) :
    Always CameraOp.step CleanCameras DB.empty ops ↔
      Meets CameraOp.step (fun db op => op.Vetted db) DB.empty ops := by
  have none : CleanCameras DB.empty := by
    intro id cam read
    rw [DB.get_empty] at read
    cases read
  have finished : run CameraOp.step DB.empty ops =
      some (ops.foldl CameraOp.apply DB.empty) :=
    run_total CameraOp.apply DB.empty ops
  exact always_iff_meets CameraOp.ownIDs_step CameraOp.cleanCameras_step_iff
    DB.ownIDs_empty none finished

/-- A backup brings a camera without an identifier, which `AddCamera` refuses. -/
theorem camera_id_empty :
    (∃ db, run CameraOp.step DB.empty [.importJSON (some ⟨[{ id := "" }], [], []⟩) false] =
        some db ∧ db.get cameras "" = .ok { id := "" }) ∧
      checkRequest DB.empty false (.addCamera (some { id := "" })) =
        .error (.error 400 "Camera ID cannot be empty") :=
  ⟨⟨_, rfl, by decide +kernel⟩, by decide +kernel⟩

end Api
end RuseonCore
