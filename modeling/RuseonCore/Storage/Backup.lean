import RuseonCore.Storage.Refinement

/-!
# Backups

`ExportJSON` and `ImportJSON` of `pkg/storage/storage.go`.  The text of a backup is
represented by its payload, since records round-trip through JSON; a text that
does not parse is `none`.  The cameras of a backup come from `ListCameras`, hence
from the cache if there is one.

When every record stands under its own identifier, a backup of up to date lists
overrides the records of the target with those of the source.
-/

namespace RuseonCore
namespace Storage

/-- Why a backup is not imported. -/
inductive ImportError where
  | unmarshal
  | transaction
  deriving DecidableEq

namespace CacheState

/-- The payload of a backup. -/
def exportJSON (s : CacheState) : Except ReadError BackupData × CacheState :=
  let (cams, s) := s.listCameras
  match cams with
  | (_, some err) => (.error err, s)
  | (cams, none) =>
      match s.listTags with
      | (_, some err) => (.error err, s)
      | (tags, none) =>
          match s.listFolders with
          | (_, some err) => (.error err, s)
          | (folders, none) => (.ok ⟨cams, tags, folders⟩, s)

/-- Restore a backup in one transaction.  The flag tells whether the database rejects
it. -/
def importJSON (s : CacheState) (data : Option BackupData) (fails : Bool) :
    Option ImportError × CacheState :=
  match data with
  | none => (some .unmarshal, s)
  | some backup =>
      let s := s.invalidateCameraCache
      if fails then (some .transaction, s)
      else
        match (Txn.restore backup).exec s.db with
        | .error _ => (some .transaction, s)
        | .ok db => (none, { s with db := db })

end CacheState

/-- Every record stands under its own identifier. -/
def DB.OwnIDs (db : DB) : Prop :=
  ∀ (k : RecordKind) (id : String) (record : k.Record),
    db.get k.kind id = .ok record → k.idOf record = id

/-- The record of the source, or else that of the target. -/
def overriding (source target : DB) (k : RecordKind) (id : String) : Except ReadError k.Record :=
  match source.get k.kind id with
  | .ok record => .ok record
  | .error _ => target.get k.kind id

/-- What a backup of a source does to a target: it overrides cameras, tags and folders,
which reproduces the source in an empty target; it leaves users alone; importing it
again changes nothing; and neither does an import that fails, whatever it was given. -/
structure Restores (source : DB) (data : BackupData) (target : CacheState) : Prop where
  succeeds : (target.importJSON (some data) false).1 = none
  overridden : ∀ k : RecordKind, k ≠ .user → ∀ id,
    (target.importJSON (some data) false).2.db.get k.kind id = overriding source target.db k id
  reproduced : target.db = DB.empty → ∀ k : RecordKind, k ≠ .user → ∀ id,
    (target.importJSON (some data) false).2.db.get k.kind id = source.get k.kind id
  users : ∀ username,
    (target.importJSON (some data) false).2.db.get users username =
      target.db.get users username
  twice : ∀ (k : RecordKind) (id : String),
    ((target.importJSON (some data) false).2.importJSON (some data) false).2.db.get k.kind id =
      (target.importJSON (some data) false).2.db.get k.kind id
  unchanged : ∀ input fails, (target.importJSON input fails).1 ≠ none →
    (target.importJSON input fails).2.db = target.db

/-- A storage can be backed up, and its backup restores its records in every target. -/
def BacksUp (s : CacheState) : Prop :=
  ∃ data, s.exportJSON.1 = .ok data ∧ ∀ target, Restores s.db data target

theorem overriding_empty (source : DB) (k : RecordKind) (id : String) :
    overriding source DB.empty k id = source.get k.kind id := by
  rw [overriding, DB.get_empty]
  cases read : source.get k.kind id with
  | ok record => rfl
  | error err => rw [(source.kind_typed k.kind).get_error read]

/-! ## Records under their own identifiers -/

theorem DB.ownIDs_empty : DB.empty.OwnIDs := by
  intro k id record read
  rw [DB.get_empty] at read
  cases read

theorem DB.OwnIDs.set
    {db : DB}
    (own : db.OwnIDs)
    (k : RecordKind)
    {id : String}
    {record : k.Record}
    (same : k.idOf record = id) :
    (db.set k.kind id record).OwnIDs := by
  intro other otherID found read
  by_cases sameKind : k = other
  · subst sameKind
    by_cases sameID : id = otherID
    · subst sameID
      rw [db.get_set_self] at read
      rw [← Except.ok.inj read, same]
    · rw [db.get_set_of_ne k.kind sameID] at read
      exact own k otherID found read
  · rw [db.get_set_other sameKind] at read
    exact own other otherID found read

theorem DB.OwnIDs.delete
    {db : DB}
    (own : db.OwnIDs)
    (k : RecordKind)
    (id : String) :
    (db.delete k.kind id).OwnIDs := by
  intro other otherID found read
  by_cases sameKind : k = other
  · subst sameKind
    by_cases sameID : id = otherID
    · subst sameID
      rw [db.get_delete_self] at read
      cases read
    · rw [db.get_delete_of_ne k.kind sameID] at read
      exact own k otherID found read
  · rw [db.get_delete_other sameKind] at read
    exact own other otherID found read

theorem DB.OwnIDs.setRecords
    {db : DB}
    (own : db.OwnIDs)
    (k : RecordKind)
    (records : List k.Record) :
    (setAll k.kind k.idOf db records).OwnIDs := by
  induction records generalizing db with
  | nil => exact own
  | cons record records inductionHypothesis => exact inductionHypothesis (own.set k rfl)

/-- A transaction keeps records under their own identifiers. -/
def Txn.KeepsIDs (txn : Txn) : Prop :=
  ∀ db next : DB, db.OwnIDs → txn.exec db = .ok next → next.OwnIDs

namespace Txn

theorem keepsIDs_setCamera (cam : CameraConfig) : (setCamera cam).KeepsIDs := by
  rintro db _ own ⟨⟩
  exact own.set .camera rfl

theorem keepsIDs_deleteCamera (id : String) : (deleteCamera id).KeepsIDs := by
  rintro db _ own ⟨⟩
  exact own.delete .camera id

/-- An update writes under the identifier that it was given, so it must not change that
of the camera. -/
theorem keepsIDs_updateCamera
    (id : String)
    {updateFn : CameraConfig → CameraConfig × Bool}
    (keeps : ∀ cam, (updateFn cam).1.id = cam.id) :
    (updateCamera id updateFn).KeepsIDs := by
  intro db next own committed
  cases read : db.get cameras id with
  | error err => simp [exec, read] at committed
  | ok cam =>
      have same : (updateFn cam).1.id = id := (keeps cam).trans (own .camera id cam read)
      by_cases changed : (updateFn cam).2 = true
      · have written : db.set cameras id (updateFn cam).1 = next := by
          simpa [exec, read, changed] using committed
        exact written ▸ own.set .camera same
      · have unwritten : db = next := by simpa [exec, read, changed] using committed
        exact unwritten ▸ own

theorem ownIDs_applyEntry
    {nowMonth : String}
    {db next : DB}
    (own : db.OwnIDs)
    {entry : String × UInt64}
    (applied : applyEntry nowMonth db entry = .ok next) :
    next.OwnIDs := by
  unfold applyEntry at applied
  split at applied
  next => exact Except.ok.inj applied ▸ own
  next => cases applied
  next cam read =>
      have same : (addTraffic nowMonth entry.2 cam).id = cam.id := by
        simp only [addTraffic]
        split_ifs <;> rfl
      exact Except.ok.inj applied ▸ own.set .camera (same.trans (own .camera entry.1 cam read))

theorem keepsIDs_traffic
    (chunk : List (String × UInt64))
    (nowMonth : String) :
    (traffic chunk nowMonth).KeepsIDs := by
  induction chunk with
  | nil =>
      rintro db _ own ⟨⟩
      exact own
  | cons entry entries inductionHypothesis =>
      intro db next own committed
      cases applied : applyEntry nowMonth db entry with
      | error err => simp [exec, applied, bind, Except.bind] at committed
      | ok between =>
          refine inductionHypothesis between next (ownIDs_applyEntry own applied) ?_
          simpa [exec, applied, bind, Except.bind] using committed

theorem keepsIDs_migrate (cfg : Config) : (migrate cfg).KeepsIDs := by
  intro db next own committed
  have camerasOwn : (if !cameras.nonempty db.store && !cfg.cameras.isEmpty then
      setAll cameras CameraConfig.id db cfg.cameras else db).OwnIDs := by
    split
    · exact own.setRecords .camera cfg.cameras
    · exact own
  have tagsOwn : ∀ between : DB, between.OwnIDs →
      (if !tags.nonempty between.store && !cfg.globalTags.isEmpty then
        Except.ok (ε := ReadError) (setAll tags TagConfig.id between cfg.globalTags)
      else .ok between) = .ok next → next.OwnIDs := by
    intro between betweenOwn written
    split at written
    · exact Except.ok.inj written ▸ betweenOwn.setRecords .tag cfg.globalTags
    · exact Except.ok.inj written ▸ betweenOwn
  exact tagsOwn _ camerasOwn committed

theorem keepsIDs_restore (backup : BackupData) : (restore backup).KeepsIDs := by
  rintro db _ own ⟨⟩
  have camerasOwn := own.setRecords .camera backup.cameras
  have tagsOwn := camerasOwn.setRecords .tag backup.tags
  exact tagsOwn.setRecords .folder backup.folders

end Txn

/-! ## Inserting lists of records -/

theorem setAll_cons
    (kind : Kind Record)
    (idOf : Record → String)
    (db : DB)
    (record : Record)
    (records : List Record) :
    setAll kind idOf db (record :: records) =
      setAll kind idOf (db.set kind (idOf record) record) records := rfl

theorem get_setAll
    (k : RecordKind)
    (db : DB)
    {records : List k.Record}
    (distinct : (records.map k.idOf).Nodup)
    (id : String) :
    (setAll k.kind k.idOf db records).get k.kind id =
      match records.find? fun record => k.idOf record = id with
      | some record => .ok record
      | none => db.get k.kind id := by
  induction records generalizing db with
  | nil => rfl
  | cons record records inductionHypothesis =>
      obtain ⟨absent, later⟩ := List.nodup_cons.mp distinct
      rw [setAll_cons, inductionHypothesis _ later]
      by_cases same : k.idOf record = id
      · have none : records.find? (fun record => k.idOf record = id) = none := by
          rw [List.find?_eq_none]
          intro other member found
          refine absent (List.mem_map.mpr ⟨other, member, ?_⟩)
          rw [same]
          exact of_decide_eq_true found
        rw [none, List.find?_cons_of_pos (by simpa using same), ← same]
        exact db.get_set_self k.kind _ record
      · rw [List.find?_cons_of_neg (by simpa using same)]
        cases records.find? fun record => k.idOf record = id with
        | some found => rfl
        | none => exact db.get_set_of_ne k.kind same record

theorem get_setAll_other
    (k other : RecordKind)
    (different : k ≠ other)
    (idOf : k.Record → String)
    (db : DB)
    (records : List k.Record)
    (id : String) :
    (setAll k.kind idOf db records).get other.kind id = db.get other.kind id := by
  induction records generalizing db with
  | nil => rfl
  | cons record records inductionHypothesis =>
      rw [setAll_cons, inductionHypothesis]
      exact db.get_set_other different _ record id

/-- What is read afterwards depends on the records of the same kind only. -/
theorem get_setAll_congr
    (k : RecordKind)
    {db other : DB}
    (same : ∀ id, db.get k.kind id = other.get k.kind id)
    (idOf : k.Record → String)
    (records : List k.Record)
    (id : String) :
    (setAll k.kind idOf db records).get k.kind id =
      (setAll k.kind idOf other records).get k.kind id := by
  induction records generalizing db other with
  | nil => exact same id
  | cons record records inductionHypothesis =>
      rw [setAll_cons, setAll_cons]
      refine inductionHypothesis fun otherID => ?_
      by_cases own : idOf record = otherID
      · rw [own, db.get_set_self, other.get_set_self]
      · rw [db.get_set_of_ne k.kind own, other.get_set_of_ne k.kind own]
        exact same otherID

/-- The records of a database whose records stand under their identifiers. -/
theorem DB.OwnIDs.find?_list
    {db : DB}
    (own : db.OwnIDs)
    (k : RecordKind)
    (id : String) :
    (db.list k.kind).1.find? (fun record => k.idOf record = id) =
      match db.get k.kind id with
      | .ok record => some record
      | .error _ => none := by
  cases read : db.get k.kind id with
  | ok record =>
      have listed : record ∈ (db.list k.kind).1 := db.mem_list_iff k.kind |>.mpr ⟨id, read⟩
      have found : ((db.list k.kind).1.find? fun record => k.idOf record = id).isSome = true :=
        List.find?_isSome.mpr ⟨record, listed, by simpa using own k id record read⟩
      obtain ⟨other, first⟩ := Option.isSome_iff_exists.mp found
      obtain ⟨otherID, otherRead⟩ := (db.mem_list_iff k.kind).mp (List.mem_of_find?_eq_some first)
      have sameID : k.idOf other = id := by simpa using List.find?_some first
      rw [← own k otherID other otherRead, sameID, read] at otherRead
      rw [first, Except.ok.inj otherRead]
  | error err =>
      rw [List.find?_eq_none]
      intro other listed found
      obtain ⟨otherID, otherRead⟩ := (db.mem_list_iff k.kind).mp listed
      have sameID : k.idOf other = id := of_decide_eq_true found
      rw [← own k otherID other otherRead, sameID, read] at otherRead
      cases otherRead

/-- Inserting the records of a source overrides those of the target. -/
theorem DB.OwnIDs.get_setAll_list
    {source : DB}
    (own : source.OwnIDs)
    (k : RecordKind)
    (target : DB)
    (id : String) :
    (setAll k.kind k.idOf target (source.list k.kind).1).get k.kind id =
      overriding source target k id := by
  rw [get_setAll k target (source.list_nodup k.kind (own k)), own.find?_list k id, overriding]
  cases source.get k.kind id <;> rfl

/-- A listing is determined by the records of its kind. -/
theorem list_congr
    {db other : DB}
    {k : RecordKind}
    (same : ∀ id, db.get k.kind id = other.get k.kind id) :
    db.list k.kind = other.list k.kind := by
  have describes := describes_maps other
  rw [describes.list_eq k]
  refine (db.kind_typed k.kind).list_eq fun id record => ?_
  rw [← describes k id record, ← same id]
  rfl

/-! ## Restoring -/

/-- The database after a backup is restored. -/
def restored (target : DB) (data : BackupData) : DB :=
  setAll folders FolderConfig.id
    (setAll tags TagConfig.id (setAll cameras CameraConfig.id target data.cameras) data.tags)
    data.folders

theorem unchanged_of_importJSON
    (target : CacheState)
    (input : Option BackupData)
    (fails : Bool)
    (failed : (target.importJSON input fails).1 ≠ none) :
    (target.importJSON input fails).2.db = target.db := by
  cases input with
  | none => rfl
  | some data =>
      cases fails with
      | true => rfl
      | false => exact absurd rfl failed

/-- The records of a kind in a backup. -/
def BackupData.records (data : BackupData) : (k : RecordKind) → List k.Record
  | .camera => data.cameras
  | .tag => data.tags
  | .folder => data.folders
  | .user => []

/-- The lists of a backup are restored independently. -/
theorem get_restored
    (target : DB)
    (data : BackupData)
    (k : RecordKind)
    (id : String) :
    (restored target data).get k.kind id =
      (setAll k.kind k.idOf target (data.records k)).get k.kind id := by
  have cameraOther : ∀ other : RecordKind, .camera ≠ other → ∀ id,
      (setAll cameras CameraConfig.id target data.cameras).get other.kind id =
        target.get other.kind id :=
    fun other different => get_setAll_other .camera other different _ target data.cameras
  have tagOther : ∀ (db : DB) (other : RecordKind), .tag ≠ other → ∀ id,
      (setAll tags TagConfig.id db data.tags).get other.kind id = db.get other.kind id :=
    fun db other different => get_setAll_other .tag other different _ db data.tags
  have folderOther : ∀ (db : DB) (other : RecordKind), .folder ≠ other → ∀ id,
      (setAll folders FolderConfig.id db data.folders).get other.kind id = db.get other.kind id :=
    fun db other different => get_setAll_other .folder other different _ db data.folders
  cases k with
  | camera =>
      exact (folderOther _ .camera (by decide) id).trans (tagOther _ .camera (by decide) id)
  | tag =>
      exact (folderOther _ .tag (by decide) id).trans
        (get_setAll_congr .tag (cameraOther .tag (by decide)) _ data.tags id)
  | folder =>
      refine get_setAll_congr .folder (fun other => ?_) _ data.folders id
      exact (tagOther _ .folder (by decide) other).trans (cameraOther .folder (by decide) other)
  | user =>
      exact (folderOther _ .user (by decide) id).trans
        ((tagOther _ .user (by decide) id).trans (cameraOther .user (by decide) id))

/-- A backup holds the cached cameras, if there are any. -/
theorem exportJSON_eq (s : CacheState) :
    s.exportJSON.1 = .ok ⟨s.cachedCameras.getD (s.db.list cameras).1, (s.db.list tags).1,
      (s.db.list folders).1⟩ := by
  have camerasListed : s.db.list cameras = ((s.db.list cameras).1, none) :=
    Prod.ext rfl (s.db.list_complete cameras)
  have tagsListed : s.db.list tags = ((s.db.list tags).1, none) :=
    Prod.ext rfl (s.db.list_complete tags)
  have foldersListed : s.db.list folders = ((s.db.list folders).1, none) :=
    Prod.ext rfl (s.db.list_complete folders)
  cases cached : s.cachedCameras with
  | some listed =>
      simp only [CacheState.exportJSON, CacheState.listCameras, cached, CacheState.listTags,
        CacheState.listFolders]
      rw [tagsListed, foldersListed]
      rfl
  | none =>
      simp only [CacheState.exportJSON, CacheState.listCameras, cached, CacheState.listTags,
        CacheState.listFolders]
      rw [camerasListed, tagsListed, foldersListed]
      rfl

/-- A backup with the records of a source restores them. -/
theorem restores_of_records
    {source : DB}
    (own : source.OwnIDs)
    {data : BackupData}
    (complete : ∀ k : RecordKind, k ≠ .user → data.records k = (source.list k.kind).1)
    (target : CacheState) :
    Restores source data target := by
  have overridden : ∀ (db : DB) (k : RecordKind), k ≠ .user → ∀ id,
      (restored db data).get k.kind id = overriding source db k id := by
    intro db k different id
    rw [get_restored, complete k different, own.get_setAll_list k]
  have users : ∀ (db : DB) (username : String),
      (restored db data).get users username = db.get users username :=
    fun db => get_restored db data .user
  refine ⟨rfl, overridden target.db, ?_, users target.db, ?_, unchanged_of_importJSON target⟩
  · intro empty k different id
    refine (overridden target.db k different id).trans ?_
    rw [empty, overriding_empty]
  · intro k id
    change (restored (restored target.db data) data).get k.kind id =
      (restored target.db data).get k.kind id
    by_cases user : k = .user
    · subst user
      exact users (restored target.db data) id
    · have once := overridden target.db k user id
      rw [overridden _ k user id]
      unfold overriding at once ⊢
      cases read : source.get k.kind id with
      | ok record => rw [once, read]
      | error err => rfl

/-- A storage whose camera cache is absent or up to date backs up its records. -/
theorem backsUp_of_coherent
    {s : CacheState}
    (own : s.db.OwnIDs)
    (coherent : s.Coherent) :
    BacksUp s := by
  refine ⟨_, exportJSON_eq s, restores_of_records own fun k different => ?_⟩
  cases k with
  | camera =>
      change s.cachedCameras.getD (s.db.list cameras).1 = (s.db.list cameras).1
      obtain absent | upToDate := coherent
      · rw [absent]
        rfl
      · rw [upToDate]
        rfl
  | tag => rfl
  | folder => rfl
  | user => exact absurd rfl different

/-- The cameras restored in an empty target are those of the database they were
listed in. -/
theorem get_restored_empty
    {past : DB}
    (own : past.OwnIDs)
    {data : BackupData}
    (listed : data.cameras = (past.list cameras).1)
    (id : String) :
    (restored DB.empty data).get cameras id = past.get cameras id := by
  calc (restored DB.empty data).get cameras id
      = (setAll cameras CameraConfig.id DB.empty data.cameras).get cameras id :=
        get_restored DB.empty data .camera id
    _ = (setAll cameras CameraConfig.id DB.empty (past.list cameras).1).get cameras id := by
        rw [listed]
    _ = overriding past DB.empty .camera id := own.get_setAll_list .camera DB.empty id
    _ = past.get cameras id := overriding_empty past .camera id

/-- A cached list that no longer has the cameras of the database is exported all the
same, so its backup does not reproduce them. -/
theorem coherent_of_backsUp
    {s : CacheState}
    (snapshot : ∀ listed, s.cachedCameras = some listed →
      ∃ past : DB, past.OwnIDs ∧ listed = (past.list cameras).1)
    (backsUp : BacksUp s) :
    s.Coherent := by
  cases cached : s.cachedCameras with
  | none => exact Or.inl cached
  | some listed =>
      obtain ⟨past, own, taken⟩ := snapshot listed cached
      obtain ⟨data, exported, restores⟩ := backsUp
      have exportedCameras : data.cameras = (past.list cameras).1 := by
        rw [exportJSON_eq, cached] at exported
        rw [← Except.ok.inj exported, ← taken]
        rfl
      have same : ∀ id, past.get cameras id = s.db.get cameras id := fun id =>
        (get_restored_empty own exportedCameras id).symm.trans
          ((restores (newStorage DB.empty)).reproduced rfl .camera (by decide) id)
      have listings : past.list cameras = s.db.list cameras := list_congr (k := .camera) same
      exact Or.inr (by rw [cached, taken, listings])

end Storage
end RuseonCore
