import RuseonCore.Storage.CameraCache

/-!
# The storage as four maps

The calls of `pkg/storage/storage.go` on cameras, tags, folders and users, made one
at a time.  All records share one ordered key-value map through their key prefixes,
and the list of cameras is served from a cache when there is one.  What the calls
return is what four independent maps from identifiers to records would return.
-/

namespace RuseonCore
namespace Storage

/-- The kinds of records. -/
inductive RecordKind where
  | camera
  | tag
  | folder
  | user
  deriving DecidableEq

namespace RecordKind

abbrev Record : RecordKind → Type
  | .camera => CameraConfig
  | .tag => TagConfig
  | .folder => FolderConfig
  | .user => User

def kind : (k : RecordKind) → Kind k.Record
  | .camera => cameras
  | .tag => tags
  | .folder => folders
  | .user => users

/-- Identifier that a record is saved under. -/
def idOf : (k : RecordKind) → k.Record → String
  | .camera, record => CameraConfig.id record
  | .tag, record => TagConfig.id record
  | .folder, record => FolderConfig.id record
  | .user, record => User.username record

end RecordKind

/-! ## Calls -/

namespace CacheState

def invalidateCameraCache (s : CacheState) : CacheState :=
  { s with cachedCameras := none }

/-- Save a record that is not a camera. -/
def save (s : CacheState) (kind : Kind Record) (id : String) (record : Record) : CacheState :=
  { s with db := s.db.set kind id record }

/-- Delete a record that is not a camera. -/
def delete (s : CacheState) (kind : Kind Record) (id : String) : CacheState :=
  { s with db := s.db.delete kind id }

def saveCamera (s : CacheState) (cam : CameraConfig) : CacheState :=
  s.invalidateCameraCache.save cameras cam.id cam

def updateCameraTx
    (s : CacheState)
    (id : String)
    (updateFn : CameraConfig → CameraConfig × Bool) : Option ReadError × CacheState :=
  let s := s.invalidateCameraCache
  match (Txn.updateCamera id updateFn).exec s.db with
  | .error error => (some error, s)
  | .ok db => (none, { s with db := db })

def getCamera (s : CacheState) (id : String) : Except ReadError CameraConfig :=
  s.db.get cameras id

def deleteCamera (s : CacheState) (id : String) : CacheState :=
  s.invalidateCameraCache.delete cameras id

def saveTag (s : CacheState) (tag : TagConfig) : CacheState :=
  s.save tags tag.id tag

def deleteTag (s : CacheState) (id : String) : CacheState :=
  s.delete tags id

def getTag (s : CacheState) (id : String) : Except ReadError TagConfig :=
  s.db.get tags id

def listTags (s : CacheState) : List TagConfig × Option ReadError :=
  s.db.list tags

def saveFolder (s : CacheState) (folder : FolderConfig) : CacheState :=
  s.save folders folder.id folder

def deleteFolder (s : CacheState) (id : String) : CacheState :=
  s.delete folders id

def getFolder (s : CacheState) (id : String) : Except ReadError FolderConfig :=
  s.db.get folders id

def listFolders (s : CacheState) : List FolderConfig × Option ReadError :=
  s.db.list folders

def saveUser (s : CacheState) (user : User) : CacheState :=
  s.save users user.username user

def deleteUser (s : CacheState) (username : String) : CacheState :=
  s.delete users username

def getUser (s : CacheState) (username : String) : Except ReadError User :=
  s.db.get users username

/-- No users are returned with an error. -/
def listUsers (s : CacheState) : List User × Option ReadError :=
  match s.db.list users with
  | (_, some error) => ([], some error)
  | (listed, none) => (listed, none)

end CacheState

/-- A call of the storage. -/
inductive Op where
  | save (k : RecordKind) (record : k.Record)
  | delete (k : RecordKind) (id : String)
  | get (k : RecordKind) (id : String)
  | list (k : RecordKind)
  | updateCameraTx (id : String) (updateFn : CameraConfig → CameraConfig × Bool)

/-- Kind of the records that a call is about. -/
def Op.kind : Op → RecordKind
  | .save k _ | .delete k _ | .get k _ | .list k => k
  | .updateCameraTx _ _ => .camera

/-- What a call returns. -/
inductive Answer where
  | written (error : Option ReadError)
  | got (k : RecordKind) (result : Except ReadError k.Record)
  | listed (k : RecordKind) (result : List k.Record × Option ReadError)

/-- Make one call. -/
def CacheState.exec (s : CacheState) : Op → Answer × CacheState
  | .save .camera cam => (.written none, s.saveCamera cam)
  | .save .tag tag => (.written none, s.saveTag tag)
  | .save .folder folder => (.written none, s.saveFolder folder)
  | .save .user user => (.written none, s.saveUser user)
  | .delete .camera id => (.written none, s.deleteCamera id)
  | .delete .tag id => (.written none, s.deleteTag id)
  | .delete .folder id => (.written none, s.deleteFolder id)
  | .delete .user username => (.written none, s.deleteUser username)
  | .get .camera id => (.got .camera (s.getCamera id), s)
  | .get .tag id => (.got .tag (s.getTag id), s)
  | .get .folder id => (.got .folder (s.getFolder id), s)
  | .get .user username => (.got .user (s.getUser username), s)
  | .list .camera => (.listed .camera s.listCameras.1, s.listCameras.2)
  | .list .tag => (.listed .tag s.listTags, s)
  | .list .folder => (.listed .folder s.listFolders, s)
  | .list .user => (.listed .user s.listUsers, s)
  | .updateCameraTx id updateFn =>
      (.written (s.updateCameraTx id updateFn).1, (s.updateCameraTx id updateFn).2)

/-! ## Maps -/

/-- One map from identifiers to records for each kind. -/
abbrev Maps := (k : RecordKind) → Store k.Record

namespace Maps

/-- The record with an identifier. -/
def get (m : Maps) (k : RecordKind) (id : String) : Except ReadError k.Record :=
  match (m k)[id]? with
  | some record => .ok record
  | none => .error .keyNotFound

/-- The records in the order of their identifiers. -/
def list (m : Maps) (k : RecordKind) : List k.Record :=
  (m k).toList.map Prod.snd

def set (m : Maps) (k : RecordKind) (id : String) (record : k.Record) : Maps :=
  Function.update m k ((m k).insert id record)

def delete (m : Maps) (k : RecordKind) (id : String) : Maps :=
  Function.update m k ((m k).erase id)

/-- Make one call. -/
def exec (m : Maps) : Op → Answer × Maps
  | .save k record => (.written none, m.set k (k.idOf record) record)
  | .delete k id => (.written none, m.delete k id)
  | .get k id => (.got k (m.get k id), m)
  | .list k => (.listed k (m.list k, none), m)
  | .updateCameraTx id updateFn =>
      match m.get .camera id with
      | .error error => (.written (some error), m)
      | .ok cam =>
          let (updated, changed) := updateFn cam
          (.written none, if changed then m.set .camera id updated else m)

end Maps

/-- Make calls in turn and collect what they return. -/
def answers (exec : State → Op → Answer × State) : State → List Op → List Answer × State
  | state, [] => ([], state)
  | state, op :: ops =>
      let (answer, next) := exec state op
      let (later, last) := answers exec next ops
      (answer :: later, last)

/-! ## Keys of different kinds -/

theorem key_ne
    {k other : RecordKind}
    (different : k ≠ other)
    (id otherID : String) :
    k.kind.key id ≠ other.kind.key otherID := by
  intro same
  have covered : other.kind.keyPrefix.toList <+: (k.kind.key id).toList := by
    rw [same, Table.key, String.toList_append]
    exact List.prefix_append _ _
  have own : k.kind.keyPrefix.toList <+: (k.kind.key id).toList := by
    rw [Table.key, String.toList_append]
    exact List.prefix_append _ _
  have clash := List.prefix_or_prefix_of_prefix own covered
  cases k <;> cases other <;>
    simp_all [RecordKind.kind, cameras, tags, folders, users, prefixCamera, prefixTag,
      prefixFolder, prefixUser]

theorem DB.get_set_other
    (db : DB)
    {k other : RecordKind}
    (different : k ≠ other)
    (id : String)
    (record : k.Record)
    (otherID : String) :
    (db.set k.kind id record).get other.kind otherID = db.get other.kind otherID := by
  have keys := key_ne different id otherID
  simp [DB.get, DB.set, Table.get, Table.set, Std.ExtTreeMap.getElem?_insert, keys]

theorem DB.get_delete_other
    (db : DB)
    {k other : RecordKind}
    (different : k ≠ other)
    (id otherID : String) :
    (db.delete k.kind id).get other.kind otherID = db.get other.kind otherID := by
  have keys := key_ne different id otherID
  simp [DB.get, DB.delete, Table.get, Table.delete, Std.ExtTreeMap.getElem?_erase, keys]

/-! ## Maps that describe a database -/

/-- The maps hold the records of the database. -/
def Maps.Describes (m : Maps) (db : DB) : Prop :=
  ∀ (k : RecordKind) (id : String) (record : k.Record),
    db.get k.kind id = .ok record ↔ (m k)[id]? = some record

/-- The records of a database, by kind. -/
def DB.maps (db : DB) : Maps :=
  fun k => k.kind.records db.store

theorem describes_maps (db : DB) : db.maps.Describes db :=
  fun k _ _ => (k.kind.getElem?_records db.store).symm

namespace Maps.Describes

variable {m : Maps} {db : DB}

theorem get_eq
    (describes : m.Describes db)
    (k : RecordKind)
    (id : String) :
    db.get k.kind id = m.get k id := by
  unfold Maps.get
  cases found : (m k)[id]? with
  | some record => exact (describes k id record).mpr found
  | none =>
      cases read : db.get k.kind id with
      | ok record =>
          rw [(describes k id record).mp read] at found
          cases found
      | error error => rw [(db.kind_typed k.kind).get_error read]

theorem list_eq
    (describes : m.Describes db)
    (k : RecordKind) :
    db.list k.kind = (m.list k, none) :=
  (db.kind_typed k.kind).list_eq (describes k)

theorem set
    (describes : m.Describes db)
    (k : RecordKind)
    (id : String)
    (record : k.Record) :
    (m.set k id record).Describes (db.set k.kind id record) := by
  intro other otherID found
  by_cases sameKind : k = other
  · subst sameKind
    rw [Maps.set, Function.update_self, Std.ExtTreeMap.getElem?_insert]
    by_cases same : id = otherID
    · subst same
      simp
    · rw [db.get_set_of_ne k.kind same, describes k otherID found]
      simp [same]
  · rw [db.get_set_other sameKind, Maps.set, Function.update_of_ne (Ne.symm sameKind)]
    exact describes other otherID found

theorem delete
    (describes : m.Describes db)
    (k : RecordKind)
    (id : String) :
    (m.delete k id).Describes (db.delete k.kind id) := by
  intro other otherID found
  by_cases sameKind : k = other
  · subst sameKind
    rw [Maps.delete, Function.update_self, Std.ExtTreeMap.getElem?_erase]
    by_cases same : id = otherID
    · subst same
      simp
    · rw [db.get_delete_of_ne k.kind same, describes k otherID found]
      simp [same]
  · rw [db.get_delete_other sameKind, Maps.delete, Function.update_of_ne (Ne.symm sameKind)]
    exact describes other otherID found

end Maps.Describes

/-- The maps hold the records of the storage, and its cache is up to date. -/
structure Refines (s : CacheState) (m : Maps) : Prop where
  describes : m.Describes s.db
  coherent : s.Coherent

/-- A list of cameras that was cached stays up to date when other records change. -/
theorem coherent_of_other
    {s next : CacheState}
    {m changed : Maps}
    (refines : Refines s m)
    (describes : changed.Describes next.db)
    (cached : next.cachedCameras = s.cachedCameras)
    (same : changed .camera = m .camera) :
    next.Coherent := by
  have before : s.db.list cameras = (m.list .camera, none) := refines.describes.list_eq .camera
  have after : next.db.list cameras = (changed.list .camera, none) := describes.list_eq .camera
  have lists : changed.list .camera = m.list .camera := by
    rw [Maps.list, same, Maps.list]
  have coherent := refines.coherent
  rw [CacheState.Coherent, before] at coherent
  rw [CacheState.Coherent, cached, after, lists]
  exact coherent

theorem Refines.save
    {s : CacheState}
    {m : Maps}
    (refines : Refines s m)
    (k : RecordKind)
    (record : k.Record) :
    (s.exec (.save k record)).1 = .written none ∧
      Refines (s.exec (.save k record)).2 (m.set k (k.idOf record) record) := by
  have describes := refines.describes.set k (k.idOf record) record
  have others : k ≠ .camera → (m.set k (k.idOf record) record) .camera = m .camera :=
    fun different => Function.update_of_ne (Ne.symm different) _ _
  cases k with
  | camera => exact ⟨rfl, describes, .inl rfl⟩
  | tag | folder | user =>
      exact ⟨rfl, describes, coherent_of_other refines describes rfl (others (by decide))⟩

theorem Refines.delete
    {s : CacheState}
    {m : Maps}
    (refines : Refines s m)
    (k : RecordKind)
    (id : String) :
    (s.exec (.delete k id)).1 = .written none ∧
      Refines (s.exec (.delete k id)).2 (m.delete k id) := by
  have describes := refines.describes.delete k id
  have others : k ≠ .camera → (m.delete k id) .camera = m .camera :=
    fun different => Function.update_of_ne (Ne.symm different) _ _
  cases k with
  | camera => exact ⟨rfl, describes, .inl rfl⟩
  | tag | folder | user =>
      exact ⟨rfl, describes, coherent_of_other refines describes rfl (others (by decide))⟩

theorem Refines.get
    {s : CacheState}
    {m : Maps}
    (refines : Refines s m)
    (k : RecordKind)
    (id : String) :
    s.exec (.get k id) = (.got k (m.get k id), s) := by
  rw [← refines.describes.get_eq k id]
  cases k <;> rfl

theorem Refines.list
    {s : CacheState}
    {m : Maps}
    (refines : Refines s m)
    (k : RecordKind) :
    (s.exec (.list k)).1 = .listed k (m.list k, none) ∧ Refines (s.exec (.list k)).2 m := by
  have listed := refines.describes.list_eq k
  cases k with
  | camera =>
      have answer : s.listCameras.1 = (m.list .camera, none) :=
        (CacheState.listCameras_of_coherent refines.coherent).trans listed
      refine ⟨congrArg (Answer.listed .camera) answer, ?_⟩
      change Refines s.listCameras.2 m
      unfold CacheState.listCameras
      split
      · exact refines
      · have found : s.db.list cameras = (m.list .camera, none) := listed
        rw [found]
        exact ⟨refines.describes, .inr (by rw [found])⟩
  | tag | folder => exact ⟨congrArg (Answer.listed _) listed, refines⟩
  | user =>
      refine ⟨congrArg (Answer.listed .user) ?_, refines⟩
      have found : s.db.list users = (m.list .user, none) := listed
      rw [CacheState.listUsers, found]

theorem Refines.updateCameraTx
    {s : CacheState}
    {m : Maps}
    (refines : Refines s m)
    (id : String)
    (updateFn : CameraConfig → CameraConfig × Bool) :
    (s.exec (.updateCameraTx id updateFn)).1 = (m.exec (.updateCameraTx id updateFn)).1 ∧
      Refines (s.exec (.updateCameraTx id updateFn)).2
        (m.exec (.updateCameraTx id updateFn)).2 := by
  have read : s.db.get cameras id = m.get .camera id := refines.describes.get_eq .camera id
  simp only [CacheState.exec, CacheState.updateCameraTx, CacheState.invalidateCameraCache,
    Txn.exec, Maps.exec, read]
  cases m.get .camera id with
  | error error => exact ⟨rfl, refines.describes, .inl rfl⟩
  | ok cam =>
      cases changed : (updateFn cam).2 with
      | true =>
          simp only [changed, if_true, true_and]
          exact ⟨refines.describes.set .camera id _, .inl rfl⟩
      | false =>
          simp only [changed, Bool.false_eq_true, if_false, true_and]
          exact ⟨refines.describes, .inl rfl⟩

/-- One call. -/
theorem Refines.exec
    {s : CacheState}
    {m : Maps}
    (refines : Refines s m)
    (op : Op) :
    (s.exec op).1 = (m.exec op).1 ∧ Refines (s.exec op).2 (m.exec op).2 := by
  cases op with
  | save k record => exact refines.save k record
  | delete k id => exact refines.delete k id
  | get k id =>
      rw [refines.get k id]
      exact ⟨rfl, refines⟩
  | list k => exact refines.list k
  | updateCameraTx id updateFn => exact refines.updateCameraTx id updateFn

/-- Calls made one after the other. -/
theorem Refines.answers
    {s : CacheState}
    {m : Maps}
    (refines : Refines s m)
    (ops : List Op) :
    (Storage.answers CacheState.exec s ops).1 = (Storage.answers Maps.exec m ops).1 ∧
      Refines (Storage.answers CacheState.exec s ops).2 (Storage.answers Maps.exec m ops).2 := by
  induction ops generalizing s m with
  | nil => exact ⟨rfl, refines⟩
  | cons op ops inductionHypothesis =>
      obtain ⟨same, next⟩ := refines.exec op
      obtain ⟨later, last⟩ := inductionHypothesis next
      exact ⟨List.cons_eq_cons.mpr ⟨same, later⟩, last⟩

/-- A call leaves the maps of the other kinds alone. -/
theorem Maps.exec_other
    (m : Maps)
    (op : Op)
    {k : RecordKind}
    (other : k ≠ op.kind) :
    (m.exec op).2 k = m k := by
  cases op with
  | save | delete => exact Function.update_of_ne other _ _
  | get | list => rfl
  | updateCameraTx id updateFn =>
      simp only [Maps.exec]
      split
      · rfl
      · split
        · exact Function.update_of_ne other _ _
        · rfl

/-- On every database, all calls made one after the other return what they would on
the maps of its records, whatever is cached; and a call changes nothing that calls
for other kinds return. -/
theorem storage_refines_maps (db : DB) (ops : List Op) :
    (answers CacheState.exec (newStorage db) ops).1 = (answers Maps.exec db.maps ops).1 ∧
    ∀ (s : CacheState) (op : Op) (k : RecordKind),
      (answers CacheState.exec (newStorage db) ops).2 = s → k ≠ op.kind →
      (∀ id, ((s.exec op).2.exec (.get k id)).1 = (s.exec (.get k id)).1) ∧
        ((s.exec op).2.exec (.list k)).1 = (s.exec (.list k)).1 := by
  have start : Refines (newStorage db) db.maps :=
    ⟨describes_maps db, CacheState.coherent_newStorage db⟩
  obtain ⟨same, refines⟩ := start.answers ops
  refine ⟨same, ?_⟩
  rintro s op k rfl other
  have after := (refines.exec op).2
  have unchanged := Maps.exec_other (answers Maps.exec db.maps ops).2 op other
  constructor
  · intro id
    rw [after.get k id, refines.get k id, Maps.get, unchanged, Maps.get]
  · rw [(after.list k).1, (refines.list k).1, Maps.list, unchanged, Maps.list]

/-- Two cameras, a tag with the identifier of one of them, and a cached listing that a
deletion makes obsolete. -/
def obsolete : List Op :=
  [.save .camera { id := "b" }, .save .camera { id := "a" }, .save .tag ⟨"a", "Gate", "red"⟩,
    .list .camera, .delete .camera "b"]

theorem storage_refines_maps_obsolete :
    (answers CacheState.exec (newStorage DB.empty) obsolete).1 =
        (answers Maps.exec DB.empty.maps obsolete).1 ∧
      (answers CacheState.exec (newStorage DB.empty) obsolete).2.listCameras.1 =
        ([{ id := "a" }], none) :=
  ⟨(storage_refines_maps DB.empty obsolete).1, by decide +kernel⟩

end Storage
end RuseonCore
