import RuseonCore.Foundation.Table

/-!
# Stored records

Records of `pkg/config`, `internal/models` and `pkg/storage` together with the
database that holds them: one ordered key-value map in which every kind of
record has its own key prefix.  A value is the JSON document of one record;
encoding and decoding are assumed to round-trip.  Nil and empty slices are
identified, and strings are sequences of Unicode characters.
-/

namespace RuseonCore
namespace Storage

/-- A change of a camera's disabled or recording state. -/
structure DisableRecord where
  timestamp : String
  action : String
  reason : String
  deriving DecidableEq

/-- Configuration of one camera. -/
structure CameraConfig where
  id : String
  url : String := ""
  record : Bool := false
  retentionDays : Int := 0
  tags : List String := []
  folderID : String := ""
  comment : String := ""
  simPhone : String := ""
  simICCID : String := ""
  lazyHLS : Bool := false
  transport : String := ""
  tokenAuth : Bool := false
  trafficLimit : UInt64 := 0
  trafficUsed : UInt64 := 0
  lastResetMonth : String := ""
  disabled : Bool := false
  disableReason : String := ""
  disableHistory : List DisableRecord := []
  recordHistory : List DisableRecord := []
  deriving DecidableEq

/-- A label for cameras. -/
structure TagConfig where
  id : String
  name : String
  color : String
  deriving DecidableEq

/-- A folder of cameras. -/
structure FolderConfig where
  id : String
  name : String
  deriving DecidableEq

/-- Authorization roles are an open set of strings. -/
abbrev Role := String

def roleAdmin : Role := "admin"
def roleOperator : Role := "operator"
def roleViewer : Role := "viewer"

/-- An account. -/
structure User where
  username : String
  passwordHash : String
  role : Role
  deriving DecidableEq

def prefixCamera : String := "camera:"
def prefixTag : String := "tag:"
def prefixFolder : String := "folder:"
def prefixUser : String := "user:"

/-- JSON document of a record. -/
inductive Value
  | camera (cam : CameraConfig)
  | tag (tag : TagConfig)
  | folder (folder : FolderConfig)
  | user (user : User)
  deriving DecidableEq

namespace Value

/-- Prefix of the keys under which documents of this kind are stored. -/
def keyPrefix : Value → String
  | .camera _ => prefixCamera
  | .tag _ => prefixTag
  | .folder _ => prefixFolder
  | .user _ => prefixUser

end Value

/-- A table whose documents carry its own prefix, and that decodes every
document stored under one of its keys. -/
structure Kind (Record : Type) extends Table Value Record where
  native : ∀ record, (encode record).keyPrefix = keyPrefix
  only : ∀ (value : Value) (key : List Char),
    value.keyPrefix.toList <+: key → keyPrefix.toList <+: key →
    ∃ record, decode value = some record

def cameras : Kind CameraConfig where
  keyPrefix := prefixCamera
  encode := .camera
  decode
    | .camera cam => some cam
    | _ => none
  decode_encode := fun _ => rfl
  native := fun _ => rfl
  only := by
    intro value key stored covered
    have clash := List.prefix_or_prefix_of_prefix stored covered
    cases value <;>
      simp_all [Value.keyPrefix, prefixCamera, prefixTag, prefixFolder,
        prefixUser]

def tags : Kind TagConfig where
  keyPrefix := prefixTag
  encode := .tag
  decode
    | .tag tag => some tag
    | _ => none
  decode_encode := fun _ => rfl
  native := fun _ => rfl
  only := by
    intro value key stored covered
    have clash := List.prefix_or_prefix_of_prefix stored covered
    cases value <;>
      simp_all [Value.keyPrefix, prefixCamera, prefixTag, prefixFolder,
        prefixUser]

def folders : Kind FolderConfig where
  keyPrefix := prefixFolder
  encode := .folder
  decode
    | .folder folder => some folder
    | _ => none
  decode_encode := fun _ => rfl
  native := fun _ => rfl
  only := by
    intro value key stored covered
    have clash := List.prefix_or_prefix_of_prefix stored covered
    cases value <;>
      simp_all [Value.keyPrefix, prefixCamera, prefixTag, prefixFolder,
        prefixUser]

def users : Kind User where
  keyPrefix := prefixUser
  encode := .user
  decode
    | .user user => some user
    | _ => none
  decode_encode := fun _ => rfl
  native := fun _ => rfl
  only := by
    intro value key stored covered
    have clash := List.prefix_or_prefix_of_prefix stored covered
    cases value <;>
      simp_all [Value.keyPrefix, prefixCamera, prefixTag, prefixFolder,
        prefixUser]

/-- The database: every document stands under a key of its own kind. -/
structure DB where
  store : Store Value
  typed : ∀ (key : String) (value : Value), store[key]? = some value →
    value.keyPrefix.toList <+: key.toList

namespace DB

/-- The database without records. -/
def empty : DB where
  store := ∅
  typed := by simp

/-- Read one record of a kind. -/
def get (db : DB) (kind : Kind Record) (id : String) : Except ReadError Record :=
  kind.get db.store id

/-- List all records of a kind in key order. -/
def list (db : DB) (kind : Kind Record) : List Record × Option ReadError :=
  kind.list db.store

/-- Insert or replace one record of a kind. -/
def set (db : DB) (kind : Kind Record) (id : String) (record : Record) : DB where
  store := kind.set db.store id record
  typed := by
    intro key value present
    rw [Table.set, Std.ExtTreeMap.getElem?_insert] at present
    split at present
    · rename_i same
      rw [← Option.some.inj present, ← Std.LawfulEqCmp.eq_of_compare same,
        kind.native, Table.key, String.toList_append]
      exact List.prefix_append _ _
    · exact db.typed key value present

/-- Delete one record of a kind, if it is there. -/
def delete (db : DB) (kind : Kind Record) (id : String) : DB where
  store := kind.delete db.store id
  typed := by
    intro key value present
    rw [Table.delete, Std.ExtTreeMap.getElem?_erase] at present
    split at present
    · simp at present
    · exact db.typed key value present

/-- Every table of the database is typed. -/
theorem kind_typed (db : DB) (kind : Kind Record) :
    kind.Typed db.store := by
  intro key value present covered
  rw [Table.covers, List.isPrefixOf_iff_prefix] at covered
  exact kind.only value key.toList (db.typed key value present) covered

variable (db : DB) (kind : Kind Record)

@[simp] theorem get_empty (id : String) :
    empty.get kind id = .error .keyNotFound := by
  simp [get, empty, Table.get]

@[simp] theorem get_set_self (id : String) (record : Record) :
    (db.set kind id record).get kind id = .ok record :=
  kind.get_set_self db.store id record

theorem get_set_of_ne
    {id other : String}
    (different : id ≠ other)
    (record : Record) :
    (db.set kind id record).get kind other = db.get kind other :=
  kind.get_set_of_ne db.store different record

theorem set_comm
    {id other : String}
    (different : id ≠ other)
    (record replacement : Record) :
    (db.set kind id record).set kind other replacement =
      (db.set kind other replacement).set kind id record := by
  rw [DB.mk.injEq]
  exact kind.set_comm db.store different record replacement

@[simp] theorem get_delete_self (id : String) :
    (db.delete kind id).get kind id = .error .keyNotFound :=
  kind.get_delete_self db.store id

theorem get_delete_of_ne
    {id other : String}
    (different : id ≠ other) :
    (db.delete kind id).get kind other = db.get kind other :=
  kind.get_delete_of_ne db.store different

@[simp] theorem list_complete : (db.list kind).2 = none :=
  (db.kind_typed kind).list_complete

/-- Records that know their identifiers are listed once each. -/
theorem list_nodup
    {idOf : Record → String}
    (keyed : ∀ id record, db.get kind id = .ok record → idOf record = id) :
    ((db.list kind).1.map idOf).Nodup :=
  (db.kind_typed kind).list_nodup keyed

theorem mem_list_iff {record : Record} :
    record ∈ (db.list kind).1 ↔ ∃ id, db.get kind id = .ok record :=
  (db.kind_typed kind).mem_list_iff

end DB

end Storage
end RuseonCore
