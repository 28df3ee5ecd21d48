import RuseonCore.Storage.Records

/-!
# Camera transactions

The database transactions of `pkg/storage/storage.go` that write cameras, and
the storage calls made of them.  A transaction either yields the database it
commits or fails without an effect; Badger transactions are assumed to be
serialisable.
-/

namespace RuseonCore
namespace Storage

/-- Backup payload of `ExportJSON` and `ImportJSON`. -/
structure BackupData where
  cameras : List CameraConfig
  tags : List TagConfig
  folders : List FolderConfig
  deriving DecidableEq

/-- The part of the configuration file that is migrated into the database. -/
structure Config where
  cameras : List CameraConfig
  globalTags : List TagConfig
  deriving DecidableEq

/-- Default monthly quota: 200 GB. -/
def defaultTrafficLimit : UInt64 := 200 * 1024 * 1024 * 1024

/-- Add traffic to a camera, after resetting its counter in a new month. -/
def addTraffic (nowMonth : String) (delta : UInt64) (cam : CameraConfig) :
    CameraConfig :=
  let cam :=
    if cam.lastResetMonth ≠ nowMonth then
      { cam with lastResetMonth := nowMonth, trafficUsed := 0 }
    else cam
  let cam :=
    if cam.trafficLimit = 0 then { cam with trafficLimit := defaultTrafficLimit }
    else cam
  { cam with trafficUsed := cam.trafficUsed + delta }

/-- One entry of a traffic chunk; entries without a camera are skipped. -/
def applyEntry
    (nowMonth : String)
    (db : DB)
    (entry : String × UInt64) : Except ReadError DB :=
  match db.get cameras entry.1 with
  | .error .keyNotFound => .ok db
  | .error .malformed => .error .malformed
  | .ok cam => .ok (db.set cameras entry.1 (addTraffic nowMonth entry.2 cam))

/-- Entries of a traffic update per transaction. -/
def batchSize : Nat := 200

/-- Consecutive slices of at most `batchSize` entries. -/
def batches (entries : List Entry) : List (List Entry) :=
  (List.range ((entries.length + (batchSize - 1)) / batchSize)).map fun i =>
    (entries.drop (batchSize * i)).take batchSize

/-- Insert records in turn, each under its own identifier. -/
def setAll (kind : Kind Record) (id : Record → String) (db : DB)
    (records : List Record) : DB :=
  records.foldl (fun db record => db.set kind (id record) record) db

/-- Database transactions that write cameras. -/
inductive Txn
  | setCamera (cam : CameraConfig)
  | updateCamera (id : String) (updateFn : CameraConfig → CameraConfig × Bool)
  | traffic (chunk : List (String × UInt64)) (nowMonth : String)
  | deleteCamera (id : String)
  | migrate (cfg : Config)
  | restore (backup : BackupData)

namespace Txn

/-- Database committed by the transaction. -/
def exec : Txn → DB → Except ReadError DB
  | .setCamera cam, db => .ok (db.set cameras cam.id cam)
  | .updateCamera id updateFn, db =>
      match db.get cameras id with
      | .error error => .error error
      | .ok cam =>
          let (updated, changed) := updateFn cam
          if changed then .ok (db.set cameras id updated) else .ok db
  | .traffic chunk nowMonth, db => chunk.foldlM (applyEntry nowMonth) db
  | .deleteCamera id, db => .ok (db.delete cameras id)
  | .migrate cfg, db =>
      let db :=
        if !cameras.nonempty db.store && !cfg.cameras.isEmpty then
          setAll cameras CameraConfig.id db cfg.cameras
        else db
      if !tags.nonempty db.store && !cfg.globalTags.isEmpty then
        .ok (setAll tags TagConfig.id db cfg.globalTags)
      else .ok db
  | .restore backup, db =>
      let db := setAll cameras CameraConfig.id db backup.cameras
      let db := setAll tags TagConfig.id db backup.tags
      .ok (setAll folders FolderConfig.id db backup.folders)

end Txn

/-- Storage calls that write cameras.  The updates of `batchUpdateTraffic`
stand in the iteration order of the source's map; a payload that does not parse
is `none`, and so is a nil configuration. -/
inductive Call
  | saveCamera (cam : CameraConfig)
  | updateCameraTx (id : String) (updateFn : CameraConfig → CameraConfig × Bool)
  | batchUpdateTraffic (updates : List (String × UInt64)) (nowMonth : String)
  | deleteCamera (id : String)
  | migrateFromConfig (cfg : Option Config)
  | importJSON (backup : Option BackupData)

namespace Call

/-- Transactions of the call in order, each committed before the next begins;
`none` when the call returns before it invalidates the camera cache. -/
def transactions : Call → Option (List Txn)
  | .saveCamera cam => some [.setCamera cam]
  | .updateCameraTx id updateFn => some [.updateCamera id updateFn]
  | .batchUpdateTraffic updates nowMonth =>
      if updates.isEmpty then none
      else some ((batches updates).map fun chunk => .traffic chunk nowMonth)
  | .deleteCamera id => some [.deleteCamera id]
  | .migrateFromConfig cfg => cfg.map fun cfg => [.migrate cfg]
  | .importJSON backup => backup.map fun backup => [.restore backup]

end Call

/-- Execute transactions in turn up to the first that fails.  `failAt` counts
down to one that the database rejects.  The flag tells whether all of them
committed. -/
def execAll : List Txn → (failAt : Option Nat) → DB → DB × Bool
  | [], _, db => (db, true)
  | txn :: txns, failAt, db =>
      if failAt = some 0 then (db, false)
      else
        match txn.exec db with
        | .error _ => (db, false)
        | .ok next => execAll txns (failAt.map Nat.pred) next

/-- `BatchUpdateTraffic` while no other call is in flight, over the entries of
the updates in iteration order. -/
def batchUpdateTraffic
    (updates : List (String × UInt64))
    (nowMonth : String)
    (failAt : Option Nat)
    (db : DB) : DB × Bool :=
  match (Call.batchUpdateTraffic updates nowMonth).transactions with
  | none => (db, true)
  | some txns => execAll txns failAt db

end Storage
end RuseonCore
