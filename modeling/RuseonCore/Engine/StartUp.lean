import RuseonCore.Storage.Migration

/-!
# Start of the engine

The first steps of `Run` in `pkg/engine/engine.go`: the definitions of the
configuration file are migrated to the database, and are then removed from the
file.  The migration looks at the records that are already in the database, while
the clean-up looks at the configuration alone.
-/

namespace RuseonCore
namespace Engine

open Storage

/-- The process after the clean-up: the database, the configuration in memory, and
whether `config.yaml` was overwritten with it. -/
structure Started where
  db : DB
  cfg : Config
  saved : Bool

/-- Migrate the definitions and clean up the configuration.  A migration that
fails ends the process, and a file that cannot be saved is only logged. -/
def startUp (db : DB) (cfg : Config) (migrationFails saveFails : Bool) : Option Started :=
  match migrationFails, (Txn.migrate cfg).exec db with
  | false, .ok db =>
      if !cfg.cameras.isEmpty || !cfg.globalTags.isEmpty then
        some { db := db, cfg := ⟨[], []⟩, saved := !saveFails }
      else some { db := db, cfg := cfg, saved := false }
  | _, _ => none

/-- Whenever the definitions are removed from the file, their identifiers are in
the database. -/
def NothingErased (db : DB) (cfg : Config) : Prop :=
  ∀ migrationFails saveFails started,
    startUp db cfg migrationFails saveFails = some started → started.saved = true →
    AllStored .camera started.db cfg.cameras ∧ AllStored .tag started.db cfg.globalTags

/-- The database has no record of the kind, or has all listed identifiers. -/
def Admits (k : RecordKind) (db : DB) (records : List k.Record) : Prop :=
  k.kind.nonempty db.store = false ∨ AllStored k db records

/-- The database after a migration. -/
def migrated (db : DB) (cfg : Config) : DB :=
  migrateKind .tag (migrateKind .camera db cfg.cameras) cfg.globalTags

theorem startUp_saved
    {db : DB}
    {cfg : Config}
    {migrationFails saveFails : Bool}
    {started : Started}
    (reached : startUp db cfg migrationFails saveFails = some started) :
    started.db = migrated db cfg := by
  unfold startUp at reached
  rw [exec_migrate] at reached
  cases migrationFails with
  | true => cases reached
  | false =>
      dsimp only at reached
      split at reached
      · rw [← Option.some.inj reached]
        rfl
      · rw [← Option.some.inj reached]
        rfl

/-- Cameras are not touched by the migration of tags. -/
theorem allStored_cameras_iff (db : DB) (cfg : Config) :
    AllStored .camera (migrated db cfg) cfg.cameras ↔ Admits .camera db cfg.cameras := by
  have untouched : ∀ id, (migrated db cfg).get RecordKind.camera.kind id =
      (migrateKind .camera db cfg.cameras).get RecordKind.camera.kind id :=
    get_migrateKind_other .tag (by decide) _ cfg.globalTags
  rw [Admits, ← allStored_migrateKind_iff]
  simp only [AllStored, untouched]

/-- Tags are not touched by the migration of cameras. -/
theorem allStored_tags_iff (db : DB) (cfg : Config) :
    AllStored .tag (migrated db cfg) cfg.globalTags ↔ Admits .tag db cfg.globalTags := by
  have untouched : ∀ id, (migrateKind .camera db cfg.cameras).get RecordKind.tag.kind id =
      db.get RecordKind.tag.kind id :=
    get_migrateKind_other .camera (by decide) db cfg.cameras
  rw [migrated, allStored_migrateKind_iff, Admits,
    nonempty_migrateKind_other .camera (by decide)]
  simp only [AllStored, untouched]

/-- No definition is erased from the configuration file without living in the
database exactly if, for cameras and for tags, the database has no record at first
or has all listed identifiers. -/
theorem nothing_erased_iff (db : DB) (cfg : Config) :
    NothingErased db cfg ↔
      Admits .camera db cfg.cameras ∧ Admits .tag db cfg.globalTags := by
  rw [← allStored_cameras_iff, ← allStored_tags_iff]
  constructor
  · intro kept
    by_cases listed : (!cfg.cameras.isEmpty || !cfg.globalTags.isEmpty) = true
    · have cleaned : startUp db cfg false false = some ⟨migrated db cfg, ⟨[], []⟩, true⟩ := by
        unfold startUp
        rw [exec_migrate]
        exact if_pos listed
      exact kept false false _ cleaned rfl
    · -- Nothing is listed, so nothing has to be stored.
      simp only [Bool.or_eq_true, Bool.not_eq_true', List.isEmpty_eq_false_iff,
        not_or, not_not] at listed
      rw [listed.1, listed.2]
      constructor
      · intro record none
        cases none
      · intro record none
        cases none
  · intro stored migrationFails saveFails started reached _
    rw [startUp_saved reached]
    exact stored

/-- A database with one camera, and a configuration file with another. -/
theorem camera_erased :
    ∃ started,
      startUp (DB.empty.set cameras "lobby" { id := "lobby" })
        ⟨[{ id := "garage" }], []⟩ false false = some started ∧
      started.saved = true ∧ started.cfg.cameras = [] ∧
      started.db.get cameras "garage" = .error .keyNotFound :=
  ⟨_, rfl, by decide +kernel⟩

end Engine
end RuseonCore
