import RuseonCore.Storage.Backup

/-!
# Migration of the configuration file

`MigrateFromConfig` of `pkg/storage/storage.go` inserts the cameras of the
configuration file if the database has no camera, and its tags if the database has
no tag.  Listed identifiers may repeat, in which case the last record stays.
-/

namespace RuseonCore
namespace Storage

/-! ## Inserted records -/

section

variable (k : RecordKind)

/-- A record that is read after an insertion was inserted or was there. -/
theorem get_setAll_cases
    {db : DB}
    {records : List k.Record}
    {id : String}
    {found : k.Record}
    (read : (setAll k.kind k.idOf db records).get k.kind id = .ok found) :
    (found ∈ records ∧ k.idOf found = id) ∨ db.get k.kind id = .ok found := by
  induction records generalizing db with
  | nil => exact .inr read
  | cons record records inductionHypothesis =>
      rw [setAll_cons] at read
      rcases inductionHypothesis read with ⟨member, same⟩ | earlier
      · exact .inl ⟨List.mem_cons_of_mem record member, same⟩
      · by_cases same : k.idOf record = id
        · subst same
          rw [db.get_set_self] at earlier
          rw [← Except.ok.inj earlier]
          exact .inl ⟨List.mem_cons_self, rfl⟩
        · rw [db.get_set_of_ne k.kind same] at earlier
          exact .inr earlier

/-- Records stay readable when others are inserted. -/
theorem isStored_setAll
    {db : DB}
    {id : String}
    (stored : ∃ found, db.get k.kind id = .ok found)
    (records : List k.Record) :
    ∃ found, (setAll k.kind k.idOf db records).get k.kind id = .ok found := by
  induction records generalizing db with
  | nil => exact stored
  | cons record records inductionHypothesis =>
      apply inductionHypothesis
      by_cases same : k.idOf record = id
      · subst same
        exact ⟨record, db.get_set_self k.kind _ record⟩
      · rw [db.get_set_of_ne k.kind same]
        exact stored

/-- Every inserted identifier is readable. -/
theorem isStored_of_mem
    (db : DB)
    {records : List k.Record}
    {record : k.Record}
    (member : record ∈ records) :
    ∃ found, (setAll k.kind k.idOf db records).get k.kind (k.idOf record) = .ok found := by
  induction records generalizing db with
  | nil => cases member
  | cons first records inductionHypothesis =>
      rcases List.mem_cons.mp member with rfl | later
      · rw [setAll_cons]
        apply isStored_setAll k
        exact ⟨record, db.get_set_self k.kind _ record⟩
      · exact inductionHypothesis _ later

/-- There is a record iff one can be read. -/
theorem nonempty_iff (db : DB) :
    k.kind.nonempty db.store = true ↔ ∃ id found, db.get k.kind id = .ok found := by
  have listed : k.kind.nonempty db.store = true ↔
      ∃ value, value ∈ k.kind.values db.store := by
    simp only [Table.nonempty, Table.values, List.any_eq_true, List.mem_map, List.mem_filter]
    constructor
    · rintro ⟨entry, present, covered⟩
      exact ⟨entry.2, entry, ⟨present, covered⟩, rfl⟩
    · rintro ⟨_, entry, ⟨present, covered⟩, rfl⟩
      exact ⟨entry, present, covered⟩
  simp only [listed, Table.mem_values_iff]
  constructor
  · rintro ⟨value, id, present⟩
    obtain ⟨found, decoded⟩ := db.kind_typed k.kind _ value present (k.kind.covers_key id)
    exact ⟨id, found, (k.kind.get_eq_ok_iff db.store).mpr ⟨value, present, decoded⟩⟩
  · rintro ⟨id, found, read⟩
    obtain ⟨value, present, _⟩ := (k.kind.get_eq_ok_iff db.store).mp read
    exact ⟨value, id, present⟩

/-! ## The migration -/

/-- Insert the records unless the database has one of their kind. -/
def migrateKind (db : DB) (records : List k.Record) : DB :=
  if !k.kind.nonempty db.store && !records.isEmpty then setAll k.kind k.idOf db records
  else db

/-- Without a record of the kind, everything is inserted. -/
theorem migrateKind_of_empty
    {db : DB}
    (none : k.kind.nonempty db.store = false)
    (records : List k.Record) :
    migrateKind k db records = setAll k.kind k.idOf db records := by
  unfold migrateKind
  cases records with
  | nil => simp [setAll]
  | cons record records => simp [none]

/-- With a record of the kind, nothing is. -/
theorem migrateKind_of_nonempty
    {db : DB}
    (some : k.kind.nonempty db.store = true)
    (records : List k.Record) :
    migrateKind k db records = db := by
  simp [migrateKind, some]

/-- Records of other kinds are left alone. -/
theorem get_migrateKind_other
    {other : RecordKind}
    (different : k ≠ other)
    (db : DB)
    (records : List k.Record)
    (id : String) :
    (migrateKind k db records).get other.kind id = db.get other.kind id := by
  unfold migrateKind
  split
  · exact get_setAll_other k other different k.idOf db records id
  · rfl

theorem nonempty_migrateKind_other
    {other : RecordKind}
    (different : k ≠ other)
    (db : DB)
    (records : List k.Record) :
    other.kind.nonempty (migrateKind k db records).store = other.kind.nonempty db.store := by
  rw [Bool.eq_iff_iff, nonempty_iff other, nonempty_iff other]
  simp only [get_migrateKind_other k different]

/-- All identifiers can be read. -/
def AllStored (db : DB) (records : List k.Record) : Prop :=
  ∀ record ∈ records, ∃ found, db.get k.kind (k.idOf record) = .ok found

/-- The listed identifiers are in the database afterwards iff it had no record of
the kind, or had all of them. -/
theorem allStored_migrateKind_iff
    (db : DB)
    (records : List k.Record) :
    AllStored k (migrateKind k db records) records ↔
      k.kind.nonempty db.store = false ∨ AllStored k db records := by
  cases present : k.kind.nonempty db.store with
  | false =>
      simp only [true_or, iff_true]
      rw [migrateKind_of_empty k present]
      exact fun record member => isStored_of_mem k db member
  | true => simp [migrateKind_of_nonempty k present]

end

/-- The migration inserts cameras, and then tags. -/
theorem exec_migrate (cfg : Config) (db : DB) :
    (Txn.migrate cfg).exec db =
      .ok (migrateKind .tag (migrateKind .camera db cfg.cameras) cfg.globalTags) := by
  rw [migrateKind]
  exact (apply_ite Except.ok _ _ _).symm

end Storage
end RuseonCore
