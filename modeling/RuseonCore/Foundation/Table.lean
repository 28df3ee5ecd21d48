import Mathlib.Tactic

/-!
# Tables in an ordered key-value store

Several kinds of records share one ordered map from string keys to encoded
values.  A table fixes the key prefix and the encoding of one kind; its records
are the entries whose keys start with the prefix.  Reading reports missing keys
and values that do not decode; a scan visits the table in key order and stops
at the first value that does not decode.
-/

namespace RuseonCore

/-- An ordered map from string keys to encoded values. -/
abbrev Store (Value : Type) := Std.ExtTreeMap String Value compare

/-- The entries of a store have different keys. -/
theorem Store.toList_keys_ne (store : Store Value) :
    store.toList.Pairwise fun first second => first.1 ≠ second.1 := by
  refine Std.ExtTreeMap.distinct_keys_toList.imp ?_
  intro first second different same
  simp [same] at different

/-- A store made from entries with different keys holds these entries. -/
theorem Store.getElem?_ofList
    {entries : List (String × Value)}
    (distinct : entries.Pairwise fun first second => first.1 ≠ second.1)
    {key : String}
    {value : Value} :
    (Std.ExtTreeMap.ofList entries : Store Value)[key]? = some value ↔
      (key, value) ∈ entries := by
  have compared : entries.Pairwise fun first second => ¬ compare first.1 second.1 = .eq :=
    distinct.imp fun different same => different (Std.LawfulEqCmp.eq_of_compare same)
  have found : ∀ other, (key, other) ∈ entries →
      (Std.ExtTreeMap.ofList entries : Store Value)[key]? = some other :=
    fun other member =>
      Std.ExtTreeMap.getElem?_ofList_of_mem Std.ReflCmp.compare_self compared member
  refine ⟨fun present => ?_, found value⟩
  by_cases within : (entries.map Prod.fst).contains key = true
  · obtain ⟨⟨_, other⟩, member, rfl⟩ := List.mem_map.mp (List.contains_iff_mem.mp within)
    rw [found other member] at present
    obtain rfl := Option.some.inj present
    exact member
  · rw [Std.ExtTreeMap.getElem?_ofList_of_contains_eq_false (by simpa using within)] at present
    cases present

/-- Lists in strictly ascending order of keys with the same entries are equal. -/
theorem Store.eq_of_ascending
    {first second : List (String × Value)}
    (ascendingFirst : first.Pairwise fun a b => compare a.1 b.1 = .lt)
    (ascendingSecond : second.Pairwise fun a b => compare a.1 b.1 = .lt)
    (same : ∀ entry, entry ∈ first ↔ entry ∈ second) :
    first = second := by
  have different : ∀ a b : String × Value, compare a.1 b.1 = .lt → a ≠ b := by
    rintro a b less rfl
    simp at less
  have perm := (List.perm_ext_iff_of_nodup (ascendingFirst.imp (different _ _))
    (ascendingSecond.imp (different _ _))).mpr same
  refine perm.eq_of_pairwise ?_ ascendingFirst ascendingSecond
  intro a b _ _ less greater
  rw [Std.OrientedCmp.gt_of_lt less] at greater
  cases greater

/-- Reasons for which a record cannot be read. -/
inductive ReadError
  | keyNotFound
  | malformed
  deriving DecidableEq

/-- Key prefix and encoding of one kind of records. -/
structure Table (Value Record : Type) where
  keyPrefix : String
  encode : Record → Value
  decode : Value → Option Record
  decode_encode : ∀ record, decode (encode record) = some record

namespace Table

/-- Key of the record with the given identifier. -/
def key (table : Table Value Record) (id : String) : String :=
  table.keyPrefix ++ id

/-- The key belongs to the table. -/
def covers (table : Table Value Record) (key : String) : Bool :=
  table.keyPrefix.toList.isPrefixOf key.toList

/-- Read one record. -/
def get (table : Table Value Record) (store : Store Value) (id : String) :
    Except ReadError Record :=
  match store[table.key id]? with
  | none => .error .keyNotFound
  | some value =>
      match table.decode value with
      | none => .error .malformed
      | some record => .ok record

/-- Write one record. -/
def set
    (table : Table Value Record)
    (store : Store Value)
    (id : String)
    (record : Record) : Store Value :=
  store.insert (table.key id) (table.encode record)

/-- Delete one record, if it is there. -/
def delete
    (table : Table Value Record)
    (store : Store Value)
    (id : String) : Store Value :=
  store.erase (table.key id)

/-- Decode values in turn, stopping at the first that does not decode. -/
def scan (table : Table Value Record) :
    List Value → List Record × Option ReadError
  | [] => ([], none)
  | value :: values =>
      match table.decode value with
      | none => ([], some .malformed)
      | some record =>
          let (records, error) := table.scan values
          (record :: records, error)

/-- Encoded records of the table in key order. -/
def values (table : Table Value Record) (store : Store Value) : List Value :=
  (store.toList.filter fun entry => table.covers entry.1).map Prod.snd

/-- All records of the table in key order, with the error that stopped the
scan, if any. -/
def list (table : Table Value Record) (store : Store Value) :
    List Record × Option ReadError :=
  table.scan (table.values store)

/-- The table has at least one record. -/
def nonempty (table : Table Value Record) (store : Store Value) : Bool :=
  store.toList.any fun entry => table.covers entry.1

/-- Identifier in a key of the table. -/
def idOfKey (table : Table Value Record) (key : String) : String :=
  String.ofList (key.toList.drop table.keyPrefix.toList.length)

/-- Records of the table under their identifiers. -/
def records (table : Table Value Record) (store : Store Value) : Store Record :=
  Std.ExtTreeMap.ofList
    (store.toList.filterMap fun entry =>
      if table.covers entry.1 then
        (table.decode entry.2).map fun record => (table.idOfKey entry.1, record)
      else none)

/-- Every value under a key of the table decodes. -/
def Typed (table : Table Value Record) (store : Store Value) : Prop :=
  ∀ key value, store[key]? = some value → table.covers key = true →
    ∃ record, table.decode value = some record

@[simp] theorem key_inj (table : Table Value Record) {id other : String} :
    table.key id = table.key other ↔ id = other := by
  simp [key, String.ext_iff]

@[simp] theorem covers_key (table : Table Value Record) (id : String) :
    table.covers (table.key id) = true := by
  rw [covers, List.isPrefixOf_iff_prefix, key, String.toList_append]
  exact List.prefix_append _ _

/-- A covered key is the key of some identifier. -/
theorem exists_id_of_covers
    (table : Table Value Record)
    {key : String}
    (covered : table.covers key = true) :
    ∃ id, key = table.key id := by
  rw [covers, List.isPrefixOf_iff_prefix] at covered
  obtain ⟨rest, split⟩ := covered
  refine ⟨String.ofList rest, ?_⟩
  apply String.ext
  rw [Table.key, String.toList_append, String.toList_ofList]
  exact split.symm

/-- Keys are ordered like identifiers. -/
theorem compare_key
    (table : Table Value Record)
    {first second : String}
    (before : compare first second = .lt) :
    compare (table.key first) (table.key second) = .lt := by
  have less : first < second := compareOfLessAndEq_eq_lt.mp before
  refine compareOfLessAndEq_eq_lt.mpr (String.lt_iff.mpr ?_)
  rw [key, key, String.toList_append, String.toList_append]
  exact List.append_left_lt (String.lt_iff.mp less)

@[simp] theorem idOfKey_key (table : Table Value Record) (id : String) :
    table.idOfKey (table.key id) = id := by
  rw [idOfKey, key, String.toList_append, List.drop_left, String.ofList_toList]

section Reads

variable (table : Table Value Record)
variable (store : Store Value)

/-- A successful read finds an encoded record under the identifier's key. -/
theorem get_eq_ok_iff {id : String} {record : Record} :
    table.get store id = .ok record ↔
      ∃ value, store[table.key id]? = some value ∧
        table.decode value = some record := by
  unfold get
  cases store[table.key id]? with
  | none => simp
  | some value =>
      cases decoded : table.decode value with
      | none => simp [decoded]
      | some found => simp [decoded]

@[simp] theorem get_set_self (id : String) (record : Record) :
    table.get (table.set store id record) id = .ok record := by
  simp [get, set, table.decode_encode]

theorem get_set_of_ne
    {id other : String}
    (different : id ≠ other)
    (record : Record) :
    table.get (table.set store id record) other = table.get store other := by
  simp [get, set, Std.ExtTreeMap.getElem?_insert, different]

/-- Records with different identifiers may be written in any order. -/
theorem set_comm
    {id other : String}
    (different : id ≠ other)
    (record replacement : Record) :
    table.set (table.set store id record) other replacement =
      table.set (table.set store other replacement) id record := by
  apply Std.ExtTreeMap.ext_getElem?
  intro key
  simp only [set, Std.ExtTreeMap.getElem?_insert]
  split
  · rename_i isOther
    split
    · rename_i isId
      have same := (Std.LawfulEqCmp.eq_of_compare isId).trans
        (Std.LawfulEqCmp.eq_of_compare isOther).symm
      exact absurd ((table.key_inj).mp same) different
    · rfl
  · rfl

@[simp] theorem get_delete_self (id : String) :
    table.get (table.delete store id) id = .error .keyNotFound := by
  simp [get, delete]

theorem get_delete_of_ne
    {id other : String}
    (different : id ≠ other) :
    table.get (table.delete store id) other = table.get store other := by
  simp [get, delete, Std.ExtTreeMap.getElem?_erase, different]

/-- The records of a table are the ones that can be read. -/
theorem getElem?_records {id : String} {record : Record} :
    (table.records store)[id]? = some record ↔ table.get store id = .ok record := by
  have decoded : ∀ (entry : String × Value) (pair : String × Record),
      (if table.covers entry.1 then
        (table.decode entry.2).map fun record => (table.idOfKey entry.1, record)
      else none) = some pair ↔
        entry.1 = table.key pair.1 ∧ table.decode entry.2 = some pair.2 := by
    rintro ⟨key, value⟩ ⟨pairID, found⟩
    constructor
    · intro some_
      obtain ⟨covered, mapped⟩ := Option.ite_none_right_eq_some.mp some_
      obtain ⟨other, decodes, pair⟩ := Option.map_eq_some_iff.mp mapped
      obtain ⟨rfl, rfl⟩ := Prod.mk.inj pair
      obtain ⟨keyID, rfl⟩ := table.exists_id_of_covers covered
      exact ⟨by rw [idOfKey_key], decodes⟩
    · rintro ⟨rfl, decodes⟩
      have decodes : table.decode value = some found := decodes
      simp [decodes]
  rw [records, Store.getElem?_ofList, get_eq_ok_iff]
  · simp only [List.mem_filterMap, Prod.exists, decoded,
      Std.ExtTreeMap.mem_toList_iff_getElem?_eq_some]
    constructor
    · rintro ⟨key, value, present, rfl, decodes⟩
      exact ⟨value, present, decodes⟩
    · rintro ⟨value, present, decodes⟩
      exact ⟨_, value, present, rfl, decodes⟩
  · refine List.Pairwise.filterMap _ ?_ (Store.toList_keys_ne store)
    intro first second different a ofFirst b ofSecond same
    refine different ?_
    rw [((decoded first a).mp ofFirst).1, ((decoded second b).mp ofSecond).1, same]

/-- In a typed table a record that cannot be read is not there. -/
theorem Typed.get_error
    {table : Table Value Record}
    {store : Store Value}
    (typed : table.Typed store)
    {id : String}
    {error : ReadError}
    (failed : table.get store id = .error error) :
    error = .keyNotFound := by
  unfold get at failed
  split at failed
  · exact (Except.error.inj failed).symm
  · rename_i value present
    obtain ⟨record, decoded⟩ := typed _ _ present (table.covers_key id)
    simp [decoded] at failed

end Reads

section Scans

variable {table : Table Value Record}

/-- A scan over values that all decode visits all of them. -/
theorem scan_of_decodes
    {values : List Value}
    (decodes : ∀ value ∈ values, ∃ record, table.decode value = some record) :
    (table.scan values).2 = none ∧
      ∀ record, record ∈ (table.scan values).1 ↔
        ∃ value ∈ values, table.decode value = some record := by
  induction values with
  | nil => simp [scan]
  | cons value values inductionHypothesis =>
      obtain ⟨head, decoded⟩ := decodes value List.mem_cons_self
      obtain ⟨complete, members⟩ := inductionHypothesis fun later member =>
        decodes later (List.mem_cons_of_mem value member)
      simp only [scan, decoded, List.mem_cons, exists_eq_or_imp]
      refine ⟨complete, fun record => ?_⟩
      rw [members record, Option.some.injEq, eq_comm]

/-- The values of a table are the ones stored under its keys. -/
theorem mem_values_iff {store : Store Value} {value : Value} :
    value ∈ table.values store ↔
      ∃ id, store[table.key id]? = some value := by
  simp only [values, List.mem_map, List.mem_filter, Prod.exists,
    exists_eq_right, Std.ExtTreeMap.mem_toList_iff_getElem?_eq_some]
  constructor
  · rintro ⟨key, present, covered⟩
    obtain ⟨id, rfl⟩ := table.exists_id_of_covers covered
    exact ⟨id, present⟩
  · rintro ⟨id, present⟩
    exact ⟨table.key id, present, table.covers_key id⟩

/-- Listing a typed table succeeds. -/
theorem Typed.list_complete
    {store : Store Value}
    (typed : table.Typed store) :
    (table.list store).2 = none := by
  refine (scan_of_decodes fun value member => ?_).1
  obtain ⟨id, present⟩ := mem_values_iff.mp member
  exact typed _ _ present (table.covers_key id)

/-- Listing a typed table returns exactly the records that can be read. -/
theorem Typed.mem_list_iff
    {store : Store Value}
    (typed : table.Typed store)
    {record : Record} :
    record ∈ (table.list store).1 ↔ ∃ id, table.get store id = .ok record := by
  have decodes : ∀ value ∈ table.values store,
      ∃ record, table.decode value = some record := by
    intro value member
    obtain ⟨id, present⟩ := mem_values_iff.mp member
    exact typed _ _ present (table.covers_key id)
  rw [list, (scan_of_decodes decodes).2 record]
  simp only [get_eq_ok_iff, mem_values_iff]
  constructor
  · rintro ⟨value, ⟨id, present⟩, decoded⟩
    exact ⟨id, value, present, decoded⟩
  · rintro ⟨id, value, present, decoded⟩
    exact ⟨value, ⟨id, present⟩, decoded⟩

/-- A scan over values that all decode returns their records in order. -/
theorem map_scan
    {entries : List (String × Value)}
    {idOf : Record → String}
    (decodes : ∀ entry ∈ entries, ∃ record,
      table.decode entry.2 = some record ∧ table.key (idOf record) = entry.1) :
    (table.scan (entries.map Prod.snd)).1.map (fun record =>
      table.key (idOf record)) = entries.map Prod.fst := by
  induction entries with
  | nil => rfl
  | cons entry entries inductionHypothesis =>
      rw [List.forall_mem_cons] at decodes
      obtain ⟨⟨record, decoded, same⟩, later⟩ := decodes
      simp only [List.map_cons, scan, decoded, same, inductionHypothesis later]

/-- Records that know their identifiers are listed once each. -/
theorem Typed.list_nodup
    {store : Store Value}
    (typed : table.Typed store)
    {idOf : Record → String}
    (keyed : ∀ id record, table.get store id = .ok record → idOf record = id) :
    ((table.list store).1.map idOf).Nodup := by
  have decodes : ∀ entry ∈ store.toList.filter fun entry =>
      table.covers entry.1, ∃ record, table.decode entry.2 = some record ∧
        table.key (idOf record) = entry.1 := by
    rintro ⟨key, value⟩ within
    rw [List.mem_filter, Std.ExtTreeMap.mem_toList_iff_getElem?_eq_some]
      at within
    obtain ⟨record, decoded⟩ := typed key value within.1 within.2
    obtain ⟨id, rfl⟩ := table.exists_id_of_covers within.2
    have read : table.get store id = .ok record :=
      (table.get_eq_ok_iff store).mpr ⟨value, within.1, decoded⟩
    exact ⟨record, decoded, congrArg table.key (keyed id record read)⟩
  have keys : (store.toList.filter fun entry => table.covers entry.1).Pairwise
      fun first second => first.1 ≠ second.1 :=
    (Store.toList_keys_ne store).filter _
  apply List.Nodup.of_map table.key
  rw [list, values, List.map_map]
  exact map_scan decodes ▸ List.pairwise_map.mpr keys

/-- A scan over values that decode to given records. -/
theorem scan_eq
    {values : List Value}
    {records : List Record}
    (decodes : values.map table.decode = records.map some) :
    table.scan values = (records, none) := by
  induction values generalizing records with
  | nil =>
      obtain rfl := List.map_eq_nil_iff.mp decodes.symm
      rfl
  | cons value values inductionHypothesis =>
      cases records with
      | nil => cases decodes
      | cons record records =>
          simp only [List.map_cons, List.cons.injEq] at decodes
          simp only [scan, decodes.1, inductionHypothesis decodes.2]

/-- A typed table that holds the records of a map is listed in the order of their
identifiers. -/
theorem Typed.list_eq
    {store : Store Value}
    (typed : table.Typed store)
    {records : Store Record}
    (holds : ∀ id record, table.get store id = .ok record ↔ records[id]? = some record) :
    table.list store = (records.toList.map Prod.snd, none) := by
  have ascending : ((store.toList.filter fun entry => table.covers entry.1).map
      fun entry => (entry.1, table.decode entry.2)).Pairwise
        fun a b => compare a.1 b.1 = .lt :=
    List.pairwise_map.mpr (Std.ExtTreeMap.ordered_keys_toList.filter _)
  have ascendingRecords : (records.toList.map
      fun entry => (table.key entry.1, some entry.2)).Pairwise
        fun a b => compare a.1 b.1 = .lt :=
    List.pairwise_map.mpr (Std.ExtTreeMap.ordered_keys_toList.imp table.compare_key)
  have entries := Store.eq_of_ascending ascending ascendingRecords fun entry => by
    simp only [List.mem_map, List.mem_filter, Prod.exists,
      Std.ExtTreeMap.mem_toList_iff_getElem?_eq_some]
    constructor
    · rintro ⟨key, value, ⟨present, covered⟩, rfl⟩
      obtain ⟨record, decoded⟩ := typed key value present covered
      obtain ⟨id, rfl⟩ := table.exists_id_of_covers covered
      have read := (table.get_eq_ok_iff store).mpr ⟨value, present, decoded⟩
      exact ⟨id, record, (holds id record).mp read, by rw [decoded]⟩
    · rintro ⟨id, record, present, rfl⟩
      obtain ⟨value, stored, decoded⟩ :=
        (table.get_eq_ok_iff store).mp ((holds id record).mpr present)
      exact ⟨table.key id, value, ⟨stored, table.covers_key id⟩, by rw [decoded]⟩
  refine scan_eq ?_
  have decoded := congrArg (List.map Prod.snd) entries
  rw [List.map_map, List.map_map] at decoded
  rw [values, List.map_map, List.map_map]
  exact decoded

end Scans

end Table
end RuseonCore
