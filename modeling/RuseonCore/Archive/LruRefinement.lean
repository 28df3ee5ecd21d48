import RuseonCore.Archive.IndexLru
import RuseonCore.Foundation.Lru

/-!
# The cache of indices forgets what was used least recently

The list of `IndexLRUCache` in `internal/archive/hls.go` has the entries in the
order of their last use by `Get` or `Add`.  So the cache answers as a map of its
capacity should that forgets the key used least recently, for every sequence of
operations.
-/

namespace RuseonCore
namespace Archive

open Lru

namespace IndexLRUCache

/-- Carry out an operation. -/
def apply (c : IndexLRUCache) : Op String FileIndex → Option FileIndex × IndexLRUCache
  | .get key => c.get key
  | .add key value => (none, c.add key value)
  | .remove key => (none, c.remove key)
  | .clear => (none, c.clear)

/-- Carry out a sequence of operations. -/
def applyAll (c : IndexLRUCache) :
    List (Op String FileIndex) → List (Option FileIndex) × IndexLRUCache
  | [] => ([], c)
  | op :: ops =>
      let (answer, next) := c.apply op
      let (answers, last) := next.applyAll ops
      (answer :: answers, last)

/-! ## Values in a list of elements -/

/-- Value of the first element with the key. -/
def valueIn (entries : List Element) (key : String) : Option FileIndex :=
  (entries.find? fun e => e.key = key).map Element.value

/-- The elements with other keys. -/
def without (entries : List Element) (key : String) : List Element :=
  entries.filter fun e => e.key ≠ key

theorem valueIn_cons (e : Element) (entries : List Element) (key : String) :
    valueIn (e :: entries) key = if key = e.key then some e.value else valueIn entries key := by
  rw [valueIn, List.find?_cons]
  by_cases same : key = e.key
  · simp [same]
  · simp [same, eq_comm, valueIn]

theorem valueIn_without (entries : List Element) (removed key : String) :
    valueIn (without entries removed) key =
      if key = removed then none else valueIn entries key := by
  induction entries with
  | nil => simp [without, valueIn]
  | cons e entries inductionHypothesis =>
      rw [without] at inductionHypothesis ⊢
      by_cases same : e.key = removed
      · rw [List.filter_cons_of_neg (by simpa using same), inductionHypothesis, valueIn_cons]
        split
        · rfl
        · rename_i different
          rw [if_neg (same ▸ different)]
      · rw [List.filter_cons_of_pos (by simpa using same), valueIn_cons, valueIn_cons,
          inductionHypothesis]
        split
        · rename_i isKey
          rw [if_neg (isKey ▸ same)]
        · rfl

/-- There is one element for a key. -/
theorem eq_of_key
    {c : IndexLRUCache}
    {e e' : Element}
    (member : e ∈ c.evictList)
    (member' : e' ∈ c.evictList)
    (same : e.key = e'.key) :
    e = e' :=
  eq_of_id member member' ((id_eq_iff (items_of_mem member') member).mpr same)

theorem nodup_keys (c : IndexLRUCache) : (c.evictList.map Element.key).Nodup :=
  c.distinct.of_map.map_on fun _ member _ member' same => eq_of_key member member' same

theorem lookup_eq_valueIn (c : IndexLRUCache) (key : String) :
    c.lookup key = valueIn c.evictList key := by
  ext idx
  rw [lookup_eq_some_iff, valueIn, Option.map_eq_some_iff]
  constructor
  · rintro ⟨e, member, rfl, rfl⟩
    cases found : c.evictList.find? fun other => other.key = e.key with
    | none => simpa using List.find?_eq_none.mp found e member
    | some other =>
        have same : other.key = e.key := by simpa using List.find?_some found
        have isElement := eq_of_key (List.mem_of_find?_eq_some found) member same
        exact ⟨other, rfl, congrArg Element.value isElement⟩
  · rintro ⟨e, found, rfl⟩
    exact ⟨e, List.mem_of_find?_eq_some found, by simpa using List.find?_some found, rfl⟩

/-! ## The list after each operation -/

variable {c : IndexLRUCache} {key : String} {id : Nat}

theorem filter_id_ne (held : c.items key = some id) :
    c.evictList.filter (fun e => !decide (e.id = id)) = without c.evictList key := by
  apply List.filter_congr
  intro e member
  simp [id_eq_iff held member]

theorem filter_id_eq (held : c.items key = some id) :
    ∃ e ∈ c.evictList, e.id = id ∧ e.key = key ∧
      c.evictList.filter (fun e => decide (e.id = id)) = [e] := by
  obtain ⟨e, member, sameId, sameKey⟩ := (c.linked key id).mp held
  refine ⟨e, member, sameId, sameKey, ?_⟩
  have alone : c.evictList.filter (fun other => decide (other.id = id)) =
      c.evictList.filter (fun other => other = e) := by
    apply List.filter_congr
    intro other within
    rw [decide_eq_decide]
    constructor
    · intro same
      exact eq_of_id within member (same.trans sameId.symm)
    · rintro rfl
      exact sameId
  rw [alone, List.filter_eq, List.count_eq_one_of_mem c.distinct.of_map member]
  rfl

/-- A lookup that finds an element brings it to the front. -/
theorem evictList_get_of_held (held : c.items key = some id) :
    ∃ e ∈ c.evictList, e.key = key ∧
      (c.get key).2.evictList = e :: without c.evictList key := by
  obtain ⟨e, member, -, sameKey, alone⟩ := filter_id_eq held
  refine ⟨e, member, sameKey, ?_⟩
  rw [get, held]
  change c.evictList.filter (fun e => decide (e.id = id)) ++
    c.evictList.filter (fun e => !decide (e.id = id)) = _
  rw [alone, filter_id_ne held]
  rfl

/-- A new value for a key stands at the front. -/
theorem evictList_add_of_held
    (held : c.items key = some id)
    (value : FileIndex) :
    (c.add key value).evictList = ⟨id, key, value⟩ :: without c.evictList key := by
  obtain ⟨e, member, rfl, rfl, alone⟩ := filter_id_eq held
  have added : c.add e.key value = (c.moveToFront e.id).setValue e.id value := by
    unfold add
    split
    · rename_i found
      rw [held] at found
      cases found
      rfl
    · rename_i absent
      rw [held] at absent
      cases absent
  have others : (without c.evictList e.key).map
      (fun other => { other with value := if other.id = e.id then value else other.value }) =
        without c.evictList e.key := by
    rw [← filter_id_ne held]
    refine (List.map_congr_left ?_).trans (List.map_id _)
    intro other kept
    have different : other.id ≠ e.id := by simpa using List.of_mem_filter kept
    rw [if_neg different]
    rfl
  rw [added]
  change (c.evictList.filter (fun other => decide (other.id = e.id)) ++
    c.evictList.filter (fun other => !decide (other.id = e.id))).map _ = _
  rw [alone, filter_id_ne held, List.map_append, others]
  simp

/-- The element at the back is taken out. -/
theorem filter_getLast
    (entries : List Element)
    (distinct : (entries.map Element.id).Nodup)
    (nonempty : entries ≠ []) :
    entries.filter (fun e => e.id ≠ (entries.getLast nonempty).id) = entries.dropLast := by
  obtain ⟨before, last, rfl⟩ := (List.eq_nil_or_concat' entries).resolve_left nonempty
  have apart : ∀ e ∈ before, e.id ≠ last.id := by
    rw [List.map_append, List.nodup_append] at distinct
    intro e member
    exact distinct.2.2 e.id (List.mem_map_of_mem member) last.id (by simp)
  rw [List.getLast_append_singleton, List.dropLast_concat, List.filter_append,
    List.filter_eq_self.mpr (by simpa using apart)]
  simp

/-- The loop takes out one element at most. -/
theorem evictList_evict (c : IndexLRUCache) :
    c.evict.evictList =
      if c.capacity ≤ c.evictList.length then c.evictList.dropLast else c.evictList := by
  by_cases full : c.capacity ≤ c.evictList.length
  · have nonempty : c.evictList ≠ [] :=
      List.ne_nil_of_length_pos (Nat.lt_of_lt_of_le c.positive full)
    have taken := filter_getLast c.evictList c.distinct nonempty
    have room : ¬ c.capacity ≤ c.evictList.dropLast.length := by
      rw [List.length_dropLast]
      have bounded := c.bounded
      have positive := c.positive
      omega
    rw [if_pos full, evict, dif_pos full, evict]
    refine (congrArg evictList (dif_neg ?_)).trans taken
    exact (congrArg (fun entries : List Element => ¬ c.capacity ≤ entries.length) taken).mpr room
  · rw [if_neg full, evict, dif_neg full]

theorem evictList_add_of_new
    (absent : c.items key = none)
    (value : FileIndex) :
    (c.add key value).evictList = ⟨c.evict.allocated, key, value⟩ :: c.evict.evictList := by
  unfold add
  split
  · rename_i found
    rw [absent] at found
    cases found
  · rfl

theorem evictList_remove (c : IndexLRUCache) (key : String) :
    (c.remove key).evictList = without c.evictList key := by
  unfold remove
  split
  · rename_i id held
    rw [← filter_id_ne held]
    apply List.filter_congr
    simp
  · rename_i absent
    refine (List.filter_eq_self.mpr ?_).symm
    intro e member
    have present := items_of_mem member
    rw [decide_eq_true_eq]
    rintro rfl
    rw [absent] at present
    cases present

/-! ## Cache and log -/

/-- The cache has the values that the log says, in the order of their last use. -/
structure Represents (c : IndexLRUCache) (log : Log String FileIndex) : Prop where
  values : ∀ key, c.lookup key = latest log key
  recent : Recent log Element.key c.evictList

variable {log : Log String FileIndex}

/-- The keys of the elements are those with a value. -/
theorem Represents.mem_held_iff (represents : c.Represents log) (key : String) :
    key ∈ held log ↔ ∃ e ∈ c.evictList, e.key = key := by
  rw [held, Set.mem_ofPred_eq, ← represents.values, Option.ne_none_iff_exists']
  constructor
  · rintro ⟨idx, found⟩
    obtain ⟨e, member, same, -⟩ := lookup_eq_some_iff.mp found
    exact ⟨e, member, same⟩
  · rintro ⟨e, member, same⟩
    exact ⟨e.value, lookup_eq_some_iff.mpr ⟨e, member, same, rfl⟩⟩

theorem Represents.ncard_held (represents : c.Represents log) :
    (held log).ncard = c.len := by
  have same : held log = ((c.evictList.map Element.key).toFinset : Set String) := by
    ext key
    rw [represents.mem_held_iff]
    simp
  rw [same, Set.ncard_coe_finset, List.toFinset_card_of_nodup c.nodup_keys, List.length_map]
  rfl

theorem Represents.items_eq_none_iff (represents : c.Represents log) (key : String) :
    c.items key = none ↔ key ∉ held log := by
  rw [represents.mem_held_iff, ← not_iff_not, not_not, ← Ne, Option.ne_none_iff_exists']
  constructor
  · rintro ⟨id, found⟩
    obtain ⟨e, member, -, same⟩ := (c.linked key id).mp found
    exact ⟨e, member, same⟩
  · rintro ⟨e, member, rfl⟩
    exact ⟨e.id, items_of_mem member⟩

theorem represents_new (capacity : Int) : (newIndexLRUCache capacity).Represents [] where
  values := fun _ => rfl
  recent := List.Pairwise.nil

/-- The other elements keep their order. -/
theorem recent_without
    {entries : List Element}
    (recent : Recent log Element.key entries)
    (key : String) :
    Recent log Element.key (without entries key) :=
  List.Pairwise.sublist List.filter_sublist recent

theorem key_ne_of_mem_without
    {entries : List Element}
    {e : Element}
    (member : e ∈ without entries key) :
    e.key ≠ key := by
  simpa using List.of_mem_filter member

/-! ## The operations -/

/-- A cache after an operation, and the log with the operation. -/
def Follows (c : IndexLRUCache) (log : Log String FileIndex) (op : Op String FileIndex) : Prop :=
  ∃ displaced,
    (c.apply op).1 = answer log op ∧ Displaces c.capacity log op displaced ∧
      (c.apply op).2.Represents (⟨op, (c.apply op).1, displaced⟩ :: log)

theorem follows_get (represents : c.Represents log) (key : String) :
    c.Follows log (.get key) := by
  refine ⟨none, (c.get_fst key).trans (represents.values key), ?_, ?_, ?_⟩
  · intro _ _ isAdd
    cases isAdd
  · intro other
    exact (c.lookup_get key other).trans (represents.values other)
  · change Recent _ Element.key (c.get key).2.evictList
    cases found : c.items key with
    | some id =>
        obtain ⟨e, -, sameKey, moved⟩ := evictList_get_of_held found
        rw [moved]
        apply (recent_without represents.recent key).use
        · simp [Op.uses, sameKey]
        · intro other member
          simpa [Op.uses, eq_comm] using key_ne_of_mem_without member
    | none =>
        have same : (c.get key).2 = c := by rw [get, found]
        rw [same]
        apply represents.recent.cons
        intro e member
        have absent := (represents.items_eq_none_iff key).mp found
        rw [represents.mem_held_iff] at absent
        simpa [Op.uses] using fun isKey => absent ⟨e, member, isKey.symm⟩

/-- A value is stored in front of the elements that stay. -/
theorem represents_add
    (represents : c.Represents log)
    {key : String}
    {value : FileIndex}
    {displaced : Option String}
    {rest : List Element}
    {id : Nat}
    (added : (c.add key value).evictList = ⟨id, key, value⟩ :: rest)
    (fewer : rest.Sublist (without c.evictList key))
    (values : ∀ other, other ≠ key →
      valueIn rest other = if displaced = some other then none else c.lookup other) :
    (c.add key value).Represents (⟨.add key value, none, displaced⟩ :: log) where
  values := by
    intro other
    rw [lookup_eq_valueIn, added, valueIn_cons, latest_cons, Event.leaves]
    dsimp only
    split
    · rfl
    · rename_i different
      rw [values other different, represents.values]
  recent := by
    rw [added]
    apply Recent.use
    · exact (recent_without represents.recent key).sublist fewer
    · simp [Op.uses]
    · intro other member
      simpa [Op.uses, eq_comm] using key_ne_of_mem_without (fewer.subset member)

/-- Without the key, the list is the same. -/
theorem without_of_absent (absent : c.items key = none) :
    without c.evictList key = c.evictList := by
  rw [← evictList_remove]
  unfold remove
  split
  · rename_i found
    rw [absent] at found
    cases found
  · rfl

theorem follows_add (represents : c.Represents log) (key : String) (value : FileIndex) :
    c.Follows log (.add key value) := by
  cases found : c.items key with
  | some id =>
      refine ⟨none, rfl, ?_, ?_⟩
      · intro other _ isAdd unheld
        cases isAdd
        rw [← represents.items_eq_none_iff, found] at unheld
        cases unheld
      · apply represents_add represents (evictList_add_of_held found value)
          (List.Sublist.refl _)
        intro other different
        rw [valueIn_without, if_neg different, lookup_eq_valueIn]
        rfl
  | none =>
      have unheld := (represents.items_eq_none_iff key).mp found
      have added := evictList_add_of_new found value
      have evicted := c.evictList_evict
      by_cases full : c.capacity ≤ c.evictList.length
      · have nonempty : c.evictList ≠ [] :=
          List.ne_nil_of_length_pos (Nat.lt_of_lt_of_le c.positive full)
        have member := List.getLast_mem nonempty
        have taken : c.evictList.dropLast =
            without c.evictList (c.evictList.getLast nonempty).key := by
          rw [← filter_id_ne (items_of_mem member), ← filter_getLast _ c.distinct nonempty]
          simp
        refine ⟨some (c.evictList.getLast nonempty).key, rfl, ?_, ?_⟩
        · refine ⟨key, value, rfl, unheld, ?_, ?_, ?_⟩
          · exact represents.ncard_held.trans (le_antisymm c.bounded full)
          · exact (represents.mem_held_iff _).mpr ⟨_, member, rfl⟩
          · intro other isHeld
            obtain ⟨e, within, rfl⟩ := (represents.mem_held_iff other).mp isHeld
            exact represents.recent.last_le nonempty within
        · rw [if_pos full, taken] at evicted
          rw [evicted] at added
          apply represents_add represents added
          · rw [without_of_absent found]
            exact List.filter_sublist
          · intro other _
            rw [valueIn_without, lookup_eq_valueIn]
            simp only [Option.some.injEq, eq_comm]
      · rw [if_neg full] at evicted
        rw [evicted] at added
        refine ⟨none, rfl, ?_, ?_⟩
        · intro _ _ _ _
          rw [represents.ncard_held]
          exact not_le.mp full
        · apply represents_add represents added
          · rw [without_of_absent found]
          · intro other _
            rw [lookup_eq_valueIn]
            rfl

theorem follows_remove (represents : c.Represents log) (key : String) :
    c.Follows log (.remove key) := by
  refine ⟨none, rfl, ?_, ?_, ?_⟩
  · intro _ _ isAdd
    cases isAdd
  · intro other
    change (c.remove key).lookup other = _
    rw [lookup_eq_valueIn, evictList_remove, valueIn_without, ← lookup_eq_valueIn,
      represents.values]
    rfl
  · change Recent _ Element.key (c.remove key).evictList
    rw [evictList_remove]
    apply (recent_without represents.recent key).cons
    intro _ _
    rfl

theorem follows_clear (c : IndexLRUCache) (log : Log String FileIndex) :
    c.Follows log .clear := by
  refine ⟨none, rfl, ?_, fun _ => rfl, List.Pairwise.nil⟩
  intro _ _ isAdd
  cases isAdd

/-- Every operation is carried out as it should be. -/
theorem follows (represents : c.Represents log) (op : Op String FileIndex) :
    c.Follows log op := by
  cases op with
  | get key => exact follows_get represents key
  | add key value => exact follows_add represents key value
  | remove key => exact follows_remove represents key
  | clear => exact follows_clear c log

theorem capacity_evict (c : IndexLRUCache) : c.evict.capacity = c.capacity := by
  fun_induction evict c with
  | case1 c full nonempty oldest inductionHypothesis => exact inductionHypothesis
  | case2 c free => rfl

/-- The capacity stays what it is. -/
theorem capacity_apply (c : IndexLRUCache) (op : Op String FileIndex) :
    (c.apply op).2.capacity = c.capacity := by
  cases op with
  | get key =>
      simp only [apply, get]
      split <;> rfl
  | add key value =>
      simp only [apply, add]
      split
      · rfl
      · exact c.capacity_evict
  | remove key =>
      simp only [apply, remove]
      split <;> rfl
  | clear => rfl

/-- Sequences of operations are carried out as they should be. -/
theorem conforms_applyAll
    (ops : List (Op String FileIndex))
    {c : IndexLRUCache}
    {log : Log String FileIndex}
    (represents : c.Represents log)
    (conforms : Conforms c.capacity log) :
    ∃ later : Log String FileIndex,
      later.reverse.map Event.op = ops ∧
        later.reverse.map Event.answer = (c.applyAll ops).1 ∧
        Conforms c.capacity (later ++ log) ∧
        (c.applyAll ops).2.Represents (later ++ log) ∧
        (c.applyAll ops).2.capacity = c.capacity := by
  induction ops generalizing c log with
  | nil => exact ⟨[], rfl, rfl, conforms, represents, rfl⟩
  | cons op ops inductionHypothesis =>
      obtain ⟨displaced, answered, allowed, next⟩ := follows represents op
      have capacity := c.capacity_apply op
      have extended : Conforms (c.apply op).2.capacity
          (⟨op, (c.apply op).1, displaced⟩ :: log) := by
        rw [capacity]
        exact ⟨answered, allowed, conforms⟩
      obtain ⟨later, sameOps, sameAnswers, conformsLater, representsLater, capacityLater⟩ :=
        inductionHypothesis next extended
      refine ⟨later ++ [⟨op, (c.apply op).1, displaced⟩], ?_, ?_, ?_, ?_, ?_⟩
      · simp [sameOps]
      · simp [sameAnswers, applyAll]
      · rw [List.append_assoc, ← capacity]
        exact conformsLater
      · rw [List.append_assoc]
        exact representsLater
      · exact capacityLater.trans capacity

/-- The map and the list have the same entries, one for each key. -/
def OneToOne (c : IndexLRUCache) : Prop :=
  (c.evictList.map Element.key).Nodup ∧
    ∀ key id, c.items key = some id ↔ ∃ e ∈ c.evictList, e.id = id ∧ e.key = key

end IndexLRUCache

/-- For every capacity and every sequence of operations, the cache answers as a map
should that forgets the key used least recently; its map and its list have the
same entries, there are never more than its capacity, and the loop that makes room
comes to an end. -/
theorem indexLRUCache_behaves_as_lru
    (capacity : Int)
    (ops : List (Op String FileIndex))
    (answers : List (Option FileIndex))
    (c : IndexLRUCache)
    (applied : (newIndexLRUCache capacity).applyAll ops = (answers, c)) :
    (∃ log : Log String FileIndex,
      log.reverse.map Event.op = ops ∧ log.reverse.map Event.answer = answers ∧
        Conforms (newIndexLRUCache capacity).capacity log ∧
        ∀ key, (c.get key).1 = latest log key) ∧
      c.OneToOne ∧
      c.len ≤ (newIndexLRUCache capacity).capacity ∧
      c.evict.len < (newIndexLRUCache capacity).capacity := by
  obtain ⟨log, sameOps, sameAnswers, conforms, represents, sameCapacity⟩ :=
    IndexLRUCache.conforms_applyAll ops (IndexLRUCache.represents_new capacity) trivial
  rw [List.append_nil] at conforms represents
  rw [applied] at sameAnswers represents sameCapacity
  rw [← sameCapacity] at conforms ⊢
  refine ⟨⟨log, sameOps, sameAnswers, conforms, ?_⟩, ⟨c.nodup_keys, c.linked⟩, c.bounded, ?_⟩
  · intro key
    exact (c.get_fst key).trans (represents.values key)
  · rw [← c.capacity_evict]
    exact c.length_evict

/-- Of two indices, the one that was not looked up makes room for a third. -/
theorem indexLRUCache_behaves_as_lru_third :
    ((newIndexLRUCache 2).applyAll
        [.add "a" ⟨0, 1, []⟩, .add "b" ⟨0, 2, []⟩, .get "a", .add "c" ⟨0, 3, []⟩, .get "b",
          .get "a"]).1 =
        [none, none, some ⟨0, 1, []⟩, none, none, some ⟨0, 1, []⟩] ∧
      ((newIndexLRUCache 2).applyAll
        [.add "a" ⟨0, 1, []⟩, .add "b" ⟨0, 2, []⟩, .get "a", .add "c" ⟨0, 3, []⟩, .get "b",
          .get "a"]).2.len ≤ 2 :=
  ⟨by decide +kernel, (indexLRUCache_behaves_as_lru 2 _ _ _ rfl).2.2.1⟩

end Archive
end RuseonCore
