import RuseonCore.Archive.Index

/-!
# The cache of indices

Model of `IndexLRUCache` in `internal/archive/hls.go`: a doubly linked list of
entries, with those used last at its front, and a map from keys to the elements
of the list.  Elements are identified by the order of their allocation.  The map
has an element for a key exactly if the element is in the list and has that key.
-/

namespace RuseonCore
namespace Archive

/-- An element of the list with its entry. -/
structure Element where
  id : Nat
  key : String
  value : FileIndex
  deriving DecidableEq

def defaultCacheCapacity : Nat := 2000

/-- The cache, with the number of elements that were allocated so far. -/
structure IndexLRUCache where
  capacity : Nat
  items : String → Option Nat
  evictList : List Element
  allocated : Nat
  positive : 0 < capacity
  bounded : evictList.length ≤ capacity
  below : ∀ e ∈ evictList, e.id < allocated
  distinct : (evictList.map Element.id).Nodup
  linked : ∀ key id, items key = some id ↔ ∃ e ∈ evictList, e.id = id ∧ e.key = key

/-- An empty cache; a capacity that is not positive becomes the default. -/
def newIndexLRUCache (capacity : Int) : IndexLRUCache where
  capacity := if capacity ≤ 0 then defaultCacheCapacity else capacity.toNat
  items := fun _ => none
  evictList := []
  allocated := 0
  positive := by
    split
    · decide
    · omega
  bounded := Nat.zero_le _
  below := by simp
  distinct := List.nodup_nil
  linked := by simp

namespace IndexLRUCache

/-! ## Elements of the list -/

/-- An element is known by its identity. -/
theorem eq_of_id
    {c : IndexLRUCache}
    {e e' : Element}
    (member : e ∈ c.evictList)
    (member' : e' ∈ c.evictList)
    (same : e.id = e'.id) :
    e = e' :=
  List.inj_on_of_nodup_map c.distinct member member' same

theorem items_of_mem
    {c : IndexLRUCache}
    {e : Element}
    (member : e ∈ c.evictList) :
    c.items e.key = some e.id :=
  (c.linked e.key e.id).mpr ⟨e, member, rfl, rfl⟩

/-- The element that the map has for a key is the one with that key. -/
theorem id_eq_iff
    {c : IndexLRUCache}
    {key : String}
    {id : Nat}
    (held : c.items key = some id)
    {e : Element}
    (member : e ∈ c.evictList) :
    e.id = id ↔ e.key = key := by
  constructor
  · intro same
    obtain ⟨e', member', sameId, sameKey⟩ := (c.linked key id).mp held
    rw [eq_of_id member member' (same.trans sameId.symm)]
    exact sameKey
  · rintro rfl
    exact Option.some.inj ((items_of_mem member).symm.trans held)

/-- Index in the cache under a key. -/
def lookup (c : IndexLRUCache) (key : String) : Option FileIndex :=
  match c.items key with
  | none => none
  | some id => (c.evictList.find? fun e => e.id = id).map Element.value

theorem lookup_eq_some_iff {c : IndexLRUCache} {key : String} {idx : FileIndex} :
    c.lookup key = some idx ↔ ∃ e ∈ c.evictList, e.key = key ∧ e.value = idx := by
  unfold lookup
  constructor
  · intro found
    split at found
    · cases found
    · rename_i id held
      obtain ⟨e, isFound, rfl⟩ := Option.map_eq_some_iff.mp found
      have member := List.mem_of_find?_eq_some isFound
      have same : e.id = id := by simpa using List.find?_some isFound
      exact ⟨e, member, (id_eq_iff held member).mp same, rfl⟩
  · rintro ⟨e, member, rfl, rfl⟩
    rw [items_of_mem member]
    dsimp only
    cases isFound : c.evictList.find? fun other => other.id = e.id with
    | none => simpa using List.find?_eq_none.mp isFound e member
    | some other =>
        have same : other.id = e.id := by simpa using List.find?_some isFound
        rw [eq_of_id (List.mem_of_find?_eq_some isFound) member same]
        rfl

/-! ## Operations on the list -/

/-- Move the element to the front. -/
def moveToFront (c : IndexLRUCache) (id : Nat) : IndexLRUCache :=
  have moved := List.filter_append_perm (fun e : Element => decide (e.id = id)) c.evictList
  { c with
    evictList := c.evictList.filter (fun e => e.id = id) ++
      c.evictList.filter (fun e => !decide (e.id = id))
    bounded := moved.length_eq ▸ c.bounded
    below := fun e member => c.below e (moved.mem_iff.mp member)
    distinct := (moved.map Element.id).nodup_iff.mpr c.distinct
    linked := by
      intro key id
      simp only [moved.mem_iff]
      exact c.linked key id }

theorem mem_moveToFront {c : IndexLRUCache} {id : Nat} {e : Element} :
    e ∈ (c.moveToFront id).evictList ↔ e ∈ c.evictList :=
  (List.filter_append_perm _ _).mem_iff

/-- Give the element another value. -/
def setValue (c : IndexLRUCache) (id : Nat) (value : FileIndex) : IndexLRUCache :=
  { c with
    evictList := c.evictList.map fun e => { e with value := if e.id = id then value else e.value }
    bounded := by
      rw [List.length_map]
      exact c.bounded
    below := by
      simp only [List.forall_mem_map]
      exact c.below
    distinct := by
      rw [List.map_map]
      exact c.distinct
    linked := by
      intro key other
      rw [c.linked]
      simp }

/-- Take the element out of the list, and its key out of the map. -/
def unlink
    (c : IndexLRUCache)
    (key : String)
    (id : Nat)
    (held : c.items key = some id) : IndexLRUCache :=
  { c with
    items := fun other => if other = key then none else c.items other
    evictList := c.evictList.filter fun e => e.id ≠ id
    bounded := (List.length_filter_le _ _).trans c.bounded
    below := fun e member => c.below e (List.mem_of_mem_filter member)
    distinct := c.distinct.sublist (List.filter_sublist.map Element.id)
    linked := by
      intro other otherId
      split
      · rename_i same
        refine iff_of_false (fun found => by cases found) ?_
        rintro ⟨e, member, _, sameKey⟩
        obtain ⟨within, kept⟩ := List.mem_filter.mp member
        have removed := (id_eq_iff held within).mpr (sameKey.trans same)
        simp [removed] at kept
      · rename_i different
        rw [c.linked]
        refine exists_congr fun e => and_congr_left ?_
        rintro ⟨_, sameKey⟩
        rw [List.mem_filter]
        refine (and_iff_left_of_imp ?_).symm
        intro within
        have kept : e.id ≠ id :=
          fun removed => different (sameKey ▸ (id_eq_iff held within).mp removed)
        simpa using kept }

/-- Put a new element at the front. -/
def pushFront
    (c : IndexLRUCache)
    (key : String)
    (value : FileIndex)
    (room : c.evictList.length < c.capacity)
    (absent : c.items key = none) : IndexLRUCache :=
  { c with
    items := fun other => if other = key then some c.allocated else c.items other
    evictList := ⟨c.allocated, key, value⟩ :: c.evictList
    allocated := c.allocated + 1
    bounded := room
    below := by
      rw [List.forall_mem_cons]
      exact ⟨Nat.lt_succ_self _, fun e member => Nat.lt_succ_of_lt (c.below e member)⟩
    distinct := by
      rw [List.map_cons, List.nodup_cons]
      refine ⟨?_, c.distinct⟩
      intro member
      obtain ⟨e, within, same⟩ := List.mem_map.mp member
      exact absurd (c.below e within) (by rw [same]; exact Nat.lt_irrefl _)
    linked := by
      intro other id
      rw [List.exists_mem_cons_iff]
      split
      · rename_i same
        have unheld : ¬ ∃ e ∈ c.evictList, e.id = id ∧ e.key = other := by
          rw [← c.linked, same, absent]
          exact fun found => by cases found
        rw [or_iff_left unheld, Option.some.injEq]
        exact (and_iff_left same.symm).symm
      · rename_i different
        rw [c.linked]
        refine (or_iff_right ?_).symm
        rintro ⟨_, sameKey⟩
        exact different sameKey.symm }

/-! ## Operations of the cache -/

/-- Index under a key; the entry becomes the one used last. -/
def get (c : IndexLRUCache) (key : String) : Option FileIndex × IndexLRUCache :=
  match c.items key with
  | some id => (c.lookup key, c.moveToFront id)
  | none => (none, c)

/-- Take out the entries used least recently until there is room for one. -/
def evict (c : IndexLRUCache) : IndexLRUCache :=
  if full : c.capacity ≤ c.evictList.length then
    have nonempty : c.evictList ≠ [] :=
      List.ne_nil_of_length_pos (Nat.lt_of_lt_of_le c.positive full)
    let oldest := c.evictList.getLast nonempty
    (c.unlink oldest.key oldest.id (items_of_mem (List.getLast_mem nonempty))).evict
  else c
termination_by c.evictList.length
decreasing_by
  refine List.length_filter_lt_length_iff_exists.mpr ⟨_, List.getLast_mem nonempty, ?_⟩
  simp

theorem length_evict (c : IndexLRUCache) :
    c.evict.evictList.length < c.evict.capacity := by
  fun_induction evict c with
  | case1 c full nonempty oldest inductionHypothesis => exact inductionHypothesis
  | case2 c free => exact Nat.lt_of_not_le free

theorem mem_of_mem_evict
    {c : IndexLRUCache}
    {e : Element} :
    e ∈ c.evict.evictList → e ∈ c.evictList := by
  fun_induction evict c with
  | case1 c full nonempty oldest inductionHypothesis =>
      intro member
      exact List.mem_of_mem_filter (inductionHypothesis member)
  | case2 c free =>
      intro member
      exact member

theorem items_evict_of_none
    {c : IndexLRUCache}
    {key : String}
    (absent : c.items key = none) :
    c.evict.items key = none := by
  by_contra present
  obtain ⟨id, held⟩ := Option.ne_none_iff_exists'.mp present
  obtain ⟨e, member, _, rfl⟩ := (c.evict.linked key id).mp held
  rw [items_of_mem (mem_of_mem_evict member)] at absent
  cases absent

/-- Store an index under a key; a new entry may displace others. -/
def add (c : IndexLRUCache) (key : String) (value : FileIndex) : IndexLRUCache :=
  match found : c.items key with
  | some id => (c.moveToFront id).setValue id value
  | none => c.evict.pushFront key value c.length_evict (items_evict_of_none found)

/-- Delete the index under a key. -/
def remove (c : IndexLRUCache) (key : String) : IndexLRUCache :=
  match found : c.items key with
  | some id => c.unlink key id found
  | none => c

/-- Delete all indices. -/
def clear (c : IndexLRUCache) : IndexLRUCache :=
  { c with
    items := fun _ => none
    evictList := []
    bounded := Nat.zero_le _
    below := by simp
    distinct := List.nodup_nil
    linked := by simp }

/-- Number of indices in the cache. -/
def len (c : IndexLRUCache) : Nat :=
  c.evictList.length

/-! ## What the operations do to the indices in the cache -/

@[simp] theorem lookup_new (capacity : Int) (key : String) :
    (newIndexLRUCache capacity).lookup key = none :=
  rfl

theorem lookup_eq_none_of_items
    {c : IndexLRUCache}
    {key : String}
    (absent : c.items key = none) :
    c.lookup key = none := by
  rw [lookup, absent]

@[simp] theorem get_fst (c : IndexLRUCache) (key : String) :
    (c.get key).1 = c.lookup key := by
  unfold get
  split
  · rfl
  · rename_i absent
    exact (lookup_eq_none_of_items absent).symm

@[simp] theorem lookup_get (c : IndexLRUCache) (key other : String) :
    (c.get key).2.lookup other = c.lookup other := by
  unfold get
  split
  · ext idx
    simp only [lookup_eq_some_iff, mem_moveToFront]
  · rfl

@[simp] theorem lookup_add_self (c : IndexLRUCache) (key : String) (value : FileIndex) :
    (c.add key value).lookup key = some value := by
  rw [lookup_eq_some_iff]
  unfold add
  split
  · rename_i id held
    obtain ⟨e, member, sameId, sameKey⟩ := (c.linked key id).mp held
    refine ⟨_, List.mem_map.mpr ⟨e, mem_moveToFront.mpr member, rfl⟩, sameKey, ?_⟩
    exact if_pos sameId
  · exact ⟨_, List.mem_cons_self, rfl, rfl⟩

/-- Another key has its index from before, unless it was displaced. -/
theorem lookup_of_lookup_add
    {c : IndexLRUCache}
    {key other : String}
    {value idx : FileIndex}
    (different : other ≠ key)
    (found : (c.add key value).lookup other = some idx) :
    c.lookup other = some idx := by
  rw [lookup_eq_some_iff] at found ⊢
  unfold add at found
  split at found
  · rename_i id held
    obtain ⟨e, member, sameKey, sameValue⟩ := found
    obtain ⟨before, moved, rfl⟩ := List.mem_map.mp member
    have within := mem_moveToFront.mp moved
    have kept : before.id ≠ id :=
      fun replaced => different (sameKey.symm.trans ((id_eq_iff held within).mp replaced))
    exact ⟨before, within, sameKey, (if_neg kept).symm.trans sameValue⟩
  · obtain ⟨e, member, sameKey, sameValue⟩ := found
    rcases List.mem_cons.mp member with rfl | old
    · exact absurd sameKey.symm different
    · exact ⟨e, mem_of_mem_evict old, sameKey, sameValue⟩

theorem lookup_of_lookup_remove
    {c : IndexLRUCache}
    {key other : String}
    {idx : FileIndex}
    (found : (c.remove key).lookup other = some idx) :
    c.lookup other = some idx := by
  rw [lookup_eq_some_iff] at found ⊢
  unfold remove at found
  split at found
  · obtain ⟨e, member, same⟩ := found
    exact ⟨e, List.mem_of_mem_filter member, same⟩
  · exact found

end IndexLRUCache
end Archive
end RuseonCore
