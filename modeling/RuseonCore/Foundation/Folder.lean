import Mathlib.Data.List.Nodup
import Mathlib.Data.Multiset.Count
import Mathlib.Data.Multiset.MapFold

/-!
# Folders

A folder holds items under names, each name once.  An item is put under a name in
place of what is there, taken away, or moved to another name.  A move replaces an
item under the new name if that item is replaceable, and fails otherwise.

`get_moveAll_source`, `get_moveAll_target` and `get_moveAll_other` say where a
sequence of moves leaves every item when the names it moves from and to are all
different.  `countP_moveAll_lt` counts the items that such a sequence replaces.
-/

namespace RuseonCore

/-- Items under different names. -/
structure Folder (Name Item : Type*) where
  entries : List (Name × Item)
  distinct : (entries.map Prod.fst).Nodup

namespace Folder

variable {Name Item Other : Type*}

/-! ## Operations -/

/-- The folder without entries. -/
def empty : Folder Name Item where
  entries := []
  distinct := List.nodup_nil

/-- All items. -/
def items (folder : Folder Name Item) : Multiset Item :=
  folder.entries.map Prod.snd

/-- Change every item. -/
def map (change : Item → Other) (folder : Folder Name Item) : Folder Name Other where
  entries := folder.entries.map fun entry => (entry.1, change entry.2)
  distinct := by
    rw [List.map_map]
    exact folder.distinct

theorem ext
    {first second : Folder Name Item}
    (entries : first.entries = second.entries) :
    first = second := by
  cases first
  cases second
  cases entries
  rfl

theorem map_map
    {Third : Type*}
    (change : Item → Other)
    (again : Other → Third)
    (folder : Folder Name Item) :
    (folder.map change).map again = folder.map (again ∘ change) := by
  apply ext
  exact List.map_map

theorem items_map (change : Item → Other) (folder : Folder Name Item) :
    (folder.map change).items = folder.items.map change := by
  rw [items, map, items, Multiset.map_coe, List.map_map, List.map_map]
  rfl

variable [DecidableEq Name]

/-- The item under a name. -/
def get (folder : Folder Name Item) (name : Name) : Option Item :=
  (folder.entries.find? fun entry => entry.1 = name).map Prod.snd

/-- Take the item under a name away. -/
def remove (folder : Folder Name Item) (name : Name) : Folder Name Item where
  entries := folder.entries.filter fun entry => entry.1 ≠ name
  distinct := folder.distinct.sublist (List.filter_sublist.map Prod.fst)

/-- Put an item under a name. -/
def put (folder : Folder Name Item) (name : Name) (item : Item) : Folder Name Item where
  entries := (name, item) :: (folder.remove name).entries
  distinct := by
    rw [List.map_cons, List.nodup_cons]
    refine ⟨?_, (folder.remove name).distinct⟩
    simp [remove]

/-- Move an item to another name; `none` when there is no such item, or one that
cannot be replaced under the new name. -/
def move
    (replaceable : Item → Bool)
    (folder : Folder Name Item)
    (old new : Name) : Option (Folder Name Item) :=
  match folder.get old with
  | none => none
  | some item =>
      if old = new then some folder
      else if (folder.get new).all replaceable then some ((folder.remove old).put new item)
      else none

/-- Move an item if that is possible. -/
def tryMove
    (replaceable : Item → Bool)
    (folder : Folder Name Item)
    (old new : Name) : Folder Name Item :=
  (folder.move replaceable old new).getD folder

/-- Try several moves in turn. -/
def moveAll
    (replaceable : Item → Bool)
    (folder : Folder Name Item)
    (moves : List (Name × Name)) : Folder Name Item :=
  moves.foldl (fun folder step => folder.tryMove replaceable step.1 step.2) folder

/-! ## Finding items -/

section Finding

variable {folder : Folder Name Item} {name other : Name} {item : Item}

/-- The entries are what is found. -/
theorem get_eq_some_iff : folder.get name = some item ↔ (name, item) ∈ folder.entries := by
  constructor
  · intro found
    obtain ⟨entry, first, rfl⟩ := Option.map_eq_some_iff.mp found
    have here : entry.1 = name := by
      simpa using List.find?_some first
    rw [← here]
    exact List.mem_of_find?_eq_some first
  · intro present
    rw [get, Option.map_eq_some_iff]
    obtain ⟨entry, first⟩ : ∃ entry,
        folder.entries.find? (fun entry => entry.1 = name) = some entry :=
      Option.isSome_iff_exists.mp
        (List.find?_isSome.mpr ⟨(name, item), present, by simp⟩)
    have here : entry.1 = name := by
      simpa using List.find?_some first
    have same : entry = (name, item) :=
      List.inj_on_of_nodup_map folder.distinct (List.mem_of_find?_eq_some first) present here
    exact ⟨entry, first, by rw [same]⟩

theorem get_eq_none_iff : folder.get name = none ↔ ∀ item, (name, item) ∉ folder.entries := by
  rw [Option.eq_none_iff_forall_ne_some]
  exact forall_congr' fun item => not_congr get_eq_some_iff

@[simp]
theorem get_remove_self : (folder.remove name).get name = none := by
  rw [get_eq_none_iff]
  simp [remove]

theorem get_remove_of_ne (different : other ≠ name) :
    (folder.remove name).get other = folder.get other := by
  apply Option.ext
  intro item
  rw [get_eq_some_iff, get_eq_some_iff]
  simp [remove, different]

@[simp]
theorem get_put_self : (folder.put name item).get name = some item := by
  rw [get_eq_some_iff]
  exact List.mem_cons_self

theorem get_put_of_ne (different : other ≠ name) :
    (folder.put name item).get other = folder.get other := by
  apply Option.ext
  intro found
  rw [get_eq_some_iff, get_eq_some_iff]
  simp [put, remove, different]

/-- Taking away what is not there changes nothing. -/
theorem remove_of_get_eq_none (absent : folder.get name = none) :
    folder.remove name = folder := by
  apply ext
  apply List.filter_eq_self.mpr
  intro entry present
  rw [decide_eq_true_eq]
  rintro rfl
  exact get_eq_none_iff.mp absent entry.2 present

theorem get_map (change : Item → Other) :
    (folder.map change).get name = (folder.get name).map change := by
  apply Option.ext
  intro changed
  rw [get_eq_some_iff, Option.map_eq_some_iff]
  simp only [map, List.mem_map, Prod.mk.injEq, get_eq_some_iff]
  constructor
  · rintro ⟨entry, present, rfl, rfl⟩
    exact ⟨entry.2, present, rfl⟩
  · rintro ⟨item, present, rfl⟩
    exact ⟨(name, item), present, rfl, rfl⟩

end Finding

/-! ## The items -/

section Items

variable {folder : Folder Name Item} {name : Name} {item : Item}

/-- The items are what is found under some name. -/
theorem mem_items_iff : item ∈ folder.items ↔ ∃ name, folder.get name = some item := by
  simp [items, get_eq_some_iff]

@[simp]
theorem items_put : (folder.put name item).items = item ::ₘ (folder.remove name).items := by
  rw [items, put, List.map_cons, ← Multiset.cons_coe, items]

/-- An item beside the others. -/
theorem items_eq_cons (found : folder.get name = some item) :
    folder.items = item ::ₘ (folder.remove name).items := by
  classical
  have present := get_eq_some_iff.mp found
  have others : folder.entries.erase (name, item) = (folder.remove name).entries := by
    rw [folder.distinct.of_map.erase_eq_filter]
    apply List.filter_congr
    intro entry member
    rw [Bool.eq_iff_iff, bne_iff_ne, decide_eq_true_iff]
    refine not_congr ⟨?_, ?_⟩
    · rintro rfl
      rfl
    · intro same
      exact List.inj_on_of_nodup_map folder.distinct member present same
  rw [items, items, Multiset.cons_coe, Multiset.coe_eq_coe, ← others]
  exact (List.perm_cons_erase present).map Prod.snd

end Items

/-! ## One move -/

section Move

variable
  {replaceable : Item → Bool}
  {folder moved : Folder Name Item}
  {old new name : Name}
  {item : Item}

/-- A move to a name that is free, or whose item is replaceable. -/
theorem tryMove_of_get
    (found : folder.get old = some item)
    (different : old ≠ new)
    (open_ : (folder.get new).all replaceable = true) :
    folder.tryMove replaceable old new = (folder.remove old).put new item := by
  rw [tryMove, move, found]
  simp [different, open_]

/-- A move to the name of an item that is not replaceable. -/
theorem tryMove_of_blocked
    (different : old ≠ new)
    (blocked : (folder.get new).all replaceable = false) :
    folder.tryMove replaceable old new = folder := by
  rw [tryMove, move]
  cases folder.get old with
  | none => rfl
  | some item => simp [different, blocked]

/-- A move that changes something has an item to move, and may. -/
theorem tryMove_eq_self_or
    (replaceable : Item → Bool)
    (folder : Folder Name Item)
    (old new : Name) :
    folder.tryMove replaceable old new = folder ∨
      ∃ item, folder.get old = some item ∧ old ≠ new ∧
        (folder.get new).all replaceable = true := by
  cases found : folder.get old with
  | none =>
      left
      rw [tryMove, move, found]
      rfl
  | some item =>
      by_cases same : old = new
      · left
        rw [tryMove, move, found]
        simp [same]
      · cases open_ : (folder.get new).all replaceable with
        | false => exact Or.inl (tryMove_of_blocked same open_)
        | true => exact Or.inr ⟨item, rfl, same, rfl⟩

/-- A move changes nothing under other names. -/
theorem get_tryMove_of_ne
    (notOld : name ≠ old)
    (notNew : name ≠ new) :
    (folder.tryMove replaceable old new).get name = folder.get name := by
  rcases tryMove_eq_self_or replaceable folder old new with kept | ⟨item, found, different, open_⟩
  · rw [kept]
  · rw [tryMove_of_get found different open_, get_put_of_ne notNew, get_remove_of_ne notOld]

/-- What is under the old name after a move. -/
theorem get_tryMove_old (different : old ≠ new) :
    (folder.tryMove replaceable old new).get old =
      if (folder.get new).all replaceable then none else folder.get old := by
  cases open_ : (folder.get new).all replaceable with
  | false => rw [tryMove_of_blocked different open_]; rfl
  | true =>
      cases found : folder.get old with
      | none => rw [tryMove, move, found]; exact found
      | some item =>
          rw [tryMove_of_get found different open_, get_put_of_ne different, get_remove_self]
          rfl

/-- What is under the new name after a move. -/
theorem get_tryMove_new
    (found : folder.get old = some item)
    (different : old ≠ new) :
    (folder.tryMove replaceable old new).get new =
      if (folder.get new).all replaceable then some item else folder.get new := by
  cases open_ : (folder.get new).all replaceable with
  | false => rw [tryMove_of_blocked different open_]; rfl
  | true => rw [tryMove_of_get found different open_, get_put_self]; rfl

/-- A move to a free name keeps all items. -/
theorem items_tryMove_of_free (free : folder.get new = none) :
    (folder.tryMove replaceable old new).items = folder.items := by
  cases found : folder.get old with
  | none => rw [tryMove, move, found]; rfl
  | some item =>
      have different : old ≠ new := by
        rintro rfl
        rw [free] at found
        cases found
      have unchanged : (folder.remove old).remove new = folder.remove old := by
        apply remove_of_get_eq_none
        rw [get_remove_of_ne different.symm, free]
      rw [tryMove_of_get found different (by rw [free]; rfl), items_put, unchanged,
        items_eq_cons found]

/-- The items that a move replaces are lost. -/
theorem items_eq_cons_tryMove
    {replaced : Item}
    (found : folder.get old = some item)
    (different : old ≠ new)
    (taken : folder.get new = some replaced)
    (open_ : replaceable replaced = true) :
    folder.items = replaced ::ₘ (folder.tryMove replaceable old new).items := by
  have beside : (folder.remove old).get new = some replaced := by
    rw [get_remove_of_ne different.symm, taken]
  rw [tryMove_of_get found different (by rw [taken]; exact open_), items_put, Multiset.cons_swap,
    ← items_eq_cons beside, items_eq_cons found]

/-- A move adds no replaceable item. -/
theorem countP_tryMove_le :
    (folder.tryMove replaceable old new).items.countP (replaceable ·) ≤
      folder.items.countP (replaceable ·) := by
  rcases tryMove_eq_self_or replaceable folder old new with kept | ⟨item, found, different, open_⟩
  · rw [kept]
  · cases taken : folder.get new with
    | none => rw [items_tryMove_of_free taken]
    | some replaced =>
        rw [taken] at open_
        rw [items_eq_cons_tryMove found different taken open_]
        exact Multiset.countP_le_of_le _ (Multiset.le_cons_self _ _)

/-- A move that replaces an item loses it. -/
theorem countP_tryMove_lt
    {replaced : Item}
    (found : folder.get old = some item)
    (different : old ≠ new)
    (taken : folder.get new = some replaced)
    (open_ : replaceable replaced = true) :
    (folder.tryMove replaceable old new).items.countP (replaceable ·) <
      folder.items.countP (replaceable ·) := by
  rw [items_eq_cons_tryMove found different taken open_]
  refine (Nat.lt_succ_self _).trans_eq ?_
  exact (Multiset.countP_cons_of_pos (p := (replaceable ·)) _ open_).symm

end Move

/-! ## Several moves -/

section MoveAll

variable
  {replaceable : Item → Bool}
  {folder : Folder Name Item}
  {moves before after : List (Name × Name)}
  {old new name : Name}
  {item : Item}

/-- The names that moves start from and lead to are all different. -/
def Separate (moves : List (Name × Name)) : Prop :=
  (moves.map Prod.fst ++ moves.map Prod.snd).Nodup

@[simp]
theorem moveAll_cons :
    folder.moveAll replaceable ((old, new) :: moves) =
      (folder.tryMove replaceable old new).moveAll replaceable moves := rfl

theorem moveAll_append :
    folder.moveAll replaceable (before ++ after) =
      (folder.moveAll replaceable before).moveAll replaceable after :=
  List.foldl_append

/-- Moves change nothing under names they do not mention. -/
theorem get_moveAll_other
    (notSource : name ∉ moves.map Prod.fst)
    (notTarget : name ∉ moves.map Prod.snd) :
    (folder.moveAll replaceable moves).get name = folder.get name := by
  induction moves generalizing folder with
  | nil => rfl
  | cons step rest inductionHypothesis =>
      rw [List.map_cons, List.mem_cons, not_or] at notSource notTarget
      rw [moveAll_cons, inductionHypothesis notSource.2 notTarget.2,
        get_tryMove_of_ne notSource.1 notTarget.1]

/-- One of several moves is carried out in a folder that is unchanged under its
names, and what it does there remains. -/
theorem exists_moveAll_eq
    (replaceable : Item → Bool)
    (folder : Folder Name Item)
    (separate : Separate moves)
    (planned : (old, new) ∈ moves) :
    ∃ before after,
      moves = before ++ (old, new) :: after ∧ old ≠ new ∧
      (folder.moveAll replaceable before).get old = folder.get old ∧
      (folder.moveAll replaceable before).get new = folder.get new ∧
      ∀ name, name = old ∨ name = new →
        (folder.moveAll replaceable moves).get name =
          ((folder.moveAll replaceable before).tryMove replaceable old new).get name := by
  obtain ⟨before, after, rfl⟩ := List.append_of_mem planned
  have apart : ∀ name, name = old ∨ name = new →
      (name ∉ before.map Prod.fst ∧ name ∉ before.map Prod.snd) ∧
      name ∉ after.map Prod.fst ∧ name ∉ after.map Prod.snd := by
    simp only [Separate, List.map_append, List.map_cons] at separate
    grind
  have different : old ≠ new := by
    simp only [Separate, List.map_append, List.map_cons] at separate
    grind
  refine ⟨before, after, rfl, different, ?_, ?_, ?_⟩
  · exact get_moveAll_other (apart old (Or.inl rfl)).1.1 (apart old (Or.inl rfl)).1.2
  · exact get_moveAll_other (apart new (Or.inr rfl)).1.1 (apart new (Or.inr rfl)).1.2
  · intro name here
    rw [moveAll_append, moveAll_cons, get_moveAll_other (apart name here).2.1 (apart name here).2.2]

/-- What is under the old name of a move. -/
theorem get_moveAll_source
    (separate : Separate moves)
    (planned : (old, new) ∈ moves) :
    (folder.moveAll replaceable moves).get old =
      if (folder.get new).all replaceable then none else folder.get old := by
  obtain ⟨before, after, -, different, sameOld, sameNew, final⟩ :=
    exists_moveAll_eq replaceable folder separate planned
  rw [final old (Or.inl rfl), get_tryMove_old different, sameOld, sameNew]

/-- What is under the new name of a move. -/
theorem get_moveAll_target
    (separate : Separate moves)
    (planned : (old, new) ∈ moves)
    (found : folder.get old = some item) :
    (folder.moveAll replaceable moves).get new =
      if (folder.get new).all replaceable then some item else folder.get new := by
  obtain ⟨before, after, -, different, sameOld, sameNew, final⟩ :=
    exists_moveAll_eq replaceable folder separate planned
  rw [final new (Or.inr rfl), get_tryMove_new (sameOld.trans found) different, sameNew]

/-- Moves to free names keep all items. -/
theorem items_moveAll_of_free
    (separate : Separate moves)
    (free : ∀ step ∈ moves, folder.get step.2 = none) :
    (folder.moveAll replaceable moves).items = folder.items := by
  induction moves generalizing folder with
  | nil => rfl
  | cons step rest inductionHypothesis =>
      have unmentioned : ∀ later ∈ rest, later.2 ≠ step.1 ∧ later.2 ≠ step.2 := by
        simp only [Separate, List.map_cons] at separate
        grind
      have rest_separate : Separate rest := by
        simp only [Separate, List.map_cons] at separate ⊢
        grind
      rw [moveAll_cons, inductionHypothesis rest_separate,
        items_tryMove_of_free (free step List.mem_cons_self)]
      intro later member
      rw [get_tryMove_of_ne (unmentioned later member).1 (unmentioned later member).2]
      exact free later (List.mem_cons_of_mem _ member)

/-- Moves that all fail change nothing. -/
theorem moveAll_of_blocked
    (blocked : ∀ step ∈ moves,
      step.1 ≠ step.2 ∧ (folder.get step.2).all replaceable = false) :
    folder.moveAll replaceable moves = folder := by
  induction moves with
  | nil => rfl
  | cons step rest inductionHypothesis =>
      have first := blocked step List.mem_cons_self
      rw [moveAll_cons, tryMove_of_blocked first.1 first.2]
      exact inductionHypothesis fun later member => blocked later (List.mem_cons_of_mem _ member)

/-- Moves add no replaceable item. -/
theorem countP_moveAll_le :
    (folder.moveAll replaceable moves).items.countP (replaceable ·) ≤
      folder.items.countP (replaceable ·) := by
  induction moves generalizing folder with
  | nil => rfl
  | cons step rest inductionHypothesis =>
      rw [moveAll_cons]
      exact inductionHypothesis.trans countP_tryMove_le

/-- Moves that replace an item lose it. -/
theorem countP_moveAll_lt
    {replaced : Item}
    (separate : Separate moves)
    (planned : (old, new) ∈ moves)
    (found : folder.get old = some item)
    (taken : folder.get new = some replaced)
    (open_ : replaceable replaced = true) :
    (folder.moveAll replaceable moves).items.countP (replaceable ·) <
      folder.items.countP (replaceable ·) := by
  obtain ⟨before, after, rfl, different, sameOld, sameNew, -⟩ :=
    exists_moveAll_eq replaceable folder separate planned
  rw [moveAll_append, moveAll_cons]
  have lost := countP_tryMove_lt (sameOld.trans found) different (sameNew.trans taken) open_
  exact countP_moveAll_le.trans_lt (lost.trans_le countP_moveAll_le)

end MoveAll

end Folder
end RuseonCore
