import Mathlib.Tactic

/-!
# Slots updated in place

Goroutines, queues and peers are kept in lists and updated at their index.  A
fact about every slot, which may mention the index, is re-established by showing
it for the slot that changed and carrying it over for the others.
-/

namespace RuseonCore
namespace Slots

variable {Item : Type*} {items : List Item} {i : Nat}

/-- Every slot has a property that may depend on its index. -/
def Each (property : Nat → Item → Prop) (items : List Item) : Prop :=
  ∀ k item, items[k]? = some item → property k item

/-- Putting back what a slot holds changes nothing. -/
theorem set_of_getElem?
    {item : Item}
    (found : items[i]? = some item) :
    items.set i item = items := by
  obtain ⟨bound, rfl⟩ := List.getElem?_eq_some_iff.mp found
  exact List.set_getElem_self bound

/-- A slot of an updated list is the new one or an old one. -/
theorem getElem?_set_cases
    {k : Nat}
    {new item : Item}
    (found : (items.set i new)[k]? = some item) :
    (k = i ∧ item = new) ∨ (k ≠ i ∧ items[k]? = some item) := by
  rw [List.getElem?_set] at found
  split at found
  · split at found
    · exact .inl ⟨by omega, (Option.some.inj found).symm⟩
    · cases found
  · exact .inr ⟨by omega, found⟩

/-- A property of every slot after an update. -/
theorem Each.set
    {before after : Nat → Item → Prop}
    {new : Item}
    (each : Each before items)
    (here : after i new)
    (elsewhere : ∀ k item, k ≠ i → items[k]? = some item → before k item → after k item) :
    Each after (items.set i new) := by
  intro k item found
  rcases getElem?_set_cases found with ⟨rfl, rfl⟩ | ⟨other, old⟩
  · exact here
  · exact elsewhere k item other old (each k item old)

/-- The items of all slots after an update of one of them. -/
theorem flatMap_set
    {Entry : Type*}
    (entries : Item → List Entry)
    {item : Item}
    (found : items[i]? = some item)
    (new : Item) :
    ∃ before after,
      items.flatMap entries = before ++ entries item ++ after ∧
        (items.set i new).flatMap entries = before ++ entries new ++ after := by
  obtain ⟨bound, rfl⟩ := List.getElem?_eq_some_iff.mp found
  refine ⟨(items.take i).flatMap entries, (items.drop (i + 1)).flatMap entries, ?_, ?_⟩
  · conv_lhs => rw [← List.take_append_drop i items, List.drop_eq_getElem_cons bound]
    rw [List.flatMap_append, List.flatMap_cons, List.append_assoc]
  · rw [List.set_eq_take_append_cons_drop, if_pos bound, List.flatMap_append, List.flatMap_cons,
      List.append_assoc]

/-- Slots without common entries: an entry tells its slot. -/
theorem eq_of_nodup_flatMap
    {Entry : Type*}
    {entries : Item → List Entry}
    (nodup : (items.flatMap entries).Nodup)
    {j : Nat}
    {first second : Item}
    {entry : Entry}
    (foundFirst : items[i]? = some first)
    (foundSecond : items[j]? = some second)
    (inFirst : entry ∈ entries first)
    (inSecond : entry ∈ entries second) :
    i = j := by
  have apart := List.pairwise_iff_getElem.mp (List.nodup_flatMap.mp nodup).2
  obtain ⟨boundFirst, rfl⟩ := List.getElem?_eq_some_iff.mp foundFirst
  obtain ⟨boundSecond, rfl⟩ := List.getElem?_eq_some_iff.mp foundSecond
  rcases Nat.lt_trichotomy i j with before | same | after
  · exact absurd inSecond (apart i j boundFirst boundSecond before inFirst)
  · exact same
  · exact absurd inFirst (apart j i boundSecond boundFirst after inSecond)

end Slots
end RuseonCore
