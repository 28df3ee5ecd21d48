import Mathlib.Tactic

/-!
# Circular stores

A ring of fixed positive capacity stores the item with index `i` in the slot
`i % capacity`.  Writing indices in increasing order, it retains exactly the
last `capacity` items of the written history; `Retains` states this and
`Retains.store` carries it through one write.
-/

namespace RuseonCore

/-- A circular store: one slot, empty until first written, for every residue
of a positive capacity. -/
structure Ring (Item : Type) where
  capacity : Nat
  capacity_pos : 0 < capacity
  slots : List (Option Item)
  slots_length : slots.length = capacity

namespace Ring

/-- The ring with all slots empty. -/
def empty (capacity : Nat) (positive : 0 < capacity) : Ring Item where
  capacity := capacity
  capacity_pos := positive
  slots := List.replicate capacity none
  slots_length := List.length_replicate

/-- Content of the slot an index belongs to. -/
def load (ring : Ring Item) (index : Nat) : Option Item :=
  (ring.slots[index % ring.capacity]?).join

/-- Overwrite the slot an index belongs to. -/
def store (ring : Ring Item) (index : Nat) (item : Item) : Ring Item where
  capacity := ring.capacity
  capacity_pos := ring.capacity_pos
  slots := ring.slots.set (index % ring.capacity) (some item)
  slots_length := by rw [List.length_set, ring.slots_length]

@[simp] theorem capacity_store
    (ring : Ring Item)
    (index : Nat)
    (item : Item) :
    (ring.store index item).capacity = ring.capacity := rfl

/-- A stored item is read back at its own index. -/
theorem load_store_self
    (ring : Ring Item)
    (index : Nat)
    (item : Item) :
    (ring.store index item).load index = some item := by
  have bound : index % ring.capacity < ring.slots.length := by
    rw [ring.slots_length]
    exact Nat.mod_lt index ring.capacity_pos
  simp [load, store, bound]

/-- Storing leaves the other slots alone. -/
theorem load_store_of_mod_ne
    (ring : Ring Item)
    {index other : Nat}
    (item : Item)
    (different : index % ring.capacity ≠ other % ring.capacity) :
    (ring.store index item).load other = ring.load other := by
  simp only [load, store]
  rw [List.getElem?_set_ne different]

/-- Two different indices less than one capacity apart have different slots. -/
theorem mod_ne_mod_of_lt_of_lt_add
    {earlier later capacity : Nat}
    (before : earlier < later)
    (near : later < earlier + capacity) :
    later % capacity ≠ earlier % capacity := by
  intro same
  have divides : capacity ∣ later - earlier :=
    Nat.dvd_of_mod_eq_zero (Nat.sub_mod_eq_zero_of_mod_eq same)
  have le := Nat.le_of_dvd (by omega) divides
  omega

/-- The ring holds every item of the history that is less than one capacity
old. -/
def Retains (ring : Ring Item) (history : List Item) : Prop :=
  ∀ index, index < history.length →
    history.length ≤ index + ring.capacity →
    ring.load index = history[index]?

/-- An empty ring retains the empty history. -/
theorem retains_empty (capacity : Nat) (positive : 0 < capacity) :
    (empty capacity positive : Ring Item).Retains [] := by
  intro index before
  simp at before

/-- Storing the next item of the history keeps the last `capacity` items. -/
theorem Retains.store
    {ring : Ring Item}
    {history : List Item}
    (retains : ring.Retains history)
    (item : Item) :
    (ring.store history.length item).Retains (history ++ [item]) := by
  intro index before recent
  simp only [List.length_append, List.length_singleton, capacity_store]
    at before recent
  rcases Nat.lt_succ_iff_lt_or_eq.mp before with old | same
  · rw [load_store_of_mod_ne ring item
        (mod_ne_mod_of_lt_of_lt_add old (by omega)),
      retains index old (by omega), List.getElem?_append_left old]
  · subst index
    rw [load_store_self, List.getElem?_concat_length]

end Ring
end RuseonCore
