import Mathlib.Tactic

/-!
# Reference-counted cells

Cells of a heap count their references and dispose of their resources when the
count reaches zero.  The owners of a heap are the references that exist, one
entry for each.  If every reference is created by an allocation or from another
reference, and is given up once, then each count is the number of references,
and a cell is intact as long as it has one.
-/

namespace RuseonCore

/-- Operations of counted cells.  A cell has resources of a given weight, and
`disposed` tells how much it has disposed of. -/
structure Counting (Cell : Type) where
  count : Cell → Int
  weight : Cell → Nat
  disposed : Cell → Nat
  Intact : Cell → Prop
  retain : Cell → Cell
  release : Cell → Cell
  count_retain : ∀ cell, count (retain cell) = count cell + 1
  weight_retain : ∀ cell, weight (retain cell) = weight cell
  disposed_retain : ∀ cell, disposed (retain cell) = disposed cell
  intact_retain : ∀ cell, Intact cell → Intact (retain cell)
  count_release : ∀ cell, count (release cell) = count cell - 1
  weight_release : ∀ cell, weight (release cell) = weight cell
  disposed_release : ∀ cell, Intact cell →
    disposed (release cell) =
      disposed cell + if count cell = 1 then weight cell else 0
  intact_release : ∀ cell, Intact cell → count cell ≠ 1 → Intact (release cell)

namespace Counting

variable {Cell : Type} (counting : Counting Cell)

/-- A cell with a number of references. -/
structure Referenced (cell : Cell) (references : Nat) : Prop where
  count : counting.count cell = references
  disposed : counting.disposed cell =
    if references = 0 then counting.weight cell else 0
  intact : 0 < references → counting.Intact cell

/-- The counts of a heap agree with its owners. -/
structure Owned (heap : List Cell) (owners : List Nat) : Prop where
  inside : ∀ p ∈ owners, p < heap.length
  referenced : ∀ p cell, heap[p]? = some cell →
    counting.Referenced cell (owners.count p)

variable {counting}

theorem Referenced.retain
    {cell : Cell}
    {references : Nat}
    (referenced : counting.Referenced cell references)
    (held : 0 < references) :
    counting.Referenced (counting.retain cell) (references + 1) where
  count := by
    rw [counting.count_retain, referenced.count]
    push_cast
    rfl
  disposed := by
    rw [counting.disposed_retain, counting.weight_retain, referenced.disposed,
      if_neg held.ne', if_neg (Nat.succ_ne_zero references)]
  intact := fun _ => counting.intact_retain cell (referenced.intact held)

theorem Referenced.release
    {cell : Cell}
    {references : Nat}
    (referenced : counting.Referenced cell (references + 1)) :
    counting.Referenced (counting.release cell) references where
  count := by
    rw [counting.count_release, referenced.count]
    push_cast
    ring
  disposed := by
    have intact := referenced.intact (Nat.succ_pos references)
    rw [counting.disposed_release cell intact, counting.weight_release,
      referenced.disposed, referenced.count, if_neg (Nat.succ_ne_zero references),
      Nat.zero_add]
    congr 1
    apply propext
    omega
  intact := by
    intro held
    refine counting.intact_release cell (referenced.intact (Nat.succ_pos _)) ?_
    rw [referenced.count]
    omega

namespace Owned

theorem empty : counting.Owned [] [] where
  inside := by simp
  referenced := by simp

/-- The order of the owners does not matter. -/
theorem perm
    {heap : List Cell}
    {owners others : List Nat}
    (owned : counting.Owned heap owners)
    (same : owners.Perm others) :
    counting.Owned heap others where
  inside := fun p member => owned.inside p (same.mem_iff.mpr member)
  referenced := by
    intro p cell stored
    rw [← same.count_eq]
    exact owned.referenced p cell stored

/-- A new cell with one reference. -/
theorem allocate
    {heap : List Cell}
    {owners : List Nat}
    (owned : counting.Owned heap owners)
    {cell : Cell}
    (fresh : counting.Referenced cell 1) :
    counting.Owned (heap ++ [cell]) (heap.length :: owners) where
  inside := by
    intro p member
    rw [List.length_append, List.length_singleton]
    rcases List.mem_cons.mp member with rfl | old
    · omega
    · have bound := owned.inside p old
      omega
  referenced := by
    intro p found stored
    by_cases new : p = heap.length
    · subst new
      have unowned : owners.count heap.length = 0 := by
        rw [List.count_eq_zero]
        intro member
        exact Nat.lt_irrefl _ (owned.inside _ member)
      rw [List.getElem?_concat_length, Option.some.injEq] at stored
      rw [List.count_cons_self, unowned, ← stored]
      exact fresh
    · have bound : p < heap.length := by
        have inside := (List.getElem?_eq_some_iff.mp stored).1
        rw [List.length_append, List.length_singleton] at inside
        omega
      rw [List.getElem?_append_left bound] at stored
      rw [List.count_cons_of_ne (Ne.symm new)]
      exact owned.referenced p found stored

/-- A cell that is updated with its own number of references. -/
theorem modify
    {heap : List Cell}
    {owners others : List Nat}
    (owned : counting.Owned heap owners)
    {p : Nat}
    {update : Cell → Cell}
    (inside : ∀ q ∈ others, q < heap.length)
    (own : ∀ cell, counting.Referenced cell (owners.count p) →
      counting.Referenced (update cell) (others.count p))
    (rest : ∀ q, p ≠ q → others.count q = owners.count q) :
    counting.Owned (heap.modify p update) others where
  inside := by
    intro q member
    rw [List.length_modify]
    exact inside q member
  referenced := by
    intro q found stored
    rw [List.getElem?_modify] at stored
    obtain ⟨cell, original, changed⟩ := Option.map_eq_some_iff.mp stored
    have referenced := owned.referenced q cell original
    by_cases same : p = q
    · subst same
      rw [if_pos rfl] at changed
      exact changed ▸ own cell referenced
    · rw [if_neg same] at changed
      rw [rest q same, ← changed]
      exact referenced

/-- A reference made from another one. -/
theorem retain
    {heap : List Cell}
    {owners : List Nat}
    (owned : counting.Owned heap owners)
    {p : Nat}
    (held : p ∈ owners) :
    counting.Owned (heap.modify p counting.retain) (p :: owners) := by
  apply owned.modify
  · intro q member
    rcases List.mem_cons.mp member with rfl | old
    · exact owned.inside q held
    · exact owned.inside q old
  · intro cell referenced
    rw [List.count_cons_self]
    exact referenced.retain (List.count_pos_iff.mpr held)
  · intro q different
    exact List.count_cons_of_ne different

/-- A reference that is given up. -/
theorem release
    {heap : List Cell}
    {owners : List Nat}
    {p : Nat}
    (owned : counting.Owned heap (p :: owners)) :
    counting.Owned (heap.modify p counting.release) owners := by
  apply owned.modify
  · intro q member
    exact owned.inside q (List.mem_cons_of_mem p member)
  · intro cell referenced
    rw [List.count_cons_self] at referenced
    exact referenced.release
  · intro q different
    exact (List.count_cons_of_ne different).symm

/-- Several references that are given up. -/
theorem releaseAll
    {heap : List Cell}
    {given owners : List Nat}
    (owned : counting.Owned heap (given ++ owners)) :
    counting.Owned
      (given.foldl (fun heap p => heap.modify p counting.release) heap) owners := by
  induction given generalizing heap with
  | nil => exact owned
  | cons p given inductionHypothesis => exact inductionHypothesis owned.release

end Owned
end Counting
end RuseonCore
