import RuseonCore.Foundation.Slots

/-!
# Counting over slots

Independent participants are kept in a list and change one at a time.  What they
contribute to a shared counter is a sum over the list, and a step changes the
sum by what it changes in its own slot.
-/

namespace RuseonCore
namespace Census

variable {Item : Type*}

/-- What all slots contribute together. -/
def total (weight : Item → Int) (items : List Item) : Int :=
  (items.map weight).sum

@[simp] theorem total_nil (weight : Item → Int) : total weight [] = 0 := rfl

@[simp] theorem total_cons (weight : Item → Int) (item : Item) (items : List Item) :
    total weight (item :: items) = weight item + total weight items := rfl

theorem total_append (weight : Item → Int) (items more : List Item) :
    total weight (items ++ more) = total weight items + total weight more := by
  simp [total]

/-- A step of one slot changes the sum by the change of its contribution. -/
theorem total_set
    (weight : Item → Int)
    {items : List Item}
    {i : Nat}
    {old : Item}
    (found : items[i]? = some old)
    (new : Item) :
    total weight (items.set i new) = total weight items + (weight new - weight old) := by
  obtain ⟨bound, rfl⟩ := List.getElem?_eq_some_iff.mp found
  rw [total, List.map_set, List.sum_set', dif_pos (by simpa using bound), List.getElem_map,
    neg_add_eq_sub, total]

/-- Contributions that are not negative have a sum that is at least each of
them. -/
theorem le_total
    {weight : Item → Int}
    {items : List Item}
    (nonneg : ∀ item ∈ items, 0 ≤ weight item)
    {item : Item}
    (member : item ∈ items) :
    weight item ≤ total weight items :=
  List.single_le_sum (List.forall_mem_map.mpr nonneg) _ (List.mem_map_of_mem member)

/-- Slots that contribute nothing. -/
theorem total_eq_zero
    {weight : Item → Int}
    {items : List Item}
    (none : ∀ item ∈ items, weight item = 0) :
    total weight items = 0 :=
  List.sum_eq_zero (List.forall_mem_map.mpr none)

/-- Slots that contribute one or nothing. -/
theorem total_eq_countP
    {weight : Item → Int}
    {counted : Item → Bool}
    {items : List Item}
    (one : ∀ item ∈ items, weight item = if counted item then 1 else 0) :
    total weight items = items.countP counted := by
  induction items with
  | nil => rfl
  | cons first items inductionHypothesis =>
      rw [total_cons, one first List.mem_cons_self, List.countP_cons,
        inductionHypothesis fun item member => one item (List.mem_cons_of_mem first member)]
      split <;> push_cast <;> omega

/-- The number of slots that contribute at least one. -/
theorem countP_le_total
    {weight : Item → Int}
    {counted : Item → Bool}
    {items : List Item}
    (nonneg : ∀ item ∈ items, 0 ≤ weight item)
    (positive : ∀ item ∈ items, counted item = true → 1 ≤ weight item) :
    (items.countP counted : Int) ≤ total weight items := by
  rw [← total_eq_countP fun _ _ => rfl]
  refine List.sum_le_sum fun item member => ?_
  split
  · rename_i isCounted
    exact positive item member isCounted
  · exact nonneg item member

end Census
end RuseonCore
