import Mathlib.Tactic

/-!
# Lists split by a route

Items are routed to one of several places by a function of the item.  What is
known of the items of every place, in their order, holds for every selection of
items that share a place, and what is known with multiplicity holds for the
whole list up to order.
-/

namespace RuseonCore
namespace Routing

variable {Item Place : Type*} [DecidableEq Place]

/-- The items for a place, in order. -/
def share (route : Item → Place) (place : Place) (items : List Item) : List Item :=
  items.filter fun item => route item = place

section Share

variable {route : Item → Place} {place : Place}

@[simp] theorem share_nil : share route place [] = [] := rfl

theorem share_append (earlier later : List Item) :
    share route place (earlier ++ later) =
      share route place earlier ++ share route place later :=
  List.filter_append earlier later

theorem share_singleton_self {item : Item} (here : route item = place) :
    share route place [item] = [item] := by
  simp [share, here]

theorem share_singleton_of_ne {item : Item} (elsewhere : route item ≠ place) :
    share route place [item] = [] := by
  simp [share, elsewhere]

theorem mem_share {item : Item} {items : List Item} :
    item ∈ share route place items ↔ item ∈ items ∧ route item = place := by
  simp [share]

end Share

/-- Items that a selection picks from one place are those it picks from the
place's share. -/
theorem filter_share
    {route : Item → Place}
    {place : Place}
    {selected : Item → Bool}
    (together : ∀ item, selected item = true → route item = place)
    (items : List Item) :
    (share route place items).filter selected = items.filter selected := by
  rw [share, List.filter_filter]
  refine List.filter_congr fun item _ => ?_
  cases chosen : selected item with
  | false => rfl
  | true => simp [together item chosen]

section Order

variable {route : Item → Place} {items others : List Item}

/-- Order within a place is order within every selection from it. -/
theorem filter_prefix_of_share
    {place : Place}
    {selected : Item → Bool}
    (together : ∀ item, selected item = true → route item = place)
    (ordered : share route place items <+: share route place others) :
    items.filter selected <+: others.filter selected := by
  rw [← filter_share together items, ← filter_share together others]
  exact ordered.filter selected

theorem filter_sublist_of_share
    {place : Place}
    {selected : Item → Bool}
    (together : ∀ item, selected item = true → route item = place)
    (ordered : (share route place items).Sublist (share route place others)) :
    (items.filter selected).Sublist (others.filter selected) := by
  rw [← filter_share together items, ← filter_share together others]
  exact ordered.filter selected

theorem count_share
    [DecidableEq Item]
    (route : Item → Place)
    (item : Item)
    (items : List Item) :
    (share route (route item) items).count item = items.count item :=
  List.count_filter (by simp)

/-- Lists whose shares are contained in each other are so as multisets. -/
theorem subperm_of_share
    (contained : ∀ place, (share route place items).Sublist (share route place others)) :
    items.Subperm others := by
  classical
  rw [List.subperm_iff_count]
  intro item
  rw [← count_share route item items, ← count_share route item others]
  exact (contained (route item)).count_le item

/-- A part of a list without repetitions, in any order, has none. -/
theorem nodup_of_subperm
    (contained : items.Subperm others)
    (distinct : others.Nodup) :
    items.Nodup := by
  obtain ⟨part, reordered, sublist⟩ := contained
  exact reordered.nodup_iff.mp (distinct.sublist sublist)

/-- Lists with the same share of every place differ only in their order. -/
theorem perm_of_share
    (same : ∀ place, share route place items = share route place others) :
    items.Perm others := by
  classical
  rw [List.perm_iff_count]
  intro item
  rw [← count_share route item items, ← count_share route item others, same]

end Order

end Routing
end RuseonCore
