import Mathlib.Order.Bounds.Basic
import Mathlib.Tactic

/-!
# Lists of intervals

Items with a start and an end in a linear order cover the points between them.  In a
list in order of the starts, the first item that starts behind a point that is not
covered starts at the next point that is; an item ends at the last point that is
covered exactly if no other item ends later.
-/

namespace RuseonCore
namespace Intervals

variable {Item α : Type*} [LinearOrder α] (start stop : Item → α)

/-- Points covered by the items. -/
def covered (items : List Item) : Set α :=
  {point | ∃ item ∈ items, start item ≤ point ∧ point ≤ stop item}

variable {start stop}
variable {items : List Item} {point : α}

/-- An item that covers a point behind one that is not covered starts behind it. -/
theorem lt_start_of_not_covered
    (missed : point ∉ covered start stop items)
    {item : Item}
    (member : item ∈ items)
    {later : α}
    (behind : point < later)
    (before : later ≤ stop item) :
    point < start item := by
  by_contra notAfter
  exact missed ⟨item, member, not_lt.mp notAfter, behind.le.trans before⟩

section

variable (proper : ∀ item ∈ items, start item ≤ stop item)

include proper

/-- The first item behind a gap starts at the next point that is covered. -/
theorem isLeast_start
    (sorted : items.Pairwise fun first second => start first ≤ start second)
    (missed : point ∉ covered start stop items)
    {next : Item}
    (found : items.find? (fun item => point < start item) = some next) :
    IsLeast {later | later ∈ covered start stop items ∧ point < later} (start next) := by
  have member := List.mem_of_find?_eq_some found
  obtain ⟨after, earlier, others, split, notAfter⟩ := List.find?_eq_some_iff_append.mp found
  refine ⟨⟨⟨next, member, le_rfl, proper next member⟩, of_decide_eq_true after⟩, ?_⟩
  rintro later ⟨⟨item, isItem, begins, ends⟩, behind⟩
  have starts := lt_start_of_not_covered missed isItem behind ends
  refine le_trans ?_ begins
  rw [split] at isItem sorted
  rcases List.mem_append.mp isItem with isEarlier | isOther
  · have contradiction := notAfter item isEarlier
    simp [starts] at contradiction
  · rcases List.mem_cons.mp isOther with rfl | isLater
    · exact le_rfl
    · exact (List.pairwise_cons.mp (List.pairwise_append.mp sorted).2.1).1 item isLater

/-- Without an item behind a gap, no later point is covered. -/
theorem exists_covered_iff_find
    (missed : point ∉ covered start stop items) :
    (∃ later ∈ covered start stop items, point < later) ↔
      (items.find? fun item => point < start item).isSome := by
  rw [List.find?_isSome]
  constructor
  · rintro ⟨later, ⟨item, member, begins, ends⟩, behind⟩
    refine ⟨item, member, ?_⟩
    simpa using lt_start_of_not_covered missed member behind ends
  · rintro ⟨item, member, starts⟩
    exact ⟨start item, ⟨item, member, le_rfl, proper item member⟩, of_decide_eq_true starts⟩

theorem isGreatest_stop_iff
    {last : Item}
    (member : last ∈ items) :
    IsGreatest (covered start stop items) (stop last) ↔
      ∀ item ∈ items, stop item ≤ stop last := by
  constructor
  · intro greatest item isItem
    exact greatest.2 ⟨item, isItem, proper item isItem, le_rfl⟩
  · intro latest
    refine ⟨⟨last, member, proper last member, le_rfl⟩, ?_⟩
    rintro other ⟨item, isItem, begins, ends⟩
    exact ends.trans (latest item isItem)

end

end Intervals
end RuseonCore
