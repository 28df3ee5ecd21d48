import Mathlib.Tactic

/-!
# Greedy selection

Candidates are taken in order; each one that is taken rules out the later ones that
clash with it, and at most a given number is taken.  What is selected is free of
clashes, and every candidate that is left out clashes with an earlier one that was
taken, or came too late.
-/

namespace RuseonCore
namespace Greedy

variable {Item : Type*} (compatible : Item → Item → Bool)

/-- Take the first candidate, drop those that clash with it, and go on. -/
def select : Nat → List Item → List Item
  | 0, _ => []
  | _ + 1, [] => []
  | limit + 1, best :: others => best :: select limit (others.filter (compatible best))

variable {compatible}

@[simp] theorem select_nil (limit : Nat) : select compatible limit [] = [] := by
  cases limit <;> rfl

theorem length_select_le (limit : Nat) (items : List Item) :
    (select compatible limit items).length ≤ limit := by
  induction limit generalizing items with
  | zero => simp [select]
  | succ limit inductionHypothesis =>
      cases items with
      | nil => simp
      | cons best others =>
          rw [select, List.length_cons]
          exact Nat.succ_le_succ (inductionHypothesis _)

theorem select_sublist (limit : Nat) (items : List Item) :
    (select compatible limit items).Sublist items := by
  induction limit generalizing items with
  | zero => exact List.nil_sublist items
  | succ limit inductionHypothesis =>
      cases items with
      | nil => simp
      | cons best others =>
          rw [select]
          exact ((inductionHypothesis _).trans List.filter_sublist).cons_cons best

/-- Nothing that is selected clashes with anything selected before it. -/
theorem pairwise_select (limit : Nat) (items : List Item) :
    (select compatible limit items).Pairwise fun earlier later => compatible earlier later := by
  induction limit generalizing items with
  | zero => exact List.Pairwise.nil
  | succ limit inductionHypothesis =>
      cases items with
      | nil => simp
      | cons best others =>
          rw [select, List.pairwise_cons]
          refine ⟨?_, inductionHypothesis _⟩
          intro later member
          exact (List.mem_filter.mp ((select_sublist limit _).subset member)).2

/-- Candidates in order of preference: those that are left out clash with a preferred
one that was taken, or the limit was reached with preferred ones. -/
theorem exists_rejected
    {prefers : Item → Item → Prop}
    (limit : Nat)
    {items : List Item}
    (ordered : items.Pairwise prefers) :
    ∃ rejected, items.Perm (select compatible limit items ++ rejected) ∧
      ∀ item ∈ rejected,
        (∃ taken ∈ select compatible limit items,
          prefers taken item ∧ compatible taken item = false) ∨
        ((select compatible limit items).length = limit ∧
          ∀ taken ∈ select compatible limit items, prefers taken item) := by
  induction limit generalizing items with
  | zero => exact ⟨items, List.Perm.refl _, fun item _ => .inr ⟨rfl, by simp [select]⟩⟩
  | succ limit inductionHypothesis =>
      cases items with
      | nil => exact ⟨[], by simp, by simp⟩
      | cons best others =>
          obtain ⟨preferred, orderedOthers⟩ := List.pairwise_cons.mp ordered
          obtain ⟨rejected, split, reasons⟩ :=
            inductionHypothesis (orderedOthers.filter (compatible best))
          let clashing := others.filter fun item => !compatible best item
          have parts : others.Perm
              (select compatible limit (others.filter (compatible best)) ++
                (rejected ++ clashing)) := by
            rw [← List.append_assoc]
            exact (List.filter_append_perm _ others).symm.trans (split.append_right clashing)
          refine ⟨rejected ++ clashing, parts.cons best, ?_⟩
          intro item member
          rw [select]
          rcases List.mem_append.mp member with later | clash
          · have remains : item ∈ others := by
              rw [parts.mem_iff]
              simp [later]
            rcases reasons item later with ⟨taken, isTaken, reason⟩ | ⟨full, all⟩
            · exact .inl ⟨taken, List.mem_cons_of_mem best isTaken, reason⟩
            · refine .inr ⟨by rw [List.length_cons, full], ?_⟩
              rw [List.forall_mem_cons]
              exact ⟨preferred item remains, all⟩
          · obtain ⟨remains, clashes⟩ := List.mem_filter.mp clash
            refine .inl ⟨best, List.mem_cons_self, preferred item remains, ?_⟩
            simpa using clashes

end Greedy
end RuseonCore
