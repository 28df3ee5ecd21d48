import Mathlib.Tactic
import Mathlib.Algebra.BigOperators.Group.Finset.Basic

/-!
# Populations that age

The ages of a population that grows by a bounded number of newcomers at a time while
its members grow older by one, until they exceed a limit or leave earlier.  Each age
is that of newcomers of one moment, which bounds the population.
-/

namespace RuseonCore
namespace Cohorts

/-- No age exceeds the limit, and no age occurs more often than newcomers may come. -/
structure Bounded (size limit : Nat) (ages : List Nat) : Prop where
  le : ∀ age ∈ ages, age ≤ limit
  count : ∀ age, ages.count age ≤ size

variable {size limit : Nat} {ages : List Nat}

theorem bounded_nil : Bounded size limit [] where
  le := by simp
  count := by simp

/-- Newcomers join, and some of the others are a step older. -/
theorem Bounded.step
    (bounded : Bounded size limit ages)
    {newcomers : Nat}
    (few : newcomers ≤ size)
    {survivors : List Nat}
    (aged : survivors.Sublist (ages.map Nat.succ))
    (young : ∀ age ∈ survivors, age ≤ limit) :
    Bounded size limit (List.replicate newcomers 0 ++ survivors) where
  le := by
    intro age member
    rcases List.mem_append.mp member with newcomer | survivor
    · rw [List.eq_of_mem_replicate newcomer]
      exact Nat.zero_le limit
    · exact young age survivor
  count := by
    intro age
    rw [List.count_append]
    have older := aged.count_le age
    cases age with
    | zero =>
        have none : (ages.map Nat.succ).count 0 = 0 := by
          simp [List.count_eq_zero]
        rw [List.count_replicate_self]
        omega
    | succ age =>
        rw [List.count_map_of_injective ages Nat.succ Nat.succ_injective] at older
        have before := bounded.count age
        rw [List.count_replicate, if_neg (by simp)]
        omega

theorem Bounded.length_le (bounded : Bounded size limit ages) :
    ages.length ≤ size * (limit + 1) := by
  have within : ∀ age ∈ (ages : Multiset Nat), age ∈ Finset.range (limit + 1) := by
    intro age member
    rw [Finset.mem_range]
    exact Nat.lt_succ_of_le (bounded.le age member)
  have total := Multiset.sum_count_eq_card within
  simp only [Multiset.coe_count, Multiset.coe_card] at total
  calc
    ages.length = ∑ age ∈ Finset.range (limit + 1), ages.count age := total.symm
    _ ≤ ∑ _age ∈ Finset.range (limit + 1), size :=
      Finset.sum_le_sum fun age _ => bounded.count age
    _ = size * (limit + 1) := by
      rw [Finset.sum_const, Finset.card_range, smul_eq_mul, Nat.mul_comm]

end Cohorts
end RuseonCore
