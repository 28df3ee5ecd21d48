import RuseonCore.Foundation.Table

/-!
# Keyed tallies

A tally maps string keys to 64-bit amounts, absent keys counting zero.  `total`
adds up the amounts that a log of entries holds for one key, without overflow;
the total of a tally's own entries is the amount it maps the key to.
-/

namespace RuseonCore

/-- Amounts by key. -/
abbrev Tally := Std.ExtTreeMap String UInt64 compare

/-- Sum of the amounts logged for a key. -/
def total (log : List (String × UInt64)) (key : String) : Nat :=
  match log with
  | [] => 0
  | entry :: rest =>
      (if entry.1 = key then entry.2.toNat else 0) + total rest key

namespace Tally

/-- Amount of a key. -/
def amount (tally : Tally) (key : String) : UInt64 :=
  tally.getD key 0

/-- Add to the amount of a key. -/
def add (tally : Tally) (key : String) (more : UInt64) : Tally :=
  tally.insert key (tally.amount key + more)

theorem amount_insert
    (tally : Tally)
    (key other : String)
    (value : UInt64) :
    amount (tally.insert key value) other =
      if key = other then value else tally.amount other := by
  simp [amount, Std.ExtTreeMap.getD_insert]

theorem amount_add
    (tally : Tally)
    (key other : String)
    (more : UInt64) :
    (tally.add key more).amount other =
      if key = other then tally.amount key + more else tally.amount other := by
  rw [add, amount_insert]

@[simp] theorem amount_empty (key : String) : amount ∅ key = 0 := by
  simp [amount]

end Tally

@[simp] theorem total_nil (key : String) : total [] key = 0 := rfl

@[simp] theorem total_cons
    (entry : String × UInt64)
    (log : List (String × UInt64))
    (key : String) :
    total (entry :: log) key =
      (if entry.1 = key then entry.2.toNat else 0) + total log key := rfl

theorem total_eq_sum (log : List (String × UInt64)) (key : String) :
    total log key = (log.map fun entry => if entry.1 = key then entry.2.toNat else 0).sum := by
  induction log with
  | nil => rfl
  | cons entry rest inductionHypothesis =>
      rw [total_cons, inductionHypothesis, List.map_cons, List.sum_cons]

theorem total_append
    (first second : List (String × UInt64))
    (key : String) :
    total (first ++ second) key = total first key + total second key := by
  simp only [total_eq_sum, List.map_append, List.sum_append]

theorem total_perm
    {first second : List (String × UInt64)}
    (permuted : first.Perm second)
    (key : String) :
    total first key = total second key := by
  rw [total_eq_sum, total_eq_sum, (permuted.map _).sum_eq]

/-- A key without entries has total zero. -/
theorem total_eq_zero
    {log : List (String × UInt64)}
    {key : String}
    (absent : ∀ entry ∈ log, entry.1 ≠ key) :
    total log key = 0 := by
  rw [total_eq_sum]
  exact List.sum_eq_zero (List.forall_mem_map.mpr fun entry member => if_neg (absent entry member))

/-- In a log with one entry for each key, the total is that entry's amount. -/
theorem total_of_mem
    {log : List (String × UInt64)}
    (distinct : log.Pairwise fun first second => first.1 ≠ second.1)
    {entry : String × UInt64}
    (member : entry ∈ log) :
    total log entry.1 = entry.2.toNat := by
  induction log with
  | nil => simp at member
  | cons first rest inductionHypothesis =>
      rw [List.pairwise_cons] at distinct
      rw [total_cons]
      rcases List.mem_cons.mp member with same | later
      · subst same
        have absent : total rest entry.1 = 0 :=
          total_eq_zero fun other inRest => (distinct.1 other inRest).symm
        simp [absent]
      · rw [if_neg (distinct.1 entry later), Nat.zero_add,
          inductionHypothesis distinct.2 later]

/-- The total of a tally's entries is the amount of the key. -/
theorem total_toList (tally : Tally) (key : String) :
    total tally.toList key = (tally.amount key).toNat := by
  have distinct := Store.toList_keys_ne tally
  cases found : tally[key]? with
  | none =>
      have absent : total tally.toList key = 0 := by
        refine total_eq_zero fun entry member same => ?_
        obtain ⟨other, value⟩ := entry
        rw [Std.ExtTreeMap.mem_toList_iff_getElem?_eq_some] at member
        simp only at same
        simp [same, found] at member
      rw [absent, Tally.amount, Std.ExtTreeMap.getD_eq_getD_getElem?, found]
      rfl
  | some value =>
      have member : (key, value) ∈ tally.toList :=
        Std.ExtTreeMap.mem_toList_iff_getElem?_eq_some.mpr found
      rw [total_of_mem distinct member, Tally.amount,
        Std.ExtTreeMap.getD_eq_getD_getElem?, found, Option.getD_some]

end RuseonCore
