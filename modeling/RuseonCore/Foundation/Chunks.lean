import Mathlib.Tactic

/-!
# Concatenated chunks

Sequences that are written one after the other, each at its offset.  If the
sequences tell their own ends, a part of one is never mistaken for others.
-/

namespace RuseonCore
namespace Chunks

variable {Item Symbol : Type*}

/-- Position of a chunk: the length of those before it. -/
def offset (encode : Item → List Symbol) (items : List Item) (i : Nat) : Nat :=
  ((items.take i).flatMap encode).length

/-- No chunk is an initial part of another one. -/
def SelfDelimiting (encode : Item → List Symbol) : Prop :=
  ∀ item other rest behind,
    encode item ++ rest = encode other ++ behind → encode item = encode other

section

variable {encode : Item → List Symbol}

theorem offset_succ
    {items : List Item}
    {i : Nat}
    {item : Item}
    (found : items[i]? = some item) :
    offset encode items (i + 1) = offset encode items i + (encode item).length := by
  simp [offset, List.take_add_one, found]

/-- What stands before and behind a chunk. -/
theorem flatMap_eq_around
    {items : List Item}
    {i : Nat}
    {item : Item}
    (found : items[i]? = some item) :
    items.flatMap encode =
      (items.take i).flatMap encode ++
        (encode item ++ (items.drop (i + 1)).flatMap encode) := by
  obtain ⟨inside, rfl⟩ := List.getElem?_eq_some_iff.mp found
  rw [← List.flatMap_cons, ← List.drop_eq_getElem_cons inside, ← List.flatMap_append,
    List.take_append_drop]

/-- Complete chunks with a part of a chunk behind them are not a sequence of
complete chunks, unless the part is empty. -/
theorem SelfDelimiting.torn_eq_nil
    (delimited : SelfDelimiting encode)
    {next : Item}
    {torn rest : List Symbol}
    (split : torn ++ rest = encode next)
    (proper : rest ≠ [])
    {items others : List Item}
    (same : items.flatMap encode ++ torn = others.flatMap encode) :
    torn = [] := by
  induction items generalizing others with
  | nil =>
      cases others with
      | nil => exact same
      | cons other others =>
          have whole : torn = encode other ++ others.flatMap encode := same
          have longer : encode next ++ [] =
              encode other ++ (others.flatMap encode ++ rest) := by
            rw [← split, whole, List.append_nil, List.append_assoc]
          have lengths := congrArg List.length longer
          rw [delimited next other _ _ longer] at lengths
          simp only [List.length_append, List.length_nil] at lengths
          exact absurd (List.length_eq_zero_iff.mp (by omega)) proper
  | cons item items inductionHypothesis =>
      rw [List.flatMap_cons, List.append_assoc] at same
      cases others with
      | nil =>
          rw [List.flatMap_nil, List.append_eq_nil_iff, List.append_eq_nil_iff] at same
          exact same.2.2
      | cons other others =>
          rw [List.flatMap_cons, delimited item other _ _ same] at same
          exact inductionHypothesis (List.append_cancel_left same)

end

end Chunks
end RuseonCore
