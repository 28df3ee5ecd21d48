import Mathlib.Tactic

/-!
# Pending keyed updates

A list of updates, oldest first, each of which overwrites the value of its key.
`settle` is the value a key ends up with once all of them are applied.  Applying
an update early does not change that value when it is the oldest pending one of
its key.
-/

namespace RuseonCore
namespace Replay

variable [DecidableEq Key]
variable (keyOf : Update → Key) (effect : Update → Value)

/-- Value of a key after all pending updates. -/
def settle (key : Key) : Value → List Update → Value
  | current, [] => current
  | current, update :: updates =>
      settle key (if keyOf update = key then effect update else current) updates

@[simp] theorem settle_nil (key : Key) (current : Value) :
    settle keyOf effect key current [] = current := rfl

/-- The newest update decides its own key. -/
theorem settle_concat
    (key : Key)
    (current : Value)
    (updates : List Update)
    (update : Update) :
    settle keyOf effect key current (updates ++ [update]) =
      if keyOf update = key then effect update
      else settle keyOf effect key current updates := by
  induction updates generalizing current with
  | nil => rfl
  | cons first rest inductionHypothesis =>
      rw [List.cons_append, settle, settle, inductionHypothesis]

/-- An update does not matter to other keys. -/
theorem settle_eraseIdx_of_ne
    {key : Key}
    (current : Value)
    {updates : List Update}
    {position : Nat}
    {update : Update}
    (present : updates[position]? = some update)
    (different : keyOf update ≠ key) :
    settle keyOf effect key current (updates.eraseIdx position) =
      settle keyOf effect key current updates := by
  induction updates generalizing current position with
  | nil => simp at present
  | cons first rest inductionHypothesis =>
      cases position with
      | zero =>
          simp only [List.getElem?_cons_zero, Option.some.injEq] at present
          rw [List.eraseIdx_zero, List.tail_cons, settle, present,
            if_neg different]
      | succ position =>
          rw [List.eraseIdx_cons_succ, settle, settle]
          apply inductionHypothesis
          simpa using present

/-- Applying the oldest pending update of a key early does not change what the
key ends up with. -/
theorem settle_eraseIdx_oldest
    {key : Key}
    (current : Value)
    {updates : List Update}
    {position : Nat}
    {update : Update}
    (present : updates[position]? = some update)
    (same : keyOf update = key)
    (oldest : ∀ earlier ∈ updates.take position, keyOf earlier ≠ key) :
    settle keyOf effect key (effect update) (updates.eraseIdx position) =
      settle keyOf effect key current updates := by
  induction updates generalizing current position with
  | nil => simp at present
  | cons first rest inductionHypothesis =>
      cases position with
      | zero =>
          simp only [List.getElem?_cons_zero, Option.some.injEq] at present
          rw [List.eraseIdx_zero, List.tail_cons, settle, present, if_pos same]
      | succ position =>
          rw [List.take_succ_cons, List.forall_mem_cons] at oldest
          rw [List.eraseIdx_cons_succ, settle, settle, if_neg oldest.1,
            if_neg oldest.1]
          exact inductionHypothesis current (by simpa using present) oldest.2

end Replay
end RuseonCore
