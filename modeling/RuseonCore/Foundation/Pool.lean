import Mathlib.Tactic

/-!
# Pools with a limit

Tasks are submitted one after the other, at most `limit` of them run at a time,
and the others wait in the order of their submission.  A pool that starts tasks
as soon as it may has always started the same ones: after `finished` tasks have
ended, the first `finished + limit` of those submitted.
-/

namespace RuseonCore
namespace Pool

variable {Task : Type*} {limit running finished : Nat} {submitted started waiting : List Task}

/-- The tasks that have started are the first ones, as many as the limit lets. -/
structure Serves
    (limit running finished : Nat)
    (submitted started waiting : List Task) : Prop where
  firsts : started = submitted.take (finished + limit)
  others : waiting = submitted.drop (finished + limit)
  count : running + finished = started.length

theorem serves_empty (limit : Nat) : Serves limit 0 0 ([] : List Task) [] [] :=
  ⟨by simp, by simp, rfl⟩

namespace Serves

section

variable (serves : Serves limit running finished submitted started waiting)

include serves

theorem count_eq : running + finished = min (finished + limit) submitted.length := by
  rw [serves.count, serves.firsts, List.length_take]

theorem running_le : running ≤ limit := by
  have := serves.count_eq
  omega

/-- Nothing waits while there is room. -/
theorem waiting_eq_nil (room : running < limit) : waiting = [] := by
  have := serves.count_eq
  rw [serves.others, List.drop_eq_nil_iff]
  omega

/-- A task is submitted and starts at once. -/
theorem submit_room (room : running < limit) (task : Task) :
    Serves limit (running + 1) finished (submitted ++ [task]) (started ++ [task]) waiting := by
  have all := serves.count_eq
  have short : submitted.length < finished + limit := by omega
  refine ⟨?_, ?_, ?_⟩
  · rw [serves.firsts, List.take_of_length_le short.le, List.take_of_length_le]
    simpa using short
  · rw [serves.waiting_eq_nil room, eq_comm, List.drop_eq_nil_iff]
    simpa using short
  · rw [List.length_append, ← serves.count]
    simp only [List.length_singleton]
    omega

/-- A task is submitted and waits. -/
theorem submit_full (full : ¬ running < limit) (task : Task) :
    Serves limit running finished (submitted ++ [task]) started (waiting ++ [task]) := by
  have all := serves.count_eq
  have long : finished + limit ≤ submitted.length := by omega
  refine ⟨?_, ?_, serves.count⟩
  · rw [serves.firsts, List.take_append_of_le_length long]
  · rw [serves.others, List.drop_append_of_le_length long]

end

/-- A task ends and none waits. -/
theorem finish_idle
    (serves : Serves limit running finished submitted started [])
    (busy : 0 < running) :
    Serves limit (running - 1) (finished + 1) submitted started [] := by
  have short := List.drop_eq_nil_iff.mp serves.others.symm
  refine ⟨?_, ?_, ?_⟩
  · rw [serves.firsts, List.take_of_length_le short, List.take_of_length_le (by omega)]
  · rw [eq_comm, List.drop_eq_nil_iff]
    omega
  · have := serves.count
    omega

/-- A task ends and the first one that waits starts. -/
theorem finish_next
    {next : Task}
    (serves : Serves limit running finished submitted started (next :: waiting)) :
    Serves limit running (finished + 1) submitted (started ++ [next]) waiting := by
  have split := serves.others
  have whole := List.take_append_drop (finished + limit) submitted
  rw [← serves.others, ← serves.firsts] at whole
  have length : started.length = finished + limit := by
    have long : finished + limit < submitted.length := by
      by_contra short
      rw [List.drop_eq_nil_iff.mpr (not_lt.mp short)] at split
      cases split
    rw [serves.firsts, List.length_take]
    omega
  have size : (started ++ [next]).length = finished + 1 + limit := by
    rw [List.length_append, length, List.length_singleton]
    omega
  have regrouped : submitted = (started ++ [next]) ++ waiting := by
    rw [← whole, List.append_assoc, List.singleton_append]
  refine ⟨?_, ?_, ?_⟩
  · rw [regrouped, List.take_left' size]
  · rw [regrouped, List.drop_left' size]
  · rw [List.length_append, ← serves.count, List.length_singleton]
    omega

end Serves
end Pool
end RuseonCore
