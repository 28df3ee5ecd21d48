import Mathlib.Tactic

/-!
# Cutting a sequence into groups

A cutter receives items one by one.  It skips what comes before the first marked
item, and then collects the items in groups, each of which begins with a marked
item.  Whatever marked items it cuts at, no item is lost or repeated.
-/

namespace RuseonCore

/-- Complete groups, and the group that is being collected. -/
structure Cutting (Item : Type) where
  done : List (List Item)
  current : Option (List Item)

namespace Cutting

variable {Item : Type} {mark : Item → Bool}

/-- Nothing has been collected. -/
def empty : Cutting Item where
  done := []
  current := none

/-- All groups. -/
def groups (cutting : Cutting Item) : List (List Item) :=
  cutting.done ++ cutting.current.toList

/-- What a cutter may do with an item. -/
inductive Takes (mark : Item → Bool) : Cutting Item → Item → Cutting Item → Prop
  | skip (item : Item) (unmarked : mark item = false) (done : List (List Item)) :
      Takes mark ⟨done, none⟩ item ⟨done, none⟩
  | start (item : Item) (marked : mark item = true) (done : List (List Item)) :
      Takes mark ⟨done, none⟩ item ⟨done, some [item]⟩
  | extend (item : Item) (done : List (List Item)) (group : List Item) :
      Takes mark ⟨done, some group⟩ item ⟨done, some (group ++ [item])⟩
  | cut (item : Item) (marked : mark item = true) (done : List (List Item))
      (group : List Item) :
      Takes mark ⟨done, some group⟩ item ⟨done ++ [group], some [item]⟩

/-- The groups hold the input from its first marked item on, and each of them
begins with a marked item. -/
structure Follows
    (mark : Item → Bool)
    (input : List Item)
    (cutting : Cutting Item) : Prop where
  items : cutting.groups.flatten = input.dropWhile fun item => !mark item
  headed : ∀ group ∈ cutting.groups, ∃ item rest, group = item :: rest ∧ mark item = true
  begun : cutting.current = none → cutting.done = []

theorem follows_empty : Follows mark [] (empty : Cutting Item) where
  items := rfl
  headed := by simp [groups, empty]
  begun := fun _ => rfl

/-- Items after the first marked one are all kept. -/
theorem dropWhile_concat
    {input : List Item}
    {item : Item}
    (kept : input.dropWhile (fun item => !mark item) ≠ [] ∨ mark item = true) :
    (input ++ [item]).dropWhile (fun item => !mark item) =
      input.dropWhile (fun item => !mark item) ++ [item] := by
  rw [List.dropWhile_append]
  split
  · rename_i empty
    rw [List.isEmpty_iff] at empty
    rcases kept with nonempty | marked
    · exact absurd empty nonempty
    · simp [empty, marked]
  · rfl

/-- Taking an item follows the input. -/
theorem Follows.takes
    {input : List Item}
    {cutting next : Cutting Item}
    {item : Item}
    (follows : Follows mark input cutting)
    (takes : Takes mark cutting item next) :
    Follows mark (input ++ [item]) next := by
  obtain ⟨items, headed, begun⟩ := follows
  cases takes with
  | skip _ unmarked done =>
      have none : done = [] := begun rfl
      subst none
      refine ⟨?_, headed, begun⟩
      rw [List.dropWhile_append, ← items]
      simp [groups, unmarked]
  | start _ marked done =>
      have none : done = [] := begun rfl
      subst none
      refine ⟨?_, ?_, by simp⟩
      · rw [dropWhile_concat (.inr marked), ← items]
        rfl
      · intro group member
        rw [show group = [item] by simpa [groups] using member]
        exact ⟨item, [], rfl, marked⟩
  | extend _ done group =>
      obtain ⟨first, rest, begins, marked⟩ := headed group (by simp [groups])
      refine ⟨?_, ?_, by simp⟩
      · rw [dropWhile_concat (.inl ?_), ← items]
        · simp [groups]
        · rw [← items]
          simp [groups, begins]
      · intro other member
        rcases List.mem_append.mp member with old | new
        · exact headed other (List.mem_append_left _ old)
        · rw [show other = group ++ [item] by simpa using new, begins]
          exact ⟨first, rest ++ [item], rfl, marked⟩
  | cut _ marked done group =>
      refine ⟨?_, ?_, by simp⟩
      · rw [dropWhile_concat (.inr marked), ← items]
        simp [groups]
      · intro other member
        rcases List.mem_append.mp member with old | new
        · exact headed other old
        · rw [show other = [item] by simpa using new]
          exact ⟨item, [], rfl, marked⟩

/-- No group has a marked item after its first one. -/
def Tight (mark : Item → Bool) (cutting : Cutting Item) : Prop :=
  ∀ group ∈ cutting.groups, ∀ item ∈ group.tail, mark item = false

theorem tight_empty : Tight mark (empty : Cutting Item) := by
  simp [Tight, groups, empty]

/-- A cutter that cuts at every marked item keeps its groups tight. -/
theorem Tight.takes
    {cutting next : Cutting Item}
    {item : Item}
    (tight : Tight mark cutting)
    (takes : Takes mark cutting item next)
    (cuts : mark item = true → next.current = some [item]) :
    Tight mark next := by
  cases takes with
  | skip _ unmarked done => exact tight
  | start _ marked done =>
      intro group member
      rcases List.mem_append.mp member with old | new
      · exact tight group (List.mem_append_left _ old)
      · rw [show group = [item] by simpa using new]
        simp
  | extend _ done group =>
      intro other member
      rcases List.mem_append.mp member with old | new
      · exact tight other (List.mem_append_left _ old)
      · rw [show other = group ++ [item] by simpa using new]
        cases group with
        | nil => simp
        | cons first rest =>
            have inner := tight (first :: rest) (by simp [groups])
            intro later among
            rw [List.cons_append, List.tail_cons, List.mem_append,
              List.mem_singleton] at among
            rcases among with old | rfl
            · exact inner later old
            · cases marked : mark later with
              | false => rfl
              | true => simpa using cuts marked
  | cut _ marked done group =>
      intro other member
      rcases List.mem_append.mp member with old | new
      · exact tight other old
      · rw [show other = [item] by simpa using new]
        simp

end Cutting
end RuseonCore
