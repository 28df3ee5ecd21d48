import Mathlib.Tactic

/-!
# Logs of operations on ranges

Two properties of a log.  An operation may need others before it; the log is
justified if every operation finds what it needs.  The ranges of some operations
may have to tile an interval: each begins where the last one ended, so that every
point of the interval lies in exactly one of them.
-/

namespace RuseonCore
namespace RangeLog

/-! ## Justified logs -/

section Justified

variable {Entry : Type*} {needs : List Entry → Entry → Prop}

/-- Every entry finds what it needs in the entries before it. -/
def Justified (needs : List Entry → Entry → Prop) (log : List Entry) : Prop :=
  ∀ before entry after, log = before ++ entry :: after → needs before entry

theorem justified_nil : Justified needs [] := by
  intro before entry after same
  cases List.append_ne_nil_of_right_ne_nil before (List.cons_ne_nil entry after) same.symm

/-- Only the newest entry has to be looked at. -/
theorem justified_concat
    {log : List Entry}
    {entry : Entry} :
    Justified needs (log ++ [entry]) ↔ Justified needs log ∧ needs log entry := by
  constructor
  · intro justified
    refine ⟨?_, justified log entry [] rfl⟩
    rintro before earlier after rfl
    apply justified before earlier (after ++ [entry])
    rw [List.append_assoc, List.cons_append]
  · rintro ⟨earlierJustified, newest⟩ before other after same
    rcases List.eq_nil_or_concat after with rfl | ⟨others, last, rfl⟩
    · obtain ⟨rfl, rfl⟩ := List.append_inj' same rfl |>.imp id List.singleton_inj.mp
      exact newest
    · rw [List.concat_eq_append, ← List.cons_append, ← List.append_assoc] at same
      exact earlierJustified before other others (List.append_inj' same rfl).1

end Justified

/-! ## Tilings -/

/-- A range of positions. -/
structure Range (α : Type*) where
  offset : α
  length : α
  deriving DecidableEq

section Tiles

variable {α : Type*} [AddCommGroup α] [LinearOrder α]

namespace Range

/-- First position behind the range. -/
def stop (range : Range α) : α :=
  range.offset + range.length

def Contains (range : Range α) (pos : α) : Prop :=
  range.offset ≤ pos ∧ pos < range.stop

end Range

/-- The nonempty ranges follow each other from one position to another. -/
def Tiles : α → α → List (Range α) → Prop
  | start, stop, [] => start = stop
  | start, stop, range :: ranges =>
      range.offset = start ∧ 0 < range.length ∧ Tiles range.stop stop ranges

/-- A tiling may be continued. -/
theorem Tiles.concat
    {start middle : α}
    {ranges : List (Range α)}
    (tiles : Tiles start middle ranges)
    {range : Range α}
    (next : range.offset = middle)
    (positive : 0 < range.length) :
    Tiles start range.stop (ranges ++ [range]) := by
  induction ranges generalizing start with
  | nil => exact ⟨next.trans (Eq.symm tiles), positive, rfl⟩
  | cons first ranges inductionHypothesis =>
      obtain ⟨begins, nonempty, rest⟩ := tiles
      exact ⟨begins, nonempty, inductionHypothesis rest⟩

variable [IsOrderedAddMonoid α]

/-- The ranges of a tiling begin behind its start. -/
theorem Tiles.start_le
    {start stop : α}
    {ranges : List (Range α)}
    (tiles : Tiles start stop ranges)
    {range : Range α}
    (member : range ∈ ranges) :
    start ≤ range.offset := by
  induction ranges generalizing start with
  | nil => cases member
  | cons first ranges inductionHypothesis =>
      obtain ⟨begins, nonempty, rest⟩ := tiles
      rcases List.mem_cons.mp member with rfl | later
      · exact begins.ge
      · apply le_trans _ (inductionHypothesis rest later)
        rw [← begins]
        exact le_add_of_nonneg_right nonempty.le

/-- Every position of the interval lies in exactly one range. -/
theorem Tiles.existsUnique
    {start stop : α}
    {ranges : List (Range α)}
    (tiles : Tiles start stop ranges)
    {pos : α}
    (after : start ≤ pos)
    (before : pos < stop) :
    ∃! i : Nat, ∃ range : Range α, ranges[i]? = some range ∧ range.Contains pos := by
  induction ranges generalizing start with
  | nil => exact absurd before (not_lt.mpr (Eq.symm tiles ▸ after))
  | cons first ranges inductionHypothesis =>
      obtain ⟨begins, nonempty, rest⟩ := tiles
      rcases lt_or_ge pos first.stop with inside | outside
      · refine ⟨0, ⟨first, rfl, begins.le.trans after, inside⟩, ?_⟩
        rintro (_ | i) ⟨range, found, contains⟩
        · rfl
        · have later := rest.start_le (List.mem_of_getElem? found)
          exact absurd inside (not_lt.mpr (later.trans contains.1))
      · obtain ⟨i, ⟨range, found, contains⟩, unique⟩ := inductionHypothesis rest outside
        refine ⟨i + 1, ⟨range, found, contains⟩, ?_⟩
        rintro (_ | j) ⟨other, otherFound, otherContains⟩
        · obtain rfl := Option.some.inj otherFound
          exact absurd otherContains.2 (not_lt.mpr outside)
        · rw [unique j ⟨other, otherFound, otherContains⟩]

end Tiles

end RangeLog
end RuseonCore
