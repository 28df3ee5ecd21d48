import Mathlib.Data.Set.Card
import Mathlib.Tactic

/-!
# Maps that forget what was used least recently

What a bounded map should do is said on the log of its operations alone.  The
value of a key is the one that was stored last, unless the key was deleted or
displaced since.  A key is used by a lookup and by a store; a store of a new key
in a full map displaces the key whose last use is the longest ago, and no other
operation displaces anything.
-/

namespace RuseonCore
namespace Lru

/-- Operations on the map. -/
inductive Op (Key Value : Type*)
  | get (key : Key)
  | add (key : Key) (value : Value)
  | remove (key : Key)
  | clear

/-- An operation with its answer and the key that it displaced. -/
structure Event (Key Value : Type*) where
  op : Op Key Value
  answer : Option Value
  displaced : Option Key

/-- Past operations, the last one first. -/
abbrev Log (Key Value : Type*) := List (Event Key Value)

section

variable {Key Value : Type*} [DecidableEq Key]

/-- The operation uses the key. -/
def Op.uses (key : Key) : Op Key Value → Bool
  | .get other => other = key
  | .add other _ => other = key
  | .remove _ => false
  | .clear => false

/-- What the operation leaves of the value of a key. -/
def Event.leaves (event : Event Key Value) (key : Key) (value : Option Value) : Option Value :=
  match event.op with
  | .get _ => value
  | .add other new =>
      if key = other then some new
      else if event.displaced = some key then none
      else value
  | .remove other => if key = other then none else value
  | .clear => none

/-- The value stored last under a key that was not deleted or displaced since. -/
def latest (log : Log Key Value) (key : Key) : Option Value :=
  log.foldr (fun event value => event.leaves key value) none

/-- The keys with a value. -/
def held (log : Log Key Value) : Set Key :=
  {key | latest log key ≠ none}

/-- Number of the operation that used the key last, counted from one. -/
def lastUse : Log Key Value → Key → Nat
  | [], _ => 0
  | event :: log, key => if event.op.uses key then log.length + 1 else lastUse log key

/-- No key with a value was used less recently. -/
def Oldest (log : Log Key Value) (victim : Key) : Prop :=
  victim ∈ held log ∧ ∀ other ∈ held log, lastUse log victim ≤ lastUse log other

/-- The key that an operation may displace. -/
def Displaces (capacity : Nat) (log : Log Key Value) (op : Op Key Value) :
    Option Key → Prop
  | none =>
      ∀ key value, op = .add key value → key ∉ held log → (held log).ncard < capacity
  | some victim =>
      ∃ key value, op = .add key value ∧ key ∉ held log ∧ (held log).ncard = capacity ∧
        Oldest log victim

/-- The answer to an operation: a lookup returns the value of the key. -/
def answer (log : Log Key Value) : Op Key Value → Option Value
  | .get key => latest log key
  | _ => none

/-- The log of a map of the given capacity. -/
def Conforms (capacity : Nat) : Log Key Value → Prop
  | [] => True
  | event :: log =>
      event.answer = answer log event.op ∧
        Displaces capacity log event.op event.displaced ∧ Conforms capacity log

variable {log : Log Key Value} {event : Event Key Value} {key : Key}

@[simp] theorem latest_cons (log : Log Key Value) (event : Event Key Value) (key : Key) :
    latest (event :: log) key = event.leaves key (latest log key) :=
  rfl

theorem lastUse_of_uses (uses : event.op.uses key = true) :
    lastUse (event :: log) key = log.length + 1 := by
  rw [lastUse, if_pos uses]

theorem lastUse_of_not_uses (unused : event.op.uses key = false) :
    lastUse (event :: log) key = lastUse log key := by
  rw [lastUse, if_neg (by rw [unused]; decide)]

theorem lastUse_le_length (log : Log Key Value) (key : Key) :
    lastUse log key ≤ log.length := by
  induction log with
  | nil => exact le_rfl
  | cons event log inductionHypothesis =>
      rw [lastUse, List.length_cons]
      split
      · exact le_rfl
      · exact inductionHypothesis.trans (Nat.le_succ _)

/-! ## Lists ordered by their last use -/

variable {Entry : Type*} {name : Entry → Key}

/-- Entries with the one used last in front. -/
def Recent (log : Log Key Value) (name : Entry → Key) (entries : List Entry) : Prop :=
  entries.Pairwise fun newer older => lastUse log (name older) < lastUse log (name newer)

/-- An operation that uses no entry of the list leaves its order. -/
theorem Recent.cons
    {entries : List Entry}
    (recent : Recent log name entries)
    (unused : ∀ entry ∈ entries, event.op.uses (name entry) = false) :
    Recent (event :: log) name entries := by
  refine List.Pairwise.imp_of_mem ?_ recent
  intro newer older newerIn olderIn before
  rw [lastUse_of_not_uses (unused newer newerIn), lastUse_of_not_uses (unused older olderIn)]
  exact before

/-- The entry that an operation uses comes to the front. -/
theorem Recent.use
    {entries : List Entry}
    {front : Entry}
    (recent : Recent log name entries)
    (uses : event.op.uses (name front) = true)
    (unused : ∀ entry ∈ entries, event.op.uses (name entry) = false) :
    Recent (event :: log) name (front :: entries) := by
  refine List.pairwise_cons.mpr ⟨?_, recent.cons unused⟩
  intro older member
  rw [lastUse_of_uses uses, lastUse_of_not_uses (unused older member)]
  exact Nat.lt_succ_of_le (lastUse_le_length log _)

/-- The last entry of the list is the one used least recently. -/
theorem Recent.last_le
    {entries : List Entry}
    (recent : Recent log name entries)
    (nonempty : entries ≠ [])
    {entry : Entry}
    (member : entry ∈ entries) :
    lastUse log (name (entries.getLast nonempty)) ≤ lastUse log (name entry) := by
  obtain ⟨before, last, rfl⟩ := List.eq_nil_or_concat' entries |>.resolve_left nonempty
  rw [List.getLast_append_singleton]
  rcases List.mem_append.mp member with earlier | isLast
  · exact ((List.pairwise_append.mp recent).2.2 entry earlier last (by simp)).le
  · rw [List.mem_singleton.mp isLast]

end

end Lru
end RuseonCore
