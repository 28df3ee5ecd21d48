import RuseonCore.Foundation.Transition

/-!
# Heartbeats

A board says when each key was last heard of.  To save writes, a beat is recorded
only if the recorded one is at least `period` old, so the board lags behind the true
beats by less than `period`.  A sweep removes the keys that were not heard of for
longer than `timeout`, by the board.

Every key that a sweep leaves on the board had a beat within the timeout, and every
key whose last beat is more recent by a period than the timeout is left there.
-/

namespace RuseonCore
namespace Heartbeats

open Transition

variable {Key : Type*}

/-- Recorded time of the last beat of a key. -/
abbrev Board (Key : Type*) := Key → Option Int

/-- Events with their readings of the clock. -/
inductive Event (Key : Type*)
  | beat (key : Key) (now : Int)
  | sweep (now : Int)

/-- Reading of the clock at an event. -/
def Event.now : Event Key → Int
  | .beat _ now => now
  | .sweep now => now

/-- Keys that are overdue are removed. -/
def sweep (timeout : Int) (board : Board Key) (now : Int) : Board Key :=
  fun key => (board key).filter fun seen => now - seen ≤ timeout

theorem sweep_eq_some
    {timeout now seen : Int}
    {board : Board Key}
    {key : Key} :
    sweep timeout board now key = some seen ↔
      board key = some seen ∧ now - seen ≤ timeout := by
  simp [sweep, Option.filter_eq_some_iff]

variable [DecidableEq Key]

/-- A beat is recorded unless the recorded one is recent. -/
def beat (period : Int) (board : Board Key) (key : Key) (now : Int) : Board Key :=
  match board key with
  | some seen =>
      if now - seen < period then board else Function.update board key (some now)
  | none => Function.update board key (some now)

def step (period timeout : Int) (board : Board Key) : Event Key → Option (Board Key)
  | .beat key now => some (beat period board key now)
  | .sweep now => some (sweep timeout board now)

/-- Time of a beat of the key. -/
def Event.beatOf (key : Key) : Event Key → Option Int
  | .beat other now => if other = key then some now else none
  | .sweep _ => none

/-- Time of the last beat of a key. -/
def lastBeat (events : List (Event Key)) (key : Key) : Option Int :=
  (events.filterMap (Event.beatOf key)).getLast?

theorem lastBeat_concat
    (events : List (Event Key))
    (event : Event Key)
    (key : Key) :
    lastBeat (events ++ [event]) key = (event.beatOf key).or (lastBeat events key) := by
  cases found : event.beatOf key <;> simp [lastBeat, List.filterMap_append, found]

/-- The record of a key after the events.  It is a beat, behind the last one by less than
the period; a key that has none was overdue, up to a period, at one of the events. -/
def Tracked (period timeout : Int) (events : List (Event Key)) (key : Key) :
    Option Int → Prop
  | some seen =>
      Event.beat key seen ∈ events ∧
        ∀ last, lastBeat events key = some last → last - seen < period
  | none =>
      ∀ last, lastBeat events key = some last →
        ∃ event ∈ events, timeout - period < event.now - last

/-- The board after the events. -/
def Tracks
    (period timeout : Int)
    (events : List (Event Key))
    (board : Board Key) : Prop :=
  ∀ key, Tracked period timeout events key (board key)

section

variable {period timeout : Int} {events : List (Event Key)} {board : Board Key}

theorem tracks_nil : Tracks period timeout [] (fun _ : Key => none) := by
  intro key last isLast
  cases isLast

namespace Tracked

variable {key : Key} {now seen : Int}

/-- An event without a beat of the key. -/
theorem other
    {record : Option Int}
    (tracked : Tracked period timeout events key record)
    {event : Event Key}
    (noBeat : event.beatOf key = none) :
    Tracked period timeout (events ++ [event]) key record := by
  have same : lastBeat (events ++ [event]) key = lastBeat events key := by
    rw [lastBeat_concat, noBeat, Option.none_or]
  cases record with
  | some seen =>
      refine ⟨List.mem_append_left _ tracked.1, ?_⟩
      rw [same]
      exact tracked.2
  | none =>
      intro last isLast
      rw [same] at isLast
      obtain ⟨event, member, late⟩ := tracked last isLast
      exact ⟨event, List.mem_append_left _ member, late⟩

/-- A beat that is skipped. -/
theorem skip
    (tracked : Tracked period timeout events key (some seen))
    (recent : now - seen < period) :
    Tracked period timeout (events ++ [.beat key now]) key (some seen) := by
  refine ⟨List.mem_append_left _ tracked.1, ?_⟩
  intro last isLast
  rw [lastBeat_concat, Event.beatOf, if_pos rfl, Option.some_or] at isLast
  rw [← Option.some.inj isLast]
  exact recent

/-- A beat that is recorded. -/
theorem record (positive : 0 < period) :
    Tracked period timeout (events ++ [.beat key now]) key (some now) := by
  refine ⟨List.mem_append_right _ (List.mem_singleton_self _), ?_⟩
  intro last isLast
  rw [lastBeat_concat, Event.beatOf, if_pos rfl, Option.some_or] at isLast
  rw [← Option.some.inj isLast, sub_self]
  exact positive

/-- A sweep that removes the key. -/
theorem remove
    (tracked : Tracked period timeout events key (some seen))
    (expired : timeout < now - seen) :
    Tracked period timeout (events ++ [.sweep now]) key none := by
  intro last isLast
  rw [lastBeat_concat] at isLast
  have lag := tracked.2 last isLast
  refine ⟨.sweep now, List.mem_append_right _ (List.mem_singleton_self _), ?_⟩
  change timeout - period < now - last
  omega

end Tracked

theorem Tracks.record
    (tracks : Tracks period timeout events board)
    (positive : 0 < period)
    (key : Key)
    (now : Int) :
    Tracks period timeout (events ++ [.beat key now])
      (Function.update board key (some now)) := by
  intro other
  by_cases same : other = key
  · subst same
    rw [Function.update_self]
    exact Tracked.record positive
  · rw [Function.update_of_ne same]
    exact (tracks other).other (if_neg (Ne.symm same))

theorem Tracks.beat
    (tracks : Tracks period timeout events board)
    (positive : 0 < period)
    (key : Key)
    (now : Int) :
    Tracks period timeout (events ++ [.beat key now]) (beat period board key now) := by
  unfold Heartbeats.beat
  split
  · rename_i seen recorded
    split
    · rename_i recent
      intro other
      by_cases same : other = key
      · subst same
        have tracked := tracks other
        rw [recorded] at tracked ⊢
        exact tracked.skip recent
      · exact (tracks other).other (if_neg (Ne.symm same))
    · exact tracks.record positive key now
  · exact tracks.record positive key now

theorem Tracks.sweep
    (tracks : Tracks period timeout events board)
    (now : Int) :
    Tracks period timeout (events ++ [.sweep now]) (sweep timeout board now) := by
  intro key
  have tracked := tracks key
  unfold Heartbeats.sweep
  cases recorded : board key with
  | none =>
      rw [recorded] at tracked
      exact tracked.other rfl
  | some seen =>
      rw [recorded] at tracked
      rw [Option.filter_some]
      split
      · exact tracked.other rfl
      · rename_i removed
        rw [decide_eq_true_eq, not_le] at removed
        exact tracked.remove removed

/-- A run from an empty board tracks its events. -/
theorem tracks_run
    (positive : 0 < period)
    (reached : run (step period timeout) (fun _ => none) events = some board) :
    Tracks period timeout events board := by
  have preserved : ∀ (history : List (Event Key)) board event next,
      Tracks period timeout history board → step period timeout board event = some next →
        Tracks period timeout (history ++ [event]) next := by
    intro history board event next tracks taken
    cases event with
    | beat key now =>
        rw [← Option.some.inj taken]
        exact tracks.beat positive key now
    | sweep now =>
        rw [← Option.some.inj taken]
        exact tracks.sweep now
  exact run_invariant_history preserved tracks_nil reached

/-- A key whose last beat is recent by a margin of one period survives the sweep. -/
theorem Tracks.isSome_sweep
    (tracks : Tracks period timeout events board)
    {now : Int}
    (clock : ∀ event ∈ events, event.now ≤ now)
    {key : Key}
    {last : Int}
    (isLast : lastBeat events key = some last)
    (recent : now - last ≤ timeout - period) :
    (Heartbeats.sweep timeout board now key).isSome := by
  have tracked := tracks key
  cases recorded : board key with
  | none =>
      rw [recorded] at tracked
      obtain ⟨event, member, late⟩ := tracked last isLast
      have earlier := clock event member
      omega
  | some seen =>
      rw [recorded] at tracked
      have lag := tracked.2 last isLast
      rw [Option.isSome_iff_exists]
      exact ⟨seen, sweep_eq_some.mpr ⟨recorded, by omega⟩⟩

/-- A key that survives the sweep had a beat within the timeout. -/
theorem Tracks.exists_beat
    (tracks : Tracks period timeout events board)
    {now : Int}
    {key : Key}
    (survives : (Heartbeats.sweep timeout board now key).isSome) :
    ∃ seen, Event.beat key seen ∈ events ∧ now - seen ≤ timeout := by
  obtain ⟨seen, found⟩ := Option.isSome_iff_exists.mp survives
  obtain ⟨recorded, inTime⟩ := sweep_eq_some.mp found
  have tracked := tracks key
  rw [recorded] at tracked
  exact ⟨seen, tracked.1, inTime⟩

end

end Heartbeats
end RuseonCore
