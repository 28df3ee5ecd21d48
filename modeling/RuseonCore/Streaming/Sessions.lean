import RuseonCore.Streaming.Ingest

/-!
# Sessions of a stream as they are seen from outside

Others learn about a stream from the events on the bus, from the delays before
it connects again and from its counters.  The abstract `Monitor` says which
sequences of signals are possible: a session may come online once, every session
that ends without a panic is reported lost exactly once, and the wait after it
doubles with every session in a row that has not come online, up to a minute; a
panic ends the stream without a signal.  The ingest loop with its callbacks
follows the monitor in every interleaving, and its counters are the tallies of
the frames that have been written and of those that a callback has counted and
not yet written.
-/

namespace RuseonCore
namespace Streaming

open Transition Buffer

/-- Where the current session is. -/
inductive Status
  | connecting
  | up
  | down
  deriving DecidableEq

/-- The session and the number of sessions in a row that were lost, since the
last one that came online. -/
structure Monitor where
  status : Status
  failures : Nat
  deriving DecidableEq

namespace Monitor

/-- Before the first session. -/
def start : Monitor := ⟨.connecting, 0⟩

/-- Milliseconds before the next connection, without the jitter.  The counter of
the stream has 64 bits. -/
def delay (failures : Nat) : Nat :=
  1000 * min 60 (2 ^ min 6 (failures % 2 ^ 64))

/-- The signals that may come next. -/
def step (m : Monitor) : Signal → Option Monitor
  | .cameraOnline => if m.status = .connecting then some ⟨.up, 0⟩ else none
  | .cameraOffline _ => if m.status = .down then none else some ⟨.down, m.failures + 1⟩
  | .reconnectDelay ms =>
      if m.status = .down ∧ delay m.failures ≤ ms ∧ ms < delay m.failures + 500 then
        some { m with status := .connecting }
      else none

end Monitor

namespace Callback

/-- One for a callback that has swapped the state and not yet reset the backoff. -/
def resets : Callback → Int
  | .entering _ | .resetting _ => 1
  | _ => 0

/-- Bytes that a callback has counted and not yet written. -/
def bytes : Callback → Int
  | .loading frame | .swapping frame _ | .entering frame | .resetting frame | .raising frame
  | .announcing frame | .counting frame | .countingKey frame | .writing frame => frameSize frame
  | .returned => 0

/-- One for a callback that has counted its frame and not yet written it. -/
def frames : Callback → Int
  | .countingKey _ | .writing _ => 1
  | _ => 0

end Callback

/-- A counter of 64 bits has counted the frames that are written and those that
callbacks hold. -/
def Counts (counter : UInt64) (weight : Frame → Int) (held : Callback → Int)
    (written : List Frame) (callbacks : List Callback) : Prop :=
  (counter.toNat : Int) = (Census.total weight written + Census.total held callbacks) % 2 ^ 64

namespace Counts

variable {counter : UInt64} {weight : Frame → Int} {held : Callback → Int}
  {written : List Frame} {callbacks : List Callback} {k : Nat} {callback after : Callback}
  (counts : Counts counter weight held written callbacks)
  (found : callbacks[k]? = some callback)

include counts found

theorem kept (same : held after = held callback) :
    Counts counter weight held written (callbacks.set k after) := by
  rw [Counts, Census.total_set _ found, same, sub_self, add_zero]
  exact counts

theorem counted (more : held after = held callback + 1) :
    Counts (counter + 1) weight held written (callbacks.set k after) := by
  unfold Counts at counts ⊢
  rw [Census.total_set _ found, UInt64.toNat_add, UInt64.toNat_one, more]
  push_cast
  omega

theorem wrote {frame : Frame} (moved : weight frame + held after = held callback) :
    Counts counter weight held (written ++ [frame]) (callbacks.set k after) := by
  unfold Counts at counts ⊢
  rw [Census.total_append, Census.total_cons, Census.total_nil, Census.total_set _ found, counts]
  congr 1
  omega

end Counts

namespace Ingest

/-- Callbacks that have swapped the state and not yet reset the backoff. -/
def resetting (s : Ingest) : Int := Census.total Callback.resets s.callbacks

/-- The monitor and the statement of the loop fit. -/
def Agrees (s : Ingest) (m : Monitor) : Prop :=
  match s.phase with
  | .receiving =>
      m.status ≠ .down ∧ (m.status = .up ↔ s.state = .online ∧ s.coming = 0) ∧
        s.reconnects = if s.coming = s.resetting then UInt64.ofNat m.failures else 0
  | .loading _ | .swapping _ _ =>
      m.status ≠ .down ∧ (m.status = .up ↔ s.state = .online) ∧
        s.reconnects = UInt64.ofNat m.failures
  | .leaving _ => m.status = .up ∧ s.reconnects = UInt64.ofNat m.failures
  | .announcing _ => m.status ≠ .down ∧ s.reconnects = UInt64.ofNat m.failures
  | .backingOff => m.status = .down ∧ s.reconnects + 1 = UInt64.ofNat m.failures
  | .checking | .sleeping _ | .synthetic =>
      m.status = .connecting ∧ s.reconnects = UInt64.ofNat m.failures
  | .exited => m.status ≠ .up
  | .panicked wasOnline => m.status ≠ .down ∧ (m.status = .up ↔ wasOnline)

section Steps

variable {s next : Ingest} {change : Int} {signals : List Signal} {m : Monitor}

theorem resetting_bounds (s : Ingest) : 0 ≤ s.resetting ∧ s.resetting ≤ s.coming := by
  refine ⟨List.sum_nonneg fun value listed => ?_, List.sum_le_sum fun callback _ => ?_⟩
  · obtain ⟨callback, -, rfl⟩ := List.mem_map.mp listed
    cases callback <;> simp [Callback.resets]
  · cases callback <;> simp [Callback.resets, Callback.comes]

theorem online_bounds (s : Ingest) : 0 ≤ s.online ∧ s.online ≤ 1 := by
  unfold online
  split <;> decide

/-- A step within the session that the monitor does not see. -/
theorem Agrees.kept
    (agrees : s.Agrees m)
    (receiving : s.phase = .receiving)
    (phase : next.phase = s.phase)
    (state : next.state = s.state)
    (reconnects : next.reconnects = s.reconnects)
    (coming : next.coming = s.coming)
    (resetting : next.resetting = s.resetting) :
    ∃ m', run Monitor.step m [] = some m' ∧ next.Agrees m' := by
  refine ⟨m, rfl, ?_⟩
  simp only [Agrees, phase, receiving, state, reconnects, coming, resetting] at agrees ⊢
  exact agrees

section Callbacks

variable {k : Nat} {callback after : Callback} {frame : Frame}

theorem coming_set
    (found : s.callbacks[k]? = some callback)
    (callbacks : next.callbacks = s.callbacks.set k after) :
    next.coming = s.coming + (after.comes - callback.comes) ∧
      next.resetting = s.resetting + (after.resets - callback.resets) := by
  rw [coming, resetting, callbacks, Census.total_set _ found, Census.total_set _ found]
  exact ⟨rfl, rfl⟩

variable (invariant : s.Invariant) (agrees : s.Agrees m) (receiving : s.phase = .receiving)
  (phase : next.phase = s.phase)

include invariant agrees receiving phase

/-- The first frame of the session has swapped the state; nobody knows yet. -/
theorem Agrees.swapped
    (found : s.callbacks[k]? = some (.swapping frame s.state))
    (reconnects : next.reconnects = s.reconnects)
    (callbacks : next.callbacks = s.callbacks.set k (.entering frame)) :
    next.Agrees m := by
  have offline := invariant.stale _ _ (List.mem_of_getElem? found)
  have before : s.online = 0 := if_neg offline
  have single := invariant.single
  have bounds := s.resetting_bounds
  obtain ⟨comes, resets⟩ := coming_set found callbacks
  simp only [Callback.comes, Callback.resets] at comes resets
  have one : next.coming = 1 := by omega
  have another : next.resetting = 1 := by omega
  have same : s.coming = s.resetting := by omega
  simp only [Agrees, receiving, offline, false_and, iff_false, same, if_true] at agrees
  simp [Agrees, phase, receiving, one, another, reconnects, agrees]

/-- The backoff is reset, which is not announced yet. -/
theorem Agrees.reset
    (found : s.callbacks[k]? = some (.resetting frame))
    (reconnects : next.reconnects = 0)
    (callbacks : next.callbacks = s.callbacks.set k (.raising frame)) :
    next.Agrees m := by
  have single := invariant.single
  have online := s.online_bounds
  have bounds := s.resetting_bounds
  have later := next.resetting_bounds
  obtain ⟨comes, resets⟩ := coming_set found callbacks
  simp only [Callback.comes, Callback.resets] at comes resets
  have one : next.coming = 1 := by omega
  have none : next.resetting = 0 := by omega
  have before : s.coming ≠ 0 := by omega
  simp only [Agrees, receiving, before, and_false, iff_false] at agrees
  simp [Agrees, phase, receiving, one, none, reconnects, agrees]

/-- The session is announced. -/
theorem Agrees.announced
    (found : s.callbacks[k]? = some (.announcing frame))
    (state : next.state = s.state)
    (reconnects : next.reconnects = s.reconnects)
    (callbacks : next.callbacks = s.callbacks.set k (.counting frame)) :
    ∃ m', run Monitor.step m [.cameraOnline] = some m' ∧ next.Agrees m' := by
  have single := invariant.single
  have online := s.online_bounds
  have later := next.resetting_bounds
  obtain ⟨comes, resets⟩ := coming_set found callbacks
  simp only [Callback.comes, Callback.resets] at comes resets
  have none : next.coming = 0 := by omega
  have nobody : next.resetting = 0 := by omega
  have before : s.coming ≠ 0 := by omega
  have differ : s.coming ≠ s.resetting := by omega
  have up : s.state = .online := by
    by_contra offline
    have : s.online = 0 := if_neg offline
    omega
  simp only [Agrees, receiving, before, and_false, iff_false, differ, if_false] at agrees
  have connecting : m.status = .connecting := by
    cases status : m.status with
    | connecting => rfl
    | up => exact absurd status agrees.2.1
    | down => exact absurd status agrees.1
  refine ⟨⟨.up, 0⟩, by simp [run, Monitor.step, connecting], ?_⟩
  simp [Agrees, phase, receiving, none, nobody, state, up, reconnects, agrees]

end Callbacks

end Steps

/-- A stream together with the signals it has given. -/
def observe (seen : Ingest × List Signal) (label : IngestStep) :
    Option (Ingest × List Signal) :=
  (seen.1.step label).map fun (next, _, signals) => (next, seen.2 ++ signals)

end Ingest
end Streaming
end RuseonCore
