import RuseonCore.Foundation.Pool
import RuseonCore.Foundation.Transition

/-!
# Reconnects of the players

Model of `web/src/v2/core/reconnect-coordinator.ts`.  A camera that is to connect
again gets a timer with a delay that grows with its attempts; a timer that fires
hands its function to a pool that runs three at a time.

The browser runs one callback at a time: a call of a method, a timer that fires,
or the continuation of a promise.  A run calls its function when it starts, later
learns that the promise of the function has settled, and later still gives its
place in the pool back.  What the function itself does with the coordinator are
steps of their own.  Timers may fire in any order.  Numbers are rationals, and
labels carry the value of `Math.random()`.
-/

namespace RuseonCore
namespace Web

open Transition

/-- A reconnect of a camera; `execute` names the function. -/
structure Execution where
  id : String
  execute : Nat
  deriving DecidableEq

/-- A timer of the browser that has neither fired nor been cleared. -/
structure Timer where
  handle : Nat
  execution : Execution
  delay : ℚ
  deriving DecidableEq

/-- The coordinator, with the timers of the browser, the number of handles given
out, and the runs that have not ended: whether their function has settled. -/
structure ReconnectCoordinator where
  queue : String → Option Nat
  attempts : String → Nat
  runningCount : Nat
  pendingExecutions : List Execution
  timers : List Timer
  handles : Nat
  runs : List (Execution × Bool)

/-- What happens to timers, counters of attempts and executions. -/
inductive ReconnectEvent
  | scheduled (handle : Nat) (id : String) (attempt : Nat) (baseDelayMs maxDelayMs : Option ℚ)
      (delay : ℚ)
  | cancelled (handle : Nat)
  | cleared (id : String)
  | fired (handle : Nat) (execution : Execution)
  | started (execution : Execution)
  | finished (execution : Execution)
  deriving DecidableEq

/-- Calls of methods, a timer that fires, a function that settles and a run that
ends. -/
inductive ReconnectStep
  | schedule (id : String) (execute : Nat) (baseDelayMs maxDelayMs : Option ℚ) (random : ℚ)
  | cancel (id : String)
  | reset (id : String)
  | fire (handle : Nat)
  | settle (k : Nat) (succeeded : Bool)
  | finish (k : Nat)

/-- Executions that run at a time. -/
def maxConcurrency : Nat := 3

/-- Exponential backoff. -/
def expDelay (baseDelayMs maxDelayMs : Option ℚ) (attempt : Nat) : ℚ :=
  min (baseDelayMs.getD 1000 * (3 / 2) ^ (attempt - 1)) (maxDelayMs.getD 30000)

namespace ReconnectCoordinator

/-- A new coordinator. -/
def new : ReconnectCoordinator where
  queue := fun _ => none
  attempts := fun _ => 0
  runningCount := 0
  pendingExecutions := []
  timers := []
  handles := 0
  runs := []

/-- Timers without the one of the handle. -/
def clearTimeout (c : ReconnectCoordinator) (handle : Nat) : List Timer :=
  c.timers.filter fun timer => timer.handle ≠ handle

def cancel (c : ReconnectCoordinator) (id : String) :
    ReconnectCoordinator × List ReconnectEvent :=
  match c.queue id with
  | some timer =>
      ({ c with
          timers := c.clearTimeout timer
          queue := Function.update c.queue id none }, [.cancelled timer])
  | none => (c, [])

def schedule (c : ReconnectCoordinator) (id : String) (execute : Nat)
    (baseDelayMs maxDelayMs : Option ℚ) (random : ℚ) :
    ReconnectCoordinator × List ReconnectEvent :=
  let (c, events) := c.cancel id
  let currentAttempt := c.attempts id + 1
  let expDelay := expDelay baseDelayMs maxDelayMs currentAttempt
  let jitter := expDelay * (7 / 10 + random * (6 / 10))
  let timer := c.handles + 1
  ({ c with
      attempts := Function.update c.attempts id currentAttempt
      queue := Function.update c.queue id (some timer)
      timers := c.timers ++ [⟨timer, ⟨id, execute⟩, jitter⟩]
      handles := timer },
    events ++ [.scheduled timer id currentAttempt baseDelayMs maxDelayMs jitter])

def reset (c : ReconnectCoordinator) (id : String) :
    ReconnectCoordinator × List ReconnectEvent :=
  let (c, events) := c.cancel id
  ({ c with attempts := Function.update c.attempts id 0 }, events ++ [.cleared id])

/-- The closure `run`, up to its first wait. -/
def run (c : ReconnectCoordinator) (execution : Execution) :
    ReconnectCoordinator × List ReconnectEvent :=
  ({ c with
      runningCount := c.runningCount + 1
      runs := c.runs ++ [(execution, false)] }, [.started execution])

def enqueueExecution (c : ReconnectCoordinator) (execution : Execution) :
    ReconnectCoordinator × List ReconnectEvent :=
  if c.runningCount < maxConcurrency then c.run execution
  else ({ c with pendingExecutions := c.pendingExecutions ++ [execution] }, [])

def processNext (c : ReconnectCoordinator) : ReconnectCoordinator × List ReconnectEvent :=
  if c.runningCount < maxConcurrency then
    match c.pendingExecutions with
    | next :: rest => { c with pendingExecutions := rest }.run next
    | [] => (c, [])
  else (c, [])

/-- The callback of a timer. -/
def fire (c : ReconnectCoordinator) (timer : Timer) :
    ReconnectCoordinator × List ReconnectEvent :=
  let c := { c with
    timers := c.clearTimeout timer.handle
    queue := Function.update c.queue timer.execution.id none }
  let (c, events) := c.enqueueExecution timer.execution
  (c, .fired timer.handle timer.execution :: events)

/-- The function of a run has settled. -/
def settle (c : ReconnectCoordinator) (k : Nat) (execution : Execution) (succeeded : Bool) :
    ReconnectCoordinator × List ReconnectEvent :=
  let c := { c with runs := c.runs.set k (execution, true) }
  if succeeded then
    ({ c with attempts := Function.update c.attempts execution.id 0 }, [.cleared execution.id])
  else (c, [])

/-- The end of a run. -/
def finish (c : ReconnectCoordinator) (k : Nat) (execution : Execution) :
    ReconnectCoordinator × List ReconnectEvent :=
  let c := { c with runningCount := c.runningCount - 1, runs := c.runs.eraseIdx k }
  let (c, events) := c.processNext
  (c, .finished execution :: events)

/-- Effect of one step. -/
def step (c : ReconnectCoordinator) :
    ReconnectStep → Option (ReconnectCoordinator × List ReconnectEvent)
  | .schedule id execute baseDelayMs maxDelayMs random =>
      if 0 ≤ random ∧ random < 1 then some (c.schedule id execute baseDelayMs maxDelayMs random)
      else none
  | .cancel id => some (c.cancel id)
  | .reset id => some (c.reset id)
  | .fire handle => (c.timers.find? (·.handle == handle)).map c.fire
  | .settle k succeeded =>
      match c.runs[k]? with
      | some (execution, false) => some (c.settle k execution succeeded)
      | _ => none
  | .finish k =>
      match c.runs[k]? with
      | some (execution, true) => some (c.finish k execution)
      | _ => none

/-- A step, with the events so far. -/
def observe (seen : ReconnectCoordinator × List ReconnectEvent) (label : ReconnectStep) :
    Option (ReconnectCoordinator × List ReconnectEvent) :=
  (seen.1.step label).map fun (next, events) => (next, seen.2 ++ events)

end ReconnectCoordinator

/-! ## What the events tell -/

namespace ReconnectEvent

/-- Handles of timers that were set, in order. -/
@[simp] def scheduledHandles (events : List ReconnectEvent) : List Nat :=
  events.filterMap fun
    | .scheduled handle _ _ _ _ _ => some handle
    | _ => none

/-- Handles of timers that were cleared. -/
@[simp] def cancelledHandles (events : List ReconnectEvent) : List Nat :=
  events.filterMap fun
    | .cancelled handle => some handle
    | _ => none

/-- Handles of timers that have fired. -/
@[simp] def firedHandles (events : List ReconnectEvent) : List Nat :=
  events.filterMap fun
    | .fired handle _ => some handle
    | _ => none

/-- Executions whose timer has fired, in order. -/
@[simp] def firedExecutions (events : List ReconnectEvent) : List Execution :=
  events.filterMap fun
    | .fired _ execution => some execution
    | _ => none

/-- Executions that have started, in order. -/
@[simp] def startedExecutions (events : List ReconnectEvent) : List Execution :=
  events.filterMap fun
    | .started execution => some execution
    | _ => none

/-- Executions that have ended, in order. -/
@[simp] def finishedExecutions (events : List ReconnectEvent) : List Execution :=
  events.filterMap fun
    | .finished execution => some execution
    | _ => none

end ReconnectEvent

namespace ReconnectCoordinator

open ReconnectEvent

variable {c next : ReconnectCoordinator} {events new : List ReconnectEvent}

/-! ## Timers -/

/-- The queue has the timers that are running, and every timer that was set is
running, has fired or was cleared. -/
structure Timed (c : ReconnectCoordinator) (events : List ReconnectEvent) : Prop where
  queued : ∀ timer ∈ c.timers, c.queue timer.execution.id = some timer.handle
  live : ∀ id handle, c.queue id = some handle →
    ∃ timer ∈ c.timers, timer.handle = handle ∧ timer.execution.id = id
  numbered : scheduledHandles events = (List.range c.handles).map (· + 1)
  fates : (scheduledHandles events).Perm
    (firedHandles events ++ cancelledHandles events ++ c.timers.map Timer.handle)

theorem Timed.scheduled_nodup (timed : c.Timed events) : (scheduledHandles events).Nodup := by
  rw [timed.numbered]
  exact List.nodup_range.map fun _ _ => Nat.succ.inj

theorem Timed.handles_nodup (timed : c.Timed events) : (c.timers.map Timer.handle).Nodup :=
  (List.nodup_append.mp (timed.fates.nodup_iff.mp timed.scheduled_nodup)).2.1

/-- Running timers of one camera are the same timer. -/
theorem Timed.single (timed : c.Timed events) :
    (c.timers.map fun timer => timer.execution.id).Nodup := by
  refine (List.nodup_map_iff_inj_on timed.handles_nodup.of_map).mpr fun timer member other listed
    same => ?_
  have handles : timer.handle = other.handle := by
    have here := timed.queued timer member
    rw [same, timed.queued other listed] at here
    exact (Option.some.inj here).symm
  exact (List.nodup_map_iff_inj_on timed.handles_nodup.of_map).mp timed.handles_nodup
    timer member other listed handles

/-- Events that are about no timer. -/
def Timeless (new : List ReconnectEvent) : Prop :=
  scheduledHandles new = [] ∧ firedHandles new = [] ∧ cancelledHandles new = []

theorem Timed.kept
    (timed : c.Timed events)
    (timers : next.timers = c.timers)
    (queue : next.queue = c.queue)
    (handles : next.handles = c.handles)
    (timeless : Timeless new) :
    next.Timed (events ++ new) := by
  obtain ⟨queued, live, numbered, fates⟩ := timed
  obtain ⟨none, noneFired, noneCancelled⟩ := timeless
  refine ⟨?_, ?_, ?_, ?_⟩ <;> simp_all

/-- The running timer of a camera is taken away. -/
theorem Timed.removed
    {id : String}
    {handle : Nat}
    (timed : c.Timed events)
    (known : c.queue id = some handle)
    (timers : next.timers = c.clearTimeout handle)
    (queue : next.queue = Function.update c.queue id none)
    (handles : next.handles = c.handles)
    (none : scheduledHandles new = [])
    (fate : firedHandles new ++ cancelledHandles new = [handle]) :
    next.Timed (events ++ new) := by
  obtain ⟨gone, listed, rfl, rfl⟩ := timed.live id handle known
  have remaining : next.timers.map Timer.handle =
      (c.timers.map Timer.handle).erase gone.handle := by
    rw [timers, clearTimeout, timed.handles_nodup.erase_eq_filter, List.filter_map]
    congr 1
    refine List.filter_congr fun timer _ => ?_
    by_cases same : timer.handle = gone.handle <;> simp [same]
  have split : (c.timers.map Timer.handle).Perm (gone.handle :: next.timers.map Timer.handle) :=
    remaining ▸ List.perm_cons_erase (List.mem_map_of_mem listed)
  refine ⟨fun timer member => ?_, fun other handle asked => ?_, ?_, ?_⟩
  · rw [timers, clearTimeout, List.mem_filter] at member
    obtain ⟨member, differs⟩ := member
    have here := timed.queued timer member
    rw [queue, Function.update_of_ne, here]
    intro same
    rw [same, known] at here
    simp [Option.some.inj here] at differs
  · rw [queue] at asked
    have differs : other ≠ gone.execution.id := by
      rintro rfl
      rw [Function.update_self] at asked
      cases asked
    rw [Function.update_of_ne differs] at asked
    obtain ⟨timer, member, rfl, rfl⟩ := timed.live other handle asked
    refine ⟨timer, ?_, rfl, rfl⟩
    rw [timers, clearTimeout, List.mem_filter]
    refine ⟨member, decide_eq_true fun same => differs ?_⟩
    have one := (List.nodup_map_iff_inj_on timed.handles_nodup.of_map).mp timed.handles_nodup
      timer member gone listed same
    rw [one]
  · simp only [scheduledHandles] at none ⊢
    rw [List.filterMap_append, none, List.append_nil, handles]
    exact timed.numbered
  · refine List.perm_iff_count.mpr fun handle => ?_
    have before := timed.fates.count_eq handle
    have moved := split.count_eq handle
    have here := congrArg (List.count handle) fate
    simp only [scheduledHandles, firedHandles, cancelledHandles, List.filterMap_append,
      List.count_append, List.count_cons, List.count_nil] at none before moved here ⊢
    rw [none, List.count_nil]
    omega

/-- A camera without a timer gets one. -/
theorem Timed.added
    {id : String}
    {execute : Nat}
    {delay : ℚ}
    (timed : c.Timed events)
    (absent : c.queue id = none)
    (timers : next.timers = c.timers ++ [⟨c.handles + 1, ⟨id, execute⟩, delay⟩])
    (queue : next.queue = Function.update c.queue id (some (c.handles + 1)))
    (handles : next.handles = c.handles + 1)
    (one : scheduledHandles new = [c.handles + 1])
    (noneFired : firedHandles new = [])
    (noneCancelled : cancelledHandles new = []) :
    next.Timed (events ++ new) := by
  refine ⟨fun timer member => ?_, fun other handle asked => ?_, ?_, ?_⟩
  · rw [timers, List.mem_append, List.mem_singleton] at member
    rw [queue]
    rcases member with old | rfl
    · rw [Function.update_of_ne, timed.queued timer old]
      rintro rfl
      rw [timed.queued timer old] at absent
      cases absent
    · exact Function.update_self ..
  · rw [queue] at asked
    rw [timers]
    by_cases same : other = id
    · subst same
      rw [Function.update_self] at asked
      exact ⟨_, List.mem_append_right _ List.mem_cons_self, Option.some.inj asked, rfl⟩
    · rw [Function.update_of_ne same] at asked
      obtain ⟨timer, member, found⟩ := timed.live other handle asked
      exact ⟨timer, List.mem_append_left _ member, found⟩
  · have before := timed.numbered
    simp only [scheduledHandles] at before one ⊢
    rw [List.filterMap_append, before, one, handles, List.range_succ, List.map_append]
    rfl
  · have before := timed.fates
    simp only [scheduledHandles, firedHandles, cancelledHandles] at *
    simp only [List.filterMap_append]
    rw [one, noneFired, noneCancelled, timers, List.map_append, List.append_nil, List.append_nil,
      ← List.append_assoc]
    exact before.append_right _

/-! ## Executions -/

/-- The pool serves the executions in the order in which their timers have fired,
and those that have started have ended or are running. -/
structure Pooled (c : ReconnectCoordinator) (events : List ReconnectEvent) : Prop where
  serves : Pool.Serves maxConcurrency c.runningCount (finishedExecutions events).length
    (firedExecutions events) (startedExecutions events) c.pendingExecutions
  counted : c.runs.length = c.runningCount
  ended : (startedExecutions events).Perm (finishedExecutions events ++ c.runs.map Prod.fst)

/-- Events that are about no execution. -/
def Unpooled (new : List ReconnectEvent) : Prop :=
  firedExecutions new = [] ∧ startedExecutions new = [] ∧ finishedExecutions new = []

theorem Pooled.kept
    (pooled : c.Pooled events)
    (runningCount : next.runningCount = c.runningCount)
    (pendingExecutions : next.pendingExecutions = c.pendingExecutions)
    (runs : next.runs.map Prod.fst = c.runs.map Prod.fst)
    (unpooled : Unpooled new) :
    next.Pooled (events ++ new) := by
  obtain ⟨serves, counted, ended⟩ := pooled
  obtain ⟨noneFired, noneStarted, noneFinished⟩ := unpooled
  have same : next.runs.length = c.runs.length := by
    simpa using congrArg List.length runs
  refine ⟨?_, same.trans (counted.trans runningCount.symm), ?_⟩ <;> simp_all

/-- A timer that fires submits its execution. -/
theorem Pooled.enqueueExecution
    (pooled : c.Pooled events)
    (handle : Nat)
    (execution : Execution) :
    (c.enqueueExecution execution).1.Pooled
      (events ++ .fired handle execution :: (c.enqueueExecution execution).2) := by
  obtain ⟨serves, counted, ended⟩ := pooled
  unfold ReconnectCoordinator.enqueueExecution
  split
  · rename_i room
    have more := serves.submit_room room execution
    refine ⟨?_, ?_, ?_⟩
    · simpa [ReconnectCoordinator.run] using more
    · simpa [ReconnectCoordinator.run] using counted
    · simpa [ReconnectCoordinator.run] using ended.append_right [execution]
  · rename_i full
    have more := serves.submit_full full execution
    refine ⟨?_, counted, ?_⟩
    · simpa using more
    · simpa using ended

/-- A run that ends makes room for the next one. -/
theorem Pooled.finish
    {k : Nat}
    {execution : Execution}
    {settled : Bool}
    (pooled : c.Pooled events)
    (found : c.runs[k]? = some (execution, settled)) :
    (c.finish k execution).1.Pooled (events ++ (c.finish k execution).2) := by
  obtain ⟨serves, counted, ended⟩ := pooled
  obtain ⟨inside, here⟩ := List.getElem?_eq_some_iff.mp found
  have busy : 0 < c.runningCount := by omega
  have bound := serves.running_le
  have room : c.runningCount - 1 < maxConcurrency := by omega
  have size : (c.runs.eraseIdx k).length + 1 = c.runs.length := by
    rw [List.length_eraseIdx_of_lt inside]
    omega
  have split : (c.runs.map Prod.fst).Perm (execution :: (c.runs.eraseIdx k).map Prod.fst) := by
    have whole := (List.getElem_cons_eraseIdx_perm inside).map Prod.fst
    rw [here] at whole
    exact whole.symm
  have moved : (startedExecutions events).Perm
      (finishedExecutions events ++ [execution] ++ (c.runs.eraseIdx k).map Prod.fst) := by
    rw [List.append_assoc]
    exact ended.trans (split.append_left _)
  cases waiting : c.pendingExecutions with
  | nil =>
      rw [waiting] at serves
      have idle := serves.finish_idle busy
      have same : c.finish k execution =
          ({ c with runningCount := c.runningCount - 1, runs := c.runs.eraseIdx k },
            [.finished execution]) := by
        simp [ReconnectCoordinator.finish, processNext, room, waiting]
      rw [same]
      refine ⟨?_, ?_, ?_⟩
      · simpa [waiting] using idle
      · change (c.runs.eraseIdx k).length = c.runningCount - 1
        omega
      · simpa using moved
  | cons first rest =>
      rw [waiting] at serves
      have more := serves.finish_next
      have same : c.finish k execution =
          ({ c with
              runningCount := c.runningCount
              pendingExecutions := rest
              runs := c.runs.eraseIdx k ++ [(first, false)] },
            [.finished execution, .started first]) := by
        simp [ReconnectCoordinator.finish, processNext, room, waiting, ReconnectCoordinator.run]
        omega
      rw [same]
      refine ⟨?_, ?_, ?_⟩
      · simpa using more
      · simp only [List.length_append, List.length_singleton]
        omega
      · simpa using moved.append_right [first]

/-! ## Backoff -/

/-- The backoff policy, on the attempts of each camera since it last succeeded or
was reset: an attempt is one more than the last one, and its delay is that of the
attempt up to three tenths. -/
def backoff (attempts : String → Nat) : ReconnectEvent → Option (String → Nat)
  | .scheduled _ id attempt baseDelayMs maxDelayMs delay =>
      let expected := expDelay baseDelayMs maxDelayMs attempt
      if attempt = attempts id + 1 ∧
          (0 < expected → 7 / 10 * expected ≤ delay ∧ delay < 13 / 10 * expected) then
        some (Function.update attempts id attempt)
      else none
  | .cleared id => some (Function.update attempts id 0)
  | _ => some attempts

/-- The coordinator keeps to the policy. -/
def Backed (c : ReconnectCoordinator) (events : List ReconnectEvent) : Prop :=
  Transition.run backoff (fun _ => 0) events = some c.attempts

theorem Backed.append
    (backed : c.Backed events)
    (continued : Transition.run backoff c.attempts new = some next.attempts) :
    next.Backed (events ++ new) := by
  rw [Backed, run_append, backed]
  exact continued

theorem jitter_bounds
    {expected random : ℚ}
    (low : 0 ≤ random)
    (high : random < 1)
    (positive : 0 < expected) :
    7 / 10 * expected ≤ expected * (7 / 10 + random * (6 / 10)) ∧
      expected * (7 / 10 + random * (6 / 10)) < 13 / 10 * expected := by
  constructor <;> nlinarith

/-! ## Steps -/

/-- All that holds of a coordinator and its events. -/
structure Lawful (c : ReconnectCoordinator) (events : List ReconnectEvent) : Prop where
  timed : c.Timed events
  pooled : c.Pooled events
  backed : c.Backed events

theorem lawful_new : ReconnectCoordinator.new.Lawful [] := by
  refine ⟨⟨?_, ?_, rfl, ?_⟩, ⟨Pool.serves_empty _, rfl, ?_⟩, rfl⟩ <;>
    simp [ReconnectCoordinator.new]

theorem Lawful.cancel (lawful : c.Lawful events) (id : String) :
    (c.cancel id).1.Lawful (events ++ (c.cancel id).2) ∧ (c.cancel id).1.queue id = none ∧
      (c.cancel id).1.attempts = c.attempts := by
  cases known : c.queue id with
  | none =>
      have same : c.cancel id = (c, []) := by rw [ReconnectCoordinator.cancel, known]
      rw [same, List.append_nil]
      exact ⟨lawful, known, rfl⟩
  | some handle =>
      have same : c.cancel id =
          ({ c with
              timers := c.clearTimeout handle
              queue := Function.update c.queue id none }, [.cancelled handle]) := by
        rw [ReconnectCoordinator.cancel, known]
      rw [same]
      refine ⟨⟨?_, ?_, ?_⟩, Function.update_self .., rfl⟩
      · exact lawful.timed.removed known rfl rfl rfl rfl rfl
      · exact lawful.pooled.kept rfl rfl rfl ⟨rfl, rfl, rfl⟩
      · exact lawful.backed.append rfl

/-- The pool has nothing to do with timers and attempts. -/
structure Started (c next : ReconnectCoordinator) (new : List ReconnectEvent) : Prop where
  timers : next.timers = c.timers
  queue : next.queue = c.queue
  handles : next.handles = c.handles
  timeless : Timeless new
  backed : Transition.run backoff c.attempts new = some next.attempts

theorem started_enqueueExecution (c : ReconnectCoordinator) (execution : Execution) :
    Started c (c.enqueueExecution execution).1 (c.enqueueExecution execution).2 := by
  unfold enqueueExecution
  split <;> exact ⟨rfl, rfl, rfl, ⟨rfl, rfl, rfl⟩, rfl⟩

theorem started_processNext (c : ReconnectCoordinator) :
    Started c c.processNext.1 c.processNext.2 := by
  unfold processNext
  repeat' split
  all_goals exact ⟨rfl, rfl, rfl, ⟨rfl, rfl, rfl⟩, rfl⟩

theorem Lawful.fire
    {timer : Timer}
    (lawful : c.Lawful events)
    (member : timer ∈ c.timers) :
    (c.fire timer).1.Lawful (events ++ (c.fire timer).2) := by
  let cleared : ReconnectCoordinator :=
    { c with
      timers := c.clearTimeout timer.handle
      queue := Function.update c.queue timer.execution.id none }
  have pooled : cleared.Pooled events :=
    ⟨lawful.pooled.serves, lawful.pooled.counted, lawful.pooled.ended⟩
  have started := started_enqueueExecution cleared timer.execution
  obtain ⟨none, noneFired, noneCancelled⟩ := started.timeless
  have fate : timer.handle :: firedHandles (cleared.enqueueExecution timer.execution).2 ++
      cancelledHandles (cleared.enqueueExecution timer.execution).2 = [timer.handle] := by
    rw [noneFired, noneCancelled]
    rfl
  exact ⟨lawful.timed.removed (lawful.timed.queued timer member) started.timers started.queue
    started.handles none fate, pooled.enqueueExecution timer.handle timer.execution,
    lawful.backed.append started.backed⟩

theorem Lawful.settle
    {k : Nat}
    {execution : Execution}
    (lawful : c.Lawful events)
    (found : c.runs[k]? = some (execution, false))
    (succeeded : Bool) :
    (c.settle k execution succeeded).1.Lawful
      (events ++ (c.settle k execution succeeded).2) := by
  have same : (c.runs.set k (execution, true)).map Prod.fst = c.runs.map Prod.fst := by
    obtain ⟨inside, here⟩ := List.getElem?_eq_some_iff.mp found
    have first : (c.runs.map Prod.fst).get ⟨k, by simpa using inside⟩ = execution := by
      simp [here]
    rw [List.map_set, ← first]
    exact List.set_getElem_self _
  cases succeeded <;>
    exact ⟨lawful.timed.kept rfl rfl rfl ⟨rfl, rfl, rfl⟩,
      lawful.pooled.kept rfl rfl same ⟨rfl, rfl, rfl⟩, lawful.backed.append rfl⟩

theorem Lawful.finish
    {k : Nat}
    {execution : Execution}
    (lawful : c.Lawful events)
    (found : c.runs[k]? = some (execution, true)) :
    (c.finish k execution).1.Lawful (events ++ (c.finish k execution).2) := by
  let ended : ReconnectCoordinator :=
    { c with runningCount := c.runningCount - 1, runs := c.runs.eraseIdx k }
  have started := started_processNext ended
  exact ⟨lawful.timed.kept started.timers started.queue started.handles started.timeless,
    lawful.pooled.finish found, lawful.backed.append started.backed⟩

theorem lawful_step
    {label : ReconnectStep}
    (lawful : c.Lawful events)
    (taken : c.step label = some (next, new)) :
    next.Lawful (events ++ new) := by
  cases label with
  | schedule id execute baseDelayMs maxDelayMs random =>
      simp only [step] at taken
      split at taken
      · rename_i fraction
        obtain ⟨cancelled, absent, attempts⟩ := lawful.cancel id
        simp only [schedule, Option.some.injEq, Prod.mk.injEq] at taken
        obtain ⟨rfl, rfl⟩ := taken
        rw [← List.append_assoc]
        refine ⟨?_, ?_, ?_⟩
        · exact cancelled.timed.added absent rfl rfl rfl rfl rfl rfl
        · exact cancelled.pooled.kept rfl rfl rfl ⟨rfl, rfl, rfl⟩
        · refine cancelled.backed.append ?_
          simp only [Transition.run, backoff]
          rw [if_pos ⟨trivial, jitter_bounds fraction.1 fraction.2⟩]
          rfl
      · cases taken
  | cancel id =>
      simp only [step, Option.some.injEq] at taken
      have cancelled := (lawful.cancel id).1
      rw [taken] at cancelled
      exact cancelled
  | reset id =>
      obtain ⟨cancelled, -, -⟩ := lawful.cancel id
      simp only [step, reset, Option.some.injEq, Prod.mk.injEq] at taken
      obtain ⟨rfl, rfl⟩ := taken
      rw [← List.append_assoc]
      refine ⟨?_, ?_, ?_⟩
      · exact cancelled.timed.kept rfl rfl rfl ⟨rfl, rfl, rfl⟩
      · exact cancelled.pooled.kept rfl rfl rfl ⟨rfl, rfl, rfl⟩
      · exact cancelled.backed.append rfl
  | fire handle =>
      simp only [step, Option.map_eq_some_iff] at taken
      obtain ⟨timer, found, fired⟩ := taken
      have lawful := lawful.fire (List.mem_of_find?_eq_some found)
      rw [fired] at lawful
      exact lawful
  | settle k succeeded =>
      simp only [step] at taken
      split at taken
      · rename_i execution found
        have lawful := lawful.settle found succeeded
        rw [Option.some.inj taken] at lawful
        exact lawful
      · cases taken
  | finish k =>
      simp only [step] at taken
      split at taken
      · rename_i execution found
        have lawful := lawful.finish found
        rw [Option.some.inj taken] at lawful
        exact lawful
      · cases taken

theorem lawful_observe
    (seen : ReconnectCoordinator × List ReconnectEvent)
    (label : ReconnectStep)
    (next : ReconnectCoordinator × List ReconnectEvent)
    (lawful : seen.1.Lawful seen.2)
    (taken : observe seen label = some next) :
    next.1.Lawful next.2 := by
  obtain ⟨⟨after, new⟩, stepped, rfl⟩ := Option.map_eq_some_iff.mp taken
  exact lawful_step lawful stepped

/-- What the coordinator guarantees: executions start in the order in which their
timers fire, as soon as fewer than three run; a camera has one timer at most;
every timer that was set runs, has fired or was cleared, and only one of these;
and the delays follow the backoff policy. -/
structure Coordinates (c : ReconnectCoordinator) (events : List ReconnectEvent) : Prop where
  started : startedExecutions events =
    (firedExecutions events).take ((finishedExecutions events).length + maxConcurrency)
  waiting : c.pendingExecutions =
    (firedExecutions events).drop ((finishedExecutions events).length + maxConcurrency)
  running : c.runs.length = c.runningCount ∧ c.runningCount ≤ maxConcurrency
  ended : (startedExecutions events).Perm (finishedExecutions events ++ c.runs.map Prod.fst)
  single : (c.timers.map fun timer => timer.execution.id).Nodup
  distinct : (scheduledHandles events).Nodup
  fates : (scheduledHandles events).Perm
    (firedHandles events ++ cancelledHandles events ++ c.timers.map Timer.handle)
  delays : Transition.run backoff (fun _ => 0) events = some c.attempts

/-- The coordinator keeps its guarantees whatever is called, fires or settles, in
any order. -/
theorem reconnects_coordinated
    {labels : List ReconnectStep}
    {c : ReconnectCoordinator}
    {events : List ReconnectEvent}
    (reached : Transition.run observe (ReconnectCoordinator.new, []) labels = some (c, events)) :
    c.Coordinates events := by
  have lawful := run_invariant lawful_observe lawful_new reached
  exact
    { started := lawful.pooled.serves.firsts
      waiting := lawful.pooled.serves.others
      running := ⟨lawful.pooled.counted, lawful.pooled.serves.running_le⟩
      ended := lawful.pooled.ended
      single := lawful.timed.single
      distinct := lawful.timed.scheduled_nodup
      fates := lawful.timed.fates
      delays := lawful.backed }

/-- Four cameras come back at once, one of them is asked for twice, and the first
execution makes room for the fourth. -/
theorem reconnects_coordinated_herd :
    let ask (id : String) : ReconnectStep := .schedule id 0 none none (1 / 2)
    let labels := [ask "a", ask "b", ask "c", ask "b", ask "d", .fire 1, .fire 5, .fire 3, .fire 4,
      .settle 0 true, .finish 0]
    (Transition.run observe (ReconnectCoordinator.new, []) labels).map
        (fun seen => (startedExecutions seen.2).map Execution.id) =
      some ["a", "d", "c", "b"] ∧
    ∀ c events,
      Transition.run observe (ReconnectCoordinator.new, []) labels = some (c, events) →
        c.Coordinates events := by
  intro ask labels
  exact ⟨by decide +kernel, fun c events reached => reconnects_coordinated reached⟩

end ReconnectCoordinator
end Web
end RuseonCore
