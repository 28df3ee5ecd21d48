import RuseonCore.Foundation.Transition

/-!
# Waking and stopping the HLS muxer

`WakeUpHLSMuxer` and the inactivity check of `TickHousekeeping` in
`internal/stream/stream.go`, for a stream in lazy mode.  A call of a viewer
stores the time of its request, looks for a muxer under the mutex, and otherwise
has one created by a shared flight of the `singleflight` group.  A tick loads the
time of the last request before it takes the mutex, and stops the muxer under it.

Muxers are numbered in the order of their creation.  Times are nanoseconds of a
clock that does not go back.  The bitrate and the watchdog of the tick are not
modelled here, nor the end of the stream.
-/

namespace RuseonCore
namespace Streaming

open Transition

/-- How far a call of `WakeUpHLSMuxer` has come. -/
inductive ViewerPhase
  | stored
  | missed
  | waiting (flight : Nat)
  | handed (muxer : Nat)
  deriving DecidableEq

/-- A call of `WakeUpHLSMuxer` and the request time it stored. -/
structure Viewer where
  requested : Int
  phase : ViewerPhase
  deriving DecidableEq

/-- A call of `TickHousekeeping` that is going to stop the muxer, with its time
and the request time it has loaded. -/
structure HousekeepingTick where
  now : Int
  lastReq : Int
  deriving DecidableEq

/-- The lazy muxer of a stream with all calls so far.  A flight holds its
result once its function has run; `wakeup` is the flight in the group. -/
structure LazyHLS where
  clock : Int
  lastHLSRequest : Int
  hlsMuxer : Option Nat
  created : Nat
  flights : List (Option Nat)
  wakeup : Option Nat
  viewers : List Viewer
  ticks : List HousekeepingTick
  stopped : List Nat
  deriving DecidableEq

/-- Atomic steps of viewers and housekeeping, and the passing of time. -/
inductive LazyStep
  | elapse (time : Nat)
  | request
  | read (viewer : Nat)
  | join (viewer : Nat)
  | create
  | land
  | wake (viewer : Nat)
  | load (now : Int)
  | stop (tick : Nat)
  deriving DecidableEq

/-- Inactivity after which the muxer is stopped. -/
def inactivity : Int := 60 * 10 ^ 9

namespace LazyHLS

/-- A new stream in lazy mode. -/
def start (clock : Nat) : LazyHLS where
  clock := clock
  lastHLSRequest := 0
  hlsMuxer := none
  created := 0
  flights := []
  wakeup := none
  viewers := []
  ticks := []
  stopped := []

/-- Move a viewer to another phase. -/
def advance (state : LazyHLS) (viewer : Nat) (phase : ViewerPhase) : LazyHLS :=
  { state with
    viewers := state.viewers.modify viewer
      fun call => { call with phase := phase } }

/-- Enter the flight in the group, or start one. -/
def joinFlight (state : LazyHLS) (viewer : Nat) : LazyHLS :=
  match state.wakeup with
  | some flight => state.advance viewer (.waiting flight)
  | none =>
      { state with
        flights := state.flights ++ [none]
        wakeup := some state.flights.length }.advance viewer
          (.waiting state.flights.length)

/-- The function of a flight: create a muxer unless there is one. -/
def wakeUp (state : LazyHLS) (flight : Nat) : LazyHLS :=
  match state.hlsMuxer with
  | some muxer =>
      { state with flights := state.flights.set flight (some muxer) }
  | none =>
      { state with
        hlsMuxer := some state.created
        created := state.created + 1
        flights := state.flights.set flight (some state.created) }

/-- Effect of one step. -/
def step (state : LazyHLS) : LazyStep → Option LazyHLS
  | .elapse time => some { state with clock := state.clock + time }
  | .request =>
      some
        { state with
          lastHLSRequest := state.clock
          viewers := state.viewers ++
            [{ requested := state.clock, phase := .stored }] }
  | .read viewer =>
      if state.viewers[viewer]?.map Viewer.phase = some .stored then
        match state.hlsMuxer with
        | some muxer => some (state.advance viewer (.handed muxer))
        | none => some (state.advance viewer .missed)
      else none
  | .join viewer =>
      if state.viewers[viewer]?.map Viewer.phase = some .missed then
        some (state.joinFlight viewer)
      else none
  | .create =>
      match state.wakeup with
      | some flight =>
          if state.flights[flight]? = some none then some (state.wakeUp flight)
          else none
      | none => none
  | .land =>
      match state.wakeup with
      | some flight =>
          if state.flights[flight]? = some none then none
          else some { state with wakeup := none }
      | none => none
  | .wake viewer =>
      match state.viewers[viewer]?.map Viewer.phase with
      | some (.waiting flight) =>
          if state.wakeup = some flight then none
          else
            (state.flights[flight]?.join).map fun muxer =>
              state.advance viewer (.handed muxer)
      | _ => none
  | .load now =>
      if now ≤ state.clock then
        if 0 < state.lastHLSRequest ∧ inactivity < now - state.lastHLSRequest then
          some
            { state with
              ticks := state.ticks ++
                [{ now := now, lastReq := state.lastHLSRequest }] }
        else some state
      else none
  | .stop tick =>
      if tick < state.ticks.length then
        some
          { state with
            ticks := state.ticks.eraseIdx tick
            hlsMuxer := none
            stopped := state.stopped ++ state.hlsMuxer.toList }
      else none

/-- When a muxer is stopped, every request was stored more than sixty seconds
before, in particular those of the viewers who were handed this muxer. -/
def StopsIdle (state : LazyHLS) : LazyStep → Prop
  | .stop _ => ∀ muxer, state.hlsMuxer = some muxer →
      ∀ viewer ∈ state.viewers, viewer.requested + inactivity < state.clock
  | _ => True

/-- No request is stored while a tick is between its load and its stop. -/
def Undisturbed (state : LazyHLS) : LazyStep → Prop
  | .request => state.ticks = []
  | _ => True

/-- Request times stored so far. -/
def requests (state : LazyHLS) : List Int := state.viewers.map Viewer.requested

/-- The last request is the latest one, and more than sixty seconds old while a
tick is going to stop the muxer. -/
structure Timed (state : LazyHLS) : Prop where
  past : state.lastHLSRequest ≤ state.clock
  latest : ∀ time ∈ state.requests, time ≤ state.lastHLSRequest
  idle : state.ticks ≠ [] → state.lastHLSRequest + inactivity < state.clock

/-- A step that only moves viewers and flights on. -/
structure Untimed (state next : LazyHLS) : Prop where
  clock : next.clock = state.clock
  lastHLSRequest : next.lastHLSRequest = state.lastHLSRequest
  requests : next.requests = state.requests
  ticks : next.ticks = state.ticks

/-- Moving a viewer on keeps its request time. -/
theorem untimed_advance (state : LazyHLS) (viewer : Nat) (phase : ViewerPhase) :
    Untimed state (state.advance viewer phase) where
  clock := rfl
  lastHLSRequest := rfl
  requests := by
    apply List.ext_getElem?
    intro position
    simp only [requests, advance, List.getElem?_map, List.getElem?_modify]
    cases state.viewers[position]? with
    | none => rfl
    | some call => by_cases same : viewer = position <;> simp [same]
  ticks := rfl

/-- Entering a flight moves only the viewer on. -/
theorem untimed_joinFlight (state : LazyHLS) (viewer : Nat) :
    Untimed state (state.joinFlight viewer) := by
  unfold joinFlight
  split
  · exact untimed_advance state viewer _
  · have advanced := untimed_advance
      { state with
        flights := state.flights ++ [none]
        wakeup := some state.flights.length } viewer
      (.waiting state.flights.length)
    exact ⟨advanced.clock, advanced.lastHLSRequest, advanced.requests,
      advanced.ticks⟩

/-- The function of a flight touches the muxer only. -/
theorem untimed_wakeUp (state : LazyHLS) (flight : Nat) :
    Untimed state (state.wakeUp flight) := by
  unfold wakeUp
  split <;> exact ⟨rfl, rfl, rfl, rfl⟩

/-- What a step does to the times. -/
inductive Effect (state : LazyHLS) : LazyStep → LazyHLS → Prop
  | elapse (time : Nat) :
      Effect state (.elapse time) { state with clock := state.clock + time }
  | request :
      Effect state .request
        { state with
          lastHLSRequest := state.clock
          viewers := state.viewers ++
            [{ requested := state.clock, phase := .stored }] }
  | load (now : Int)
      (reached : now ≤ state.clock)
      (positive : 0 < state.lastHLSRequest)
      (inactive : inactivity < now - state.lastHLSRequest) :
      Effect state (.load now)
        { state with
          ticks := state.ticks ++
            [{ now := now, lastReq := state.lastHLSRequest }] }
  | stop (tick : Nat) (present : tick < state.ticks.length) :
      Effect state (.stop tick)
        { state with
          ticks := state.ticks.eraseIdx tick
          hlsMuxer := none
          stopped := state.stopped ++ state.hlsMuxer.toList }
  | untimed (label : LazyStep) (next : LazyHLS) (untimed : Untimed state next) :
      Effect state label next

/-- Every enabled step has one of the listed effects. -/
theorem effect_of_step
    {state next : LazyHLS}
    {label : LazyStep}
    (taken : state.step label = some next) :
    Effect state label next := by
  cases label with
  | elapse time =>
      rw [← Option.some.inj taken]
      exact .elapse time
  | request =>
      rw [← Option.some.inj taken]
      exact .request
  | read viewer =>
      rw [step, Option.ite_none_right_eq_some] at taken
      obtain ⟨_, taken⟩ := taken
      split at taken
      · rw [← Option.some.inj taken]
        exact .untimed _ _ (untimed_advance state viewer _)
      · rw [← Option.some.inj taken]
        exact .untimed _ _ (untimed_advance state viewer _)
  | join viewer =>
      rw [step, Option.ite_none_right_eq_some] at taken
      rw [← Option.some.inj taken.2]
      exact .untimed _ _ (untimed_joinFlight state viewer)
  | create =>
      rw [step] at taken
      split at taken
      · rw [Option.ite_none_right_eq_some] at taken
        rw [← Option.some.inj taken.2]
        exact .untimed _ _ (untimed_wakeUp state _)
      · cases taken
  | land =>
      rw [step] at taken
      split at taken
      · rw [Option.ite_none_left_eq_some] at taken
        rw [← Option.some.inj taken.2]
        exact .untimed _ _ ⟨rfl, rfl, rfl, rfl⟩
      · cases taken
  | wake viewer =>
      rw [step] at taken
      split at taken
      · rw [Option.ite_none_left_eq_some] at taken
        obtain ⟨muxer, _, rfl⟩ := Option.map_eq_some_iff.mp taken.2
        exact .untimed _ _ (untimed_advance state viewer _)
      · cases taken
  | load now =>
      rw [step, Option.ite_none_right_eq_some] at taken
      obtain ⟨reached, taken⟩ := taken
      split at taken
      · rename_i inactive
        rw [← Option.some.inj taken]
        exact .load now reached inactive.1 inactive.2
      · rw [← Option.some.inj taken]
        exact .untimed _ _ ⟨rfl, rfl, rfl, rfl⟩
  | stop tick =>
      rw [step, Option.ite_none_right_eq_some] at taken
      rw [← Option.some.inj taken.2]
      exact .stop tick taken.1

/-- The times stay in order when viewers and flights move on. -/
theorem Timed.untimed
    {state next : LazyHLS}
    (timed : state.Timed)
    (untimed : Untimed state next) :
    next.Timed where
  past := by
    rw [untimed.lastHLSRequest, untimed.clock]
    exact timed.past
  latest := by
    rw [untimed.requests, untimed.lastHLSRequest]
    exact timed.latest
  idle := by
    rw [untimed.ticks, untimed.lastHLSRequest, untimed.clock]
    exact timed.idle

/-- A request becomes the last one. -/
theorem Timed.request
    {state : LazyHLS}
    (timed : state.Timed)
    (undisturbed : state.ticks = []) :
    Timed
      { state with
        lastHLSRequest := state.clock
        viewers := state.viewers ++
          [{ requested := state.clock, phase := .stored }] } where
  past := le_rfl
  latest := by
    intro time member
    rw [requests, List.map_append, List.mem_append] at member
    rcases member with old | new
    · exact (timed.latest time old).trans timed.past
    · exact (List.mem_singleton.mp new).le
  idle := fun stopping => absurd undisturbed stopping

/-- The times stay in order as long as no request comes between a load and a
stop. -/
theorem Timed.step
    {state next : LazyHLS}
    {label : LazyStep}
    (timed : state.Timed)
    (undisturbed : state.Undisturbed label)
    (taken : state.step label = some next) :
    next.Timed := by
  have past := timed.past
  cases effect_of_step taken with
  | elapse time =>
      refine ⟨by simp only; omega, timed.latest, fun stopping => ?_⟩
      have idle := timed.idle stopping
      simp only
      omega
  | request => exact timed.request undisturbed
  | load now reached positive inactive =>
      refine ⟨past, timed.latest, fun _ => ?_⟩
      simp only
      omega
  | stop tick present =>
      exact ⟨past, timed.latest, fun _ => timed.idle (List.ne_nil_of_length_pos (by omega))⟩
  | untimed _ _ untimed => exact timed.untimed untimed

/-- With the times in order, a stop finds the muxer idle. -/
theorem Timed.stopsIdle
    {state next : LazyHLS}
    {label : LazyStep}
    (timed : state.Timed)
    (taken : state.step label = some next) :
    state.StopsIdle label := by
  cases label with
  | stop tick =>
      rw [LazyHLS.step, Option.ite_none_right_eq_some] at taken
      have idle := timed.idle (List.ne_nil_of_length_pos (by omega))
      intro muxer _ viewer member
      have earlier := timed.latest viewer.requested (List.mem_map_of_mem member)
      omega
  | elapse | request | read | join | create | land | wake | load => trivial

/-- In an interleaving of viewers and housekeeping, a muxer is stopped for
inactivity only when no request was stored in the sixty seconds before the stop, if
no request is stored after a tick has loaded the last one and before it stops the
muxer. -/
theorem stopped_only_when_idle_of_undisturbed
    (clock : Nat)
    (labels : List LazyStep)
    {state : LazyHLS}
    (reached : run step (start clock) labels = some state)
    (undisturbed : Meets step Undisturbed (start clock) labels) :
    Meets step StopsIdle (start clock) labels := by
  have initial : (start clock).Timed := by
    refine ⟨?_, by simp [start, requests], by simp [start]⟩
    simp [start]
  exact undisturbed.imp (fun _ _ _ timed met taken => Timed.step timed met taken)
    (fun _ _ _ timed _ taken => Timed.stopsIdle timed taken) initial reached

instance (state : LazyHLS) (label : LazyStep) :
    Decidable (state.StopsIdle label) :=
  match label with
  | .stop _ => inferInstanceAs (Decidable
      (∀ muxer ∈ state.hlsMuxer, ∀ viewer ∈ state.viewers,
        viewer.requested + inactivity < state.clock))
  | .elapse _ | .request | .read _ | .join _ | .create | .land | .wake _
  | .load _ => inferInstanceAs (Decidable True)

instance (state : LazyHLS) (label : LazyStep) :
    Decidable (state.Undisturbed label) :=
  match label with
  | .request => inferInstanceAs (Decidable (state.ticks = []))
  | .elapse _ | .read _ | .join _ | .create | .land | .wake _ | .load _
  | .stop _ => inferInstanceAs (Decidable True)

/-- Two viewers share a flight, and leave; after sixty-one seconds housekeeping
stops their muxer. -/
def abandoned : List LazyStep :=
  [.request, .read 0, .join 0, .request, .read 1, .join 1, .create, .land, .wake 1,
    .wake 0, .elapse (61 * 10 ^ 9), .load (62 * 10 ^ 9), .stop 0]

theorem stopped_only_when_idle_of_undisturbed_abandoned :
    ∃ state, run step (start (10 ^ 9)) abandoned = some state ∧
      state.stopped = [0] ∧
      Meets step StopsIdle (start (10 ^ 9)) abandoned := by
  have stops : (run step (start (10 ^ 9)) abandoned).map LazyHLS.stopped =
      some [0] := by
    decide
  obtain ⟨state, reached, stopped⟩ := Option.map_eq_some_iff.mp stops
  refine ⟨state, reached, stopped, ?_⟩
  exact stopped_only_when_idle_of_undisturbed (10 ^ 9) abandoned reached (by decide)

/-- A viewer comes back after sixty-one seconds, between the load of the last
request by housekeeping and its stop of the muxer. -/
def returning : List LazyStep :=
  [.request, .read 0, .join 0, .create, .land, .wake 0, .elapse (61 * 10 ^ 9),
    .load (62 * 10 ^ 9), .request, .read 1, .stop 0]

/-- The viewer is handed a muxer that is stopped in the same instant. -/
theorem stopped_under_viewer :
    ∃ state, run step (start (10 ^ 9)) returning = some state ∧
      state.stopped = [0] ∧
      state.viewers[1]? =
        some { requested := state.clock, phase := .handed 0 } ∧
      ¬ Meets step StopsIdle (start (10 ^ 9)) returning := by
  have outcome : (run step (start (10 ^ 9)) returning).map
      (fun state => (state.stopped, state.viewers[1]?, state.clock)) =
      some ([0], some { requested := 62 * 10 ^ 9, phase := .handed 0 },
        62 * 10 ^ 9) := by
    decide
  obtain ⟨state, reached, same⟩ := Option.map_eq_some_iff.mp outcome
  simp only [Prod.mk.injEq] at same
  exact ⟨state, reached, same.1, by rw [same.2.1, same.2.2], by decide⟩

end LazyHLS
end Streaming
end RuseonCore
