import RuseonCore.Buffer.RingBuffer
import RuseonCore.Foundation.Census
import RuseonCore.Foundation.Transition

/-!
# The ingest loop of a stream

Model of `run` in `internal/stream/stream.go`: connect, receive frames until the
session ends, publish the loss, wait with exponential backoff, connect again.
The callback that receives a frame runs on goroutines of the RTSP library,
possibly several at a time, and changes the stream with atomic operations; each
of them is a step of its own, and so are the load and the swap of the state in
the loop.  The library has ended its callbacks when the session ends.  From then
on only a cancellation can come between the statements of the loop: storing the
error and publishing the loss are one step, and so are counting the session,
looking at the context and choosing the delay, and the recovery from a panic.

Streams of one camera share a gauge, since a stream that replaces another one
is created before the other is stopped.  A stream reports what it adds to the
gauge, the events it publishes and the delays it waits; times of telemetry and
log messages are left out.
-/

namespace RuseonCore
namespace Streaming

open Transition Buffer

/-- Connectivity of a camera. -/
inductive CameraState
  | connecting
  | online
  | degraded
  | offline
  | disabled
  deriving DecidableEq

/-- The statement of the frame callback that comes next. -/
inductive Callback
  | loading (frame : Frame)
  | swapping (frame : Frame) (oldState : CameraState)
  | entering (frame : Frame)
  | resetting (frame : Frame)
  | raising (frame : Frame)
  | announcing (frame : Frame)
  | counting (frame : Frame)
  | countingKey (frame : Frame)
  | writing (frame : Frame)
  | returned
  deriving DecidableEq

/-- The statement of `run` that comes next.  `err` is what `Start` returned. -/
inductive RunPhase
  | synthetic
  | checking
  | receiving
  | loading (err : Option String)
  | swapping (oldState : CameraState) (err : Option String)
  | leaving (err : Option String)
  | announcing (err : Option String)
  | backingOff
  | sleeping (delay : Nat)
  | exited
  | panicked (wasOnline : Bool)
  deriving DecidableEq

/-- A stream: the fields that its ingest uses, what it has written to its ring
buffer, and where its goroutines are. -/
structure Ingest where
  id : String
  cancelled : Bool
  state : CameraState
  lastError : String
  reconnects : UInt64
  bytesReceived : UInt64
  framesReceived : UInt64
  keyFramesReceived : UInt64
  written : List Frame
  phase : RunPhase
  callbacks : List Callback
  deriving DecidableEq

/-- Steps of one stream: cancellation of its context, the head of the loop, a
frame, the next statement of a callback, the end of a session by a returned
error or a panic, the next statement of the loop with the clock it reads, and
the two ways to end a wait. -/
inductive IngestStep
  | cancel
  | check
  | frame (frame : Frame)
  | callback (k : Nat)
  | ended (err : Option String)
  | panics (text : String)
  | proceed (unixNano : Nat)
  | wake
  | stop
  deriving DecidableEq

/-- What a stream lets others know: events on the bus, and the delay before the
next connection in milliseconds. -/
inductive Signal
  | cameraOnline
  | cameraOffline (error : String)
  | reconnectDelay (ms : Nat)
  deriving DecidableEq

/-- URLs of streams that are fed in memory. -/
def isSynthetic (url : String) : Bool :=
  url == "" || url == "synthetic" || "synthetic://".toList.isPrefixOf url.toList

/-- Bytes of a frame. -/
def frameSize (frame : Frame) : Nat :=
  (frame.nalus.map List.length).sum

/-- Seconds to wait before the next connection. -/
def backoffSec (reconnects : UInt64) : Nat :=
  let recs := if reconnects > 6 then 6 else reconnects
  let backoff := 1 <<< recs.toNat
  let backoff := if backoff > 60 then 60 else backoff
  if backoff < 1 then 1 else backoff

namespace Ingest

/-- `NewStream`. -/
def new (id url : String) : Ingest where
  id := id
  cancelled := false
  state := .connecting
  lastError := ""
  reconnects := 0
  bytesReceived := 0
  framesReceived := 0
  keyFramesReceived := 0
  written := []
  phase := if isSynthetic url then .synthetic else .checking
  callbacks := []

/-- The next statement of a callback, with its change of the gauge. -/
def advance (s : Ingest) (k : Nat) : Callback → Option (Ingest × Int × List Signal)
  | .loading frame =>
      let next := if s.state ≠ .online then .swapping frame s.state else .counting frame
      some ({ s with callbacks := s.callbacks.set k next }, 0, [])
  | .swapping frame oldState =>
      if s.state = oldState then
        some ({ s with state := .online, callbacks := s.callbacks.set k (.entering frame) }, 0, [])
      else some ({ s with callbacks := s.callbacks.set k (.counting frame) }, 0, [])
  | .entering frame =>
      some
        ({ s with lastError := "", callbacks := s.callbacks.set k (.resetting frame) }, 0, [])
  | .resetting frame =>
      some ({ s with reconnects := 0, callbacks := s.callbacks.set k (.raising frame) }, 0, [])
  | .raising frame => some ({ s with callbacks := s.callbacks.set k (.announcing frame) }, 1, [])
  | .announcing frame =>
      some ({ s with callbacks := s.callbacks.set k (.counting frame) }, 0, [.cameraOnline])
  | .counting frame =>
      some
        ({ s with
            framesReceived := s.framesReceived + 1
            callbacks := s.callbacks.set k (.countingKey frame) }, 0, [])
  | .countingKey frame =>
      some
        ({ s with
            keyFramesReceived :=
              if frame.isKeyFrame then s.keyFramesReceived + 1 else s.keyFramesReceived
            callbacks := s.callbacks.set k (.writing frame) }, 0, [])
  | .writing frame =>
      some
        ({ s with
            written := s.written ++ [frame], callbacks := s.callbacks.set k .returned }, 0, [])
  | .returned => none

/-- The next statement of the loop after the session has ended. -/
def proceed (s : Ingest) (unixNano : Nat) : Option (Ingest × Int × List Signal) :=
  match s.phase with
  | .loading err => some ({ s with phase := .swapping s.state err }, 0, [])
  | .swapping oldState err =>
      if s.state = oldState then
        let next := if oldState = .online then RunPhase.leaving err else .announcing err
        some ({ s with state := .offline, phase := next }, 0, [])
      else some ({ s with phase := .announcing err }, 0, [])
  | .leaving err => some ({ s with phase := .announcing err }, -1, [])
  | .announcing err =>
      some
        ({ s with lastError := err.getD s.lastError, phase := .backingOff }, 0,
          [.cameraOffline (err.getD "")])
  | .backingOff =>
      let reconnects := s.reconnects + 1
      if s.cancelled then some ({ s with reconnects := reconnects, phase := .exited }, 0, [])
      else
        let delay := backoffSec reconnects * 1000 + unixNano % 500
        some
          ({ s with reconnects := reconnects, phase := .sleeping delay }, 0,
            [.reconnectDelay delay])
  | _ => none

/-- Effect of one step, its change of the gauge and what it signals. -/
def step (s : Ingest) : IngestStep → Option (Ingest × Int × List Signal)
  | .cancel => some ({ s with cancelled := true }, 0, [])
  | .check =>
      if s.phase = .checking then
        if s.cancelled then some ({ s with phase := .exited }, 0, [])
        else some ({ s with phase := .receiving, callbacks := [] }, 0, [])
      else none
  | .frame frame =>
      if s.phase = .receiving then
        some
          ({ s with
              bytesReceived := s.bytesReceived + UInt64.ofNat (frameSize frame)
              callbacks := s.callbacks ++ [.loading frame] }, 0, [])
      else none
  | .callback k =>
      if s.phase = .receiving then (s.callbacks[k]?).bind (s.advance k) else none
  | .ended err =>
      if s.phase = .receiving ∧ ∀ callback ∈ s.callbacks, callback = .returned then
        some ({ s with phase := .loading err }, 0, [])
      else none
  | .panics text =>
      if s.phase = .receiving ∧ ∀ callback ∈ s.callbacks, callback = .returned then
        some
          ({ s with
              state := .offline
              lastError := s!"panic: {text}"
              phase := .panicked (s.state = .online) }, 0, [])
      else none
  | .proceed unixNano => s.proceed unixNano
  | .wake =>
      match s.phase with
      | .sleeping _ => some ({ s with phase := .checking }, 0, [])
      | _ => none
  | .stop =>
      if s.cancelled then
        match s.phase with
        | .sleeping _ | .synthetic => some ({ s with phase := .exited }, 0, [])
        | _ => none
      else none

/-- What a step can do to a stream, to the gauge and to those who listen. -/
inductive Effect (s : Ingest) : Ingest → Int → List Signal → Prop
  | cancelled : Effect s { s with cancelled := true } 0 []
  | connecting (phase : s.phase = .checking) :
      Effect s { s with phase := .receiving, callbacks := [] } 0 []
  | arrived (frame : Frame) (phase : s.phase = .receiving) :
      Effect s
        { s with
          bytesReceived := s.bytesReceived + UInt64.ofNat (frameSize frame)
          callbacks := s.callbacks ++ [.loading frame] } 0 []
  | loaded {k : Nat} {frame : Frame} (phase : s.phase = .receiving)
      (found : s.callbacks[k]? = some (.loading frame)) (offline : s.state ≠ .online) :
      Effect s { s with callbacks := s.callbacks.set k (.swapping frame s.state) } 0 []
  | swapped {k : Nat} {frame : Frame} (phase : s.phase = .receiving)
      (found : s.callbacks[k]? = some (.swapping frame s.state)) :
      Effect s
        { s with state := .online, callbacks := s.callbacks.set k (.entering frame) } 0 []
  | passed {k : Nat} {frame : Frame} {callback : Callback} (phase : s.phase = .receiving)
      (found : s.callbacks[k]? = some callback)
      (passes : callback = .loading frame ∨ ∃ oldState, callback = .swapping frame oldState) :
      Effect s { s with callbacks := s.callbacks.set k (.counting frame) } 0 []
  | entered {k : Nat} {frame : Frame} (phase : s.phase = .receiving)
      (found : s.callbacks[k]? = some (.entering frame)) :
      Effect s
        { s with lastError := "", callbacks := s.callbacks.set k (.resetting frame) } 0 []
  | reset {k : Nat} {frame : Frame} (phase : s.phase = .receiving)
      (found : s.callbacks[k]? = some (.resetting frame)) :
      Effect s { s with reconnects := 0, callbacks := s.callbacks.set k (.raising frame) } 0 []
  | raised {k : Nat} {frame : Frame} (phase : s.phase = .receiving)
      (found : s.callbacks[k]? = some (.raising frame)) :
      Effect s { s with callbacks := s.callbacks.set k (.announcing frame) } 1 []
  | announced {k : Nat} {frame : Frame} (phase : s.phase = .receiving)
      (found : s.callbacks[k]? = some (.announcing frame)) :
      Effect s { s with callbacks := s.callbacks.set k (.counting frame) } 0 [.cameraOnline]
  | counted {k : Nat} {frame : Frame} (phase : s.phase = .receiving)
      (found : s.callbacks[k]? = some (.counting frame)) :
      Effect s
        { s with
          framesReceived := s.framesReceived + 1
          callbacks := s.callbacks.set k (.countingKey frame) } 0 []
  | countedKey {k : Nat} {frame : Frame} (phase : s.phase = .receiving)
      (found : s.callbacks[k]? = some (.countingKey frame)) :
      Effect s
        { s with
          keyFramesReceived :=
            if frame.isKeyFrame then s.keyFramesReceived + 1 else s.keyFramesReceived
          callbacks := s.callbacks.set k (.writing frame) } 0 []
  | wrote {k : Nat} {frame : Frame} (phase : s.phase = .receiving)
      (found : s.callbacks[k]? = some (.writing frame)) :
      Effect s
        { s with written := s.written ++ [frame], callbacks := s.callbacks.set k .returned } 0 []
  | ended (err : Option String) (phase : s.phase = .receiving)
      (done : ∀ callback ∈ s.callbacks, callback = .returned) :
      Effect s { s with phase := .loading err } 0 []
  | panicked (text : String) (phase : s.phase = .receiving)
      (done : ∀ callback ∈ s.callbacks, callback = .returned) :
      Effect s
        { s with
          state := .offline
          lastError := s!"panic: {text}"
          phase := .panicked (s.state = .online) } 0 []
  | looked {err : Option String} (phase : s.phase = .loading err) :
      Effect s { s with phase := .swapping s.state err } 0 []
  | lost {err : Option String} (phase : s.phase = .swapping .online err)
      (same : s.state = .online) :
      Effect s { s with state := .offline, phase := .leaving err } 0 []
  | failed {oldState : CameraState} {err : Option String} (state : CameraState)
      (phase : s.phase = .swapping oldState err)
      (tried : s.state = oldState → oldState ≠ .online)
      (stays : state = if s.state = oldState then .offline else s.state) :
      Effect s { s with state := state, phase := .announcing err } 0 []
  | left {err : Option String} (phase : s.phase = .leaving err) :
      Effect s { s with phase := .announcing err } (-1) []
  | published {err : Option String} (phase : s.phase = .announcing err) :
      Effect s { s with lastError := err.getD s.lastError, phase := .backingOff } 0
        [.cameraOffline (err.getD "")]
  | stopped (phase : s.phase = .backingOff) :
      Effect s { s with reconnects := s.reconnects + 1, phase := .exited } 0 []
  | delayed {delay : Nat} (jitter : Nat) (phase : s.phase = .backingOff)
      (small : jitter < 500)
      (exact : delay = backoffSec (s.reconnects + 1) * 1000 + jitter) :
      Effect s { s with reconnects := s.reconnects + 1, phase := .sleeping delay } 0
        [.reconnectDelay delay]
  | woken {delay : Nat} (phase : s.phase = .sleeping delay) :
      Effect s { s with phase := .checking } 0 []
  | exited
      (phase : s.phase = .checking ∨ s.phase = .synthetic ∨ ∃ delay, s.phase = .sleeping delay) :
      Effect s { s with phase := .exited } 0 []

section Effects

variable {s next : Ingest} {change : Int} {signals : List Signal}

theorem effect_of_advance
    {k : Nat}
    {callback : Callback}
    (phase : s.phase = .receiving)
    (found : s.callbacks[k]? = some callback)
    (taken : s.advance k callback = some (next, change, signals)) :
    Effect s next change signals := by
  cases callback with
  | loading frame =>
      simp only [advance] at taken
      cases taken
      by_cases online : s.state = .online
      · rw [if_neg (not_not.mpr online)]
        exact .passed phase found (Or.inl rfl)
      · rw [if_pos online]
        exact .loaded phase found online
  | swapping frame oldState =>
      simp only [advance] at taken
      split at taken <;> cases taken
      · rename_i same
        exact .swapped phase (same ▸ found)
      · exact .passed phase found (Or.inr ⟨oldState, rfl⟩)
  | returned => cases taken
  | _ =>
      simp only [advance] at taken
      cases taken
      first
        | exact .entered phase found
        | exact .reset phase found
        | exact .raised phase found
        | exact .announced phase found
        | exact .counted phase found
        | exact .countedKey phase found
        | exact .wrote phase found

theorem effect_of_proceed
    {unixNano : Nat}
    (taken : s.proceed unixNano = some (next, change, signals)) :
    Effect s next change signals := by
  cases phase : s.phase with
  | loading err =>
      simp only [proceed, phase] at taken
      cases taken
      exact .looked phase
  | swapping oldState err =>
      simp only [proceed, phase] at taken
      split at taken <;> cases taken
      · rename_i same
        by_cases online : oldState = .online
        · subst online
          exact .lost phase same
        · rw [if_neg online]
          exact .failed .offline phase (fun _ => online) (if_pos same).symm
      · rename_i other
        exact .failed s.state phase (fun same => absurd same other) (if_neg other).symm
  | leaving err =>
      simp only [proceed, phase] at taken
      cases taken
      exact .left phase
  | announcing err =>
      simp only [proceed, phase] at taken
      cases taken
      exact .published phase
  | backingOff =>
      simp only [proceed, phase] at taken
      split at taken <;> cases taken
      · exact .stopped phase
      · exact .delayed (unixNano % 500) phase (Nat.mod_lt _ (by decide)) rfl
  | _ => simp [proceed, phase] at taken

theorem effect_of_step
    {label : IngestStep}
    (taken : s.step label = some (next, change, signals)) :
    Effect s next change signals := by
  cases label with
  | cancel =>
      simp only [step] at taken
      cases taken
      exact .cancelled
  | check =>
      obtain ⟨phase, taken⟩ := Option.ite_none_right_eq_some.mp taken
      split at taken <;> cases taken
      · exact .exited (Or.inl phase)
      · exact .connecting phase
  | frame frame =>
      obtain ⟨phase, taken⟩ := Option.ite_none_right_eq_some.mp taken
      cases taken
      exact .arrived frame phase
  | callback k =>
      obtain ⟨phase, taken⟩ := Option.ite_none_right_eq_some.mp taken
      obtain ⟨callback, found, advanced⟩ := Option.bind_eq_some_iff.mp taken
      exact effect_of_advance phase found advanced
  | ended err =>
      obtain ⟨⟨phase, done⟩, taken⟩ := Option.ite_none_right_eq_some.mp taken
      cases taken
      exact .ended err phase done
  | panics text =>
      obtain ⟨⟨phase, done⟩, taken⟩ := Option.ite_none_right_eq_some.mp taken
      cases taken
      exact .panicked text phase done
  | proceed unixNano => exact effect_of_proceed taken
  | wake =>
      simp only [step] at taken
      split at taken
      · rename_i delay phase
        cases taken
        exact .woken phase
      · cases taken
  | stop =>
      obtain ⟨_, taken⟩ := Option.ite_none_right_eq_some.mp taken
      split at taken <;> cases taken
      · rename_i delay phase
        exact .exited (Or.inr (Or.inr ⟨delay, phase⟩))
      · rename_i phase
        exact .exited (Or.inr (Or.inl phase))

/-- A stream stays with its camera. -/
theorem Effect.id_eq (effect : Effect s next change signals) : next.id = s.id := by
  cases effect <;> rfl

end Effects

end Ingest

namespace Callback

/-- One for a callback that has swapped the state and not yet counted the
stream. -/
def arrives : Callback → Int
  | .entering _ | .resetting _ | .raising _ => 1
  | _ => 0

/-- One for a callback that has swapped the state and not yet published that. -/
def comes : Callback → Int
  | .entering _ | .resetting _ | .raising _ | .announcing _ => 1
  | _ => 0

theorem arrives_le_comes (callback : Callback) : callback.arrives ≤ callback.comes := by
  cases callback <;> simp [arrives, comes]

end Callback

namespace Ingest

/-- The stream is online. -/
def online (s : Ingest) : Int := if s.state = .online then 1 else 0

/-- Callbacks that have swapped the state and not yet counted the stream. -/
def arriving (s : Ingest) : Int := Census.total Callback.arrives s.callbacks

/-- Callbacks that have swapped the state and not yet published that. -/
def coming (s : Ingest) : Int := Census.total Callback.comes s.callbacks

/-- The loop has swapped the state back and not yet discounted the stream, or
has ended in a panic before it could. -/
def departing (s : Ingest) : Int :=
  match s.phase with
  | .leaving _ | .panicked true => 1
  | _ => 0

/-- What the stream contributes to the gauge of its camera. -/
def counted (s : Ingest) : Int := s.online - s.arriving + s.departing

/-- The state that each statement of the loop finds. -/
def Stage (s : Ingest) : Prop :=
  match s.phase with
  | .receiving | .loading _ => True
  | .swapping oldState _ => oldState = s.state
  | _ => s.state ≠ .online

/-- One callback at most has swapped the state and not yet published that, and
then the stream is online; a callback that will swap has seen it offline; and no
callback runs outside of a session. -/
structure Invariant (s : Ingest) : Prop where
  stage : s.Stage
  single : s.coming ≤ s.online
  stale : ∀ frame oldState, .swapping frame oldState ∈ s.callbacks → oldState ≠ .online
  done : s.phase ≠ .receiving → ∀ callback ∈ s.callbacks, callback = .returned

theorem invariant_new (id url : String) : (new id url).Invariant where
  stage := by
    unfold Stage new
    cases isSynthetic url <;> simp
  single := by simp [new, coming, online]
  stale := by simp [new]
  done := by simp [new]

section Callbacks

variable {s next : Ingest} {k : Nat} {callback after : Callback} {change : Int}
  (invariant : s.Invariant)
  (receiving : s.phase = .receiving)
  (found : s.callbacks[k]? = some callback)
  (phase : next.phase = s.phase)
  (callbacks : next.callbacks = s.callbacks.set k after)
  (fresh : ∀ frame oldState, after = .swapping frame oldState → oldState ≠ .online)

include invariant receiving found phase callbacks fresh

/-- A callback moves on within the session. -/
theorem Invariant.moved
    (single : s.coming + (after.comes - callback.comes) ≤ next.online)
    (balance : next.online - s.online = after.arrives - callback.arrives + change) :
    next.Invariant ∧ next.counted = s.counted + change := by
  have same : next.phase = .receiving := phase.trans receiving
  refine ⟨⟨by simp [Stage, same], ?_, fun frame oldState member => ?_,
    fun outside => absurd same outside⟩, ?_⟩
  · rw [coming, callbacks, Census.total_set _ found]
    exact single
  · rw [callbacks] at member
    rcases List.mem_or_eq_of_mem_set member with old | new
    · exact invariant.stale frame oldState old
    · exact fresh frame oldState new.symm
  · rw [counted, counted, arriving, callbacks, Census.total_set _ found, departing, phase,
      departing, arriving]
    omega

/-- A callback moves on without touching the state. -/
theorem Invariant.kept
    (state : next.state = s.state)
    (comes : after.comes ≤ callback.comes)
    (arrives : after.arrives + change = callback.arrives) :
    next.Invariant ∧ next.counted = s.counted + change := by
  have single := invariant.single
  have same : next.online = s.online := by rw [online, online, state]
  refine invariant.moved receiving found phase callbacks fresh ?_ ?_ <;> rw [same] <;> omega

end Callbacks

section Loop

variable {s next : Ingest} {change : Int} {signals : List Signal}

/-- Callbacks that have returned are in nobody's way. -/
theorem quiet_of_returned
    (done : ∀ callback ∈ s.callbacks, callback = .returned) :
    s.coming = 0 ∧ s.arriving = 0 := by
  constructor <;> refine Census.total_eq_zero fun callback member => ?_ <;>
    rw [done callback member] <;> rfl

/-- The loop moves on while no callback runs. -/
theorem invariant_outside
    (done : ∀ callback ∈ s.callbacks, callback = .returned)
    (callbacks : next.callbacks = s.callbacks)
    (stage : next.Stage)
    (balance : next.online + next.departing = s.online + s.departing + change) :
    next.Invariant ∧ next.counted = s.counted + change := by
  have still : ∀ callback ∈ next.callbacks, callback = .returned := callbacks ▸ done
  refine ⟨⟨stage, ?_, fun frame oldState member => ?_, fun _ => still⟩, ?_⟩
  · rw [(quiet_of_returned still).1]
    unfold online
    split <;> decide
  · cases still _ member
  · rw [counted, counted, (quiet_of_returned still).2, (quiet_of_returned done).2]
    omega

/-- Every step keeps the invariant, and changes the gauge by what it changes in
the contribution of its stream. -/
theorem Invariant.step
    (invariant : s.Invariant)
    (effect : Effect s next change signals) :
    next.Invariant ∧ next.counted = s.counted + change := by
  have stage := invariant.stage
  have single := invariant.single
  cases effect with
  | cancelled =>
      exact ⟨⟨stage, single, invariant.stale, invariant.done⟩, (add_zero _).symm⟩
  | connecting phase =>
      have quiet := quiet_of_returned (invariant.done (by simp [phase]))
      simp only [Stage, phase] at stage
      refine ⟨⟨by simp [Stage], by simp [coming, online, stage], by simp, by simp⟩, ?_⟩
      rw [counted, counted, quiet.2]
      simp [online, departing, phase, arriving]
  | arrived frame phase =>
      refine ⟨⟨by simp [Stage, phase], ?_, fun other oldState member => ?_,
        fun outside => absurd phase outside⟩, ?_⟩
      · simpa [coming, online, Census.total_append, Callback.comes] using single
      · simp only [List.mem_append, List.mem_singleton, reduceCtorEq, or_false] at member
        exact invariant.stale other oldState member
      · simp [counted, online, departing, arriving, Census.total_append, Callback.arrives]
  | loaded phase found offline =>
      refine invariant.kept phase found rfl rfl (fun frame oldState same => ?_) rfl le_rfl rfl
      cases same
      exact offline
  | swapped phase found =>
      have before : s.online = 0 := if_neg (invariant.stale _ _ (List.mem_of_getElem? found))
      refine invariant.moved phase found rfl rfl (by simp) ?_ ?_
      · change s.coming + (1 - 0) ≤ 1
        omega
      · change (1 : Int) - s.online = 1 - 0 + 0
        omega
  | passed phase found passes =>
      rcases passes with rfl | ⟨oldState, rfl⟩ <;>
        exact invariant.kept phase found rfl rfl (by simp) rfl le_rfl rfl
  | entered phase found | reset phase found | raised phase found | counted phase found
  | countedKey phase found | wrote phase found =>
      exact invariant.kept phase found rfl rfl (by simp) rfl le_rfl rfl
  | announced phase found =>
      exact invariant.kept phase found rfl rfl (by simp) rfl (Int.zero_le_ofNat 1) rfl
  | ended err phase done =>
      exact invariant_outside done rfl (by simp [Stage]) (by simp [online, departing, phase])
  | panicked text phase done =>
      refine invariant_outside done rfl (by simp [Stage]) ?_
      by_cases was : s.state = .online <;> simp [online, departing, phase, was]
  | looked phase =>
      exact invariant_outside (invariant.done (by simp [phase])) rfl rfl
        (by simp [online, departing, phase])
  | lost phase same =>
      exact invariant_outside (invariant.done (by simp [phase])) rfl (by simp [Stage])
        (by simp [online, departing, phase, same])
  | failed state phase tried stays =>
      simp only [Stage, phase] at stage
      have offline := tried stage.symm
      rw [if_pos stage.symm] at stays
      subst stays stage
      exact invariant_outside (invariant.done (by simp [phase])) rfl (by simp [Stage])
        (by simp [online, departing, phase, offline])
  | left phase | published phase | stopped phase | delayed _ phase | woken phase =>
      simp only [Stage, phase] at stage
      exact invariant_outside (invariant.done (by simp [phase])) rfl (by simpa [Stage] using stage)
        (by simp [online, departing, phase])
  | exited phase =>
      rcases phase with phase | phase | ⟨delay, phase⟩ <;>
      · simp only [Stage, phase] at stage
        exact invariant_outside (invariant.done (by simp [phase])) rfl
          (by simpa [Stage] using stage) (by simp [online, departing, phase])

theorem counted_nonneg (invariant : s.Invariant) : 0 ≤ s.counted := by
  have fewer : s.arriving ≤ s.coming :=
    List.sum_le_sum fun callback _ => callback.arrives_le_comes
  have single := invariant.single
  have departs : 0 ≤ s.departing := by
    unfold departing
    split <;> decide
  unfold counted
  omega

end Loop
end Ingest
end Streaming
end RuseonCore
