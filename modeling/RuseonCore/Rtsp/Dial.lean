import RuseonCore.Foundation.Census
import RuseonCore.Foundation.Transition

/-!
# Dialling cameras

Model of `Start` and `Close` of `internal/rtsp/client.go`.  All clients share a
semaphore with ten places, a channel that `Start` sends to before it dials and
receives from once the handshake is over or has failed.  `Close` may be called
at any time and any number of times, also before `Start` has created the
connection; a flag under the client's mutex decides which of the two closes it.

The statements of `Start` are steps of their own, so that the calls of all
clients interleave at every one of them.  Calls to the RTSP library succeed or
fail as the label says; `opened` and `closes` record what became of the library
client.
-/

namespace RuseonCore
namespace Rtsp

open Transition

/-- The statement of `Start` that comes next.  The last three are the deferred
calls and the end, with the error to return. -/
inductive StartPhase
  | parsing
  | acquiring
  | dialing
  | locking
  | checking (shouldClose : Bool)
  | describing
  | settingUp
  | releasing
  | hooking
  | playing
  | waiting
  | cancelling
  | draining
  | closing (err : Option String)
  | unwinding (err : Option String)
  | returned (err : Option String)
  deriving DecidableEq

/-- A client: its `Start`, the flags under its mutex, the `Close` calls that are
about to close the connection, and the connection. -/
structure Client where
  phase : StartPhase
  semaphoreReleased : Bool
  startDone : Bool
  closed : Bool
  closers : Nat
  opened : Bool
  closes : Nat
  deriving DecidableEq

/-- All clients and the number of occupied places of the semaphore. -/
structure Dialler where
  dialSemaphore : Nat
  clients : List Client
  deriving DecidableEq

/-- A new client, the next statement of `Start` with the outcome of the library
call in it, the choice of the cancelled context where `Start` waits, and the two
parts of `Close`. -/
inductive DialStep
  | newClient
  | start (client : Nat) (err : Option String)
  | ctxDone (client : Nat)
  | close (client : Nat)
  | closeClient (client : Nat)

/-- Places of the semaphore. -/
def dialLimit : Nat := 10

namespace Client

/-- `NewClient`.  No place of the semaphore is held. -/
def new : Client where
  phase := .parsing
  semaphoreReleased := true
  startDone := false
  closed := false
  closers := 0
  opened := false
  closes := 0

/-- `releaseSemaphore`; `none` means that it blocks. -/
def releaseSemaphore (c : Client) (sem : Nat) : Option (Client × Nat) :=
  if c.semaphoreReleased then some (c, sem)
  else if 0 < sem then some ({ c with semaphoreReleased := true }, sem - 1)
  else none

/-- The next statement of `Start`; `none` means that it blocks. -/
def advance (c : Client) (sem : Nat) (err : Option String) : Option (Client × Nat) :=
  match c.phase with
  | .parsing =>
      match err with
      | none => some ({ c with phase := .acquiring }, sem)
      | some err => some ({ c with phase := .returned (some s!"failed to parse url: {err}") }, sem)
  | .acquiring =>
      if sem < dialLimit then
        some ({ c with phase := .dialing, semaphoreReleased := false }, sem + 1)
      else none
  | .dialing =>
      match err with
      | none => some ({ c with phase := .locking, opened := true }, sem)
      | some err =>
          some ({ c with phase := .unwinding (some s!"failed to start client: {err}") }, sem)
  | .locking => some ({ c with phase := .checking c.closed, startDone := true }, sem)
  | .checking true =>
      some
        ({ c with
            phase := .unwinding (some "client was closed during start")
            closes := c.closes + 1 }, sem)
  | .checking false => some ({ c with phase := .describing }, sem)
  | .describing =>
      match err with
      | none => some ({ c with phase := .settingUp }, sem)
      | some err => some ({ c with phase := .closing (some s!"failed to describe: {err}") }, sem)
  | .settingUp =>
      match err with
      | none => some ({ c with phase := .releasing }, sem)
      | some err => some ({ c with phase := .closing (some s!"failed to setup all: {err}") }, sem)
  | .releasing => ({ c with phase := .hooking }).releaseSemaphore sem
  | .hooking =>
      -- The text of the error names the codec.
      match err with
      | none => some ({ c with phase := .playing }, sem)
      | some err => some ({ c with phase := .closing (some err) }, sem)
  | .playing =>
      match err with
      | none => some ({ c with phase := .waiting }, sem)
      | some err => some ({ c with phase := .closing (some s!"failed to play: {err}") }, sem)
  | .waiting => some ({ c with phase := .closing err }, sem)
  | .cancelling => some ({ c with phase := .draining, closes := c.closes + 1 }, sem)
  | .draining => some ({ c with phase := .closing (some "context canceled") }, sem)
  | .closing result => some ({ c with phase := .unwinding result, closes := c.closes + 1 }, sem)
  | .unwinding result => ({ c with phase := .returned result }).releaseSemaphore sem
  | .returned _ => none

/-- The critical section of `Close`; a caller that may close the connection does
so next. -/
def close (c : Client) : Client :=
  { c with
    closed := true
    closers := if c.startDone then c.closers + 1 else c.closers }

end Client

namespace Dialler

/-- Nothing has happened yet. -/
def start : Dialler where
  dialSemaphore := 0
  clients := []

/-- Effect of one step. -/
def step (d : Dialler) : DialStep → Option Dialler
  | .newClient => some { d with clients := d.clients ++ [Client.new] }
  | .start i err => do
      let c ← d.clients[i]?
      let (next, sem) ← c.advance d.dialSemaphore err
      some { dialSemaphore := sem, clients := d.clients.set i next }
  | .ctxDone i => do
      let c ← d.clients[i]?
      if c.phase = .waiting then
        some { d with clients := d.clients.set i { c with phase := .cancelling } }
      else none
  | .close i => do
      let c ← d.clients[i]?
      some { d with clients := d.clients.set i c.close }
  | .closeClient i => do
      let c ← d.clients[i]?
      if 0 < c.closers then
        some
          { d with
            clients := d.clients.set i
              { c with closers := c.closers - 1, closes := c.closes + 1 } }
      else none

end Dialler

namespace StartPhase

/-- `Start` is between taking a place of the semaphore and the end of the
handshake. -/
def handshaking : StartPhase → Bool
  | .dialing | .locking | .checking _ | .describing | .settingUp | .releasing => true
  | _ => false

/-- `Start` has a connection of its own to use. -/
def connected : StartPhase → Bool
  | .describing | .settingUp | .releasing | .hooking | .playing | .waiting | .cancelling
  | .draining | .closing _ => true
  | _ => false

/-- `Start` gives back its place of the semaphore next. -/
def givesBack : StartPhase → Bool
  | .releasing | .unwinding _ => true
  | _ => false

/-- `Start` has returned. -/
def hasReturned : StartPhase → Bool
  | .returned _ => true
  | _ => false

end StartPhase

namespace Client

/-- What holds of a client at any time. -/
structure Safe (c : Client) : Prop where
  /-- A place of the semaphore is held during the whole handshake. -/
  held : c.phase.handshaking = true → c.semaphoreReleased = false
  /-- It is given back when `Start` returns. -/
  released : c.phase.hasReturned = true → c.semaphoreReleased = true
  /-- Only a connection that exists is closed. -/
  existing : 0 < c.closes ∨ 0 < c.closers → c.opened = true
  /-- A connection is closed when `Start` has returned. -/
  returned : c.phase.hasReturned = true → c.opened = true → 0 < c.closes
  /-- While `Start` uses the connection, a `Close` call has closed it or is about
  to. -/
  closing : c.phase.connected = true → c.closed = true → 0 < c.closes ∨ 0 < c.closers

/-- What the flags of a client are at each statement of `Start`. -/
def Stage (c : Client) : Prop :=
  match c.phase with
  | .parsing | .acquiring =>
      c.semaphoreReleased = true ∧ c.opened = false ∧ c.startDone = false
  | .dialing => c.semaphoreReleased = false ∧ c.opened = false ∧ c.startDone = false
  | .locking => c.semaphoreReleased = false ∧ c.opened = true
  | .checking true => c.semaphoreReleased = false ∧ c.startDone = true
  | .checking false | .describing | .settingUp | .releasing =>
      c.semaphoreReleased = false ∧ c.startDone = true ∧
        (c.closed = true → 0 < c.closes ∨ 0 < c.closers)
  | .hooking | .playing | .waiting | .cancelling | .draining | .closing _ =>
      c.startDone = true ∧ (c.closed = true → 0 < c.closes ∨ 0 < c.closers)
  | .unwinding _ => c.opened = true → 0 < c.closes
  | .returned _ => c.semaphoreReleased = true ∧ (c.opened = true → 0 < c.closes)

/-- The flags fit the statement that comes next, and only an existing connection
is closed. -/
structure Invariant (c : Client) : Prop where
  stage : c.Stage
  started : c.startDone = true → c.opened = true
  closers : 0 < c.closers → c.startDone = true
  closes : 0 < c.closes → c.opened = true

theorem Invariant.safe {c : Client} (invariant : c.Invariant) : c.Safe := by
  obtain ⟨stage, started, closers, closes⟩ := invariant
  have existing : 0 < c.closes ∨ 0 < c.closers → c.opened = true :=
    fun either => either.elim closes fun pending => started (closers pending)
  refine ⟨?_, ?_, existing, ?_, ?_⟩ <;>
  · unfold Stage at stage
    split at stage <;> simp_all [StartPhase.handshaking, StartPhase.connected,
      StartPhase.hasReturned]

theorem invariant_new : new.Invariant :=
  ⟨⟨rfl, rfl, rfl⟩, by simp [new], by simp [new], by simp [new]⟩

/-- What a client contributes to the semaphore. -/
def places (c : Client) : Int := if c.semaphoreReleased then 0 else 1

theorem places_nonneg (c : Client) : 0 ≤ c.places := by
  unfold places
  split <;> decide

/-- Giving back a place of the semaphore. -/
theorem releaseSemaphore_eq_some
    {c next : Client}
    {sem left : Nat}
    (taken : c.releaseSemaphore sem = some (next, left)) :
    next = { c with semaphoreReleased := true } ∧
      (left : Int) = sem + (next.places - c.places) ∧ left ≤ sem := by
  unfold releaseSemaphore at taken
  split at taken
  · rename_i already
    cases taken
    refine ⟨?_, by omega, le_rfl⟩
    cases c
    simp_all
  · split at taken
    · rename_i holds positive
      cases taken
      refine ⟨rfl, ?_, by omega⟩
      have one : c.places = 1 := by simp [places, holds]
      have none : ({ c with semaphoreReleased := true } : Client).places = 0 := rfl
      rw [one, none]
      omega
    · cases taken

/-- A statement that leaves the flags as they are. -/
theorem Invariant.goto {c : Client} {phase : StartPhase} (invariant : c.Invariant)
    (stage : Stage { c with phase := phase }) : Invariant { c with phase := phase } :=
  ⟨stage, invariant.started, invariant.closers, invariant.closes⟩

/-- A statement of `Start` keeps the invariant. -/
theorem Invariant.advance
    {c next : Client}
    {sem left : Nat}
    {err : Option String}
    (invariant : c.Invariant)
    (taken : c.advance sem err = some (next, left)) :
    next.Invariant := by
  have stage := invariant.stage
  have unopened (no : c.opened = false) (opened : c.opened = true) : 0 < c.closes :=
    absurd opened (by simp [no])
  unfold Client.advance at taken
  -- one case per statement, in the order of `advance`
  split at taken <;> rename_i phase <;> simp only [Stage, phase] at stage
  · cases err <;> cases taken
    · exact invariant.goto stage
    · exact invariant.goto ⟨stage.1, unopened stage.2.1⟩
  · split at taken <;> cases taken
    exact ⟨⟨rfl, stage.2⟩, invariant.started, invariant.closers, invariant.closes⟩
  · cases err <;> cases taken
    · exact ⟨⟨stage.1, rfl⟩, fun _ => rfl, invariant.closers, fun _ => rfl⟩
    · exact invariant.goto (unopened stage.2.1)
  · cases taken
    refine ⟨?_, fun _ => stage.2, fun _ => rfl, invariant.closes⟩
    cases closed : c.closed
    · exact ⟨stage.1, rfl, fun other => absurd other (by simp)⟩
    · exact ⟨stage.1, rfl⟩
  · cases taken
    exact ⟨fun _ => Nat.succ_pos _, invariant.started, invariant.closers,
      fun _ => invariant.started stage.2⟩
  · cases taken
    exact invariant.goto stage
  · cases err <;> cases taken
    · exact invariant.goto stage
    · exact invariant.goto stage.2
  · cases err <;> cases taken
    · exact invariant.goto stage
    · exact invariant.goto stage.2
  · obtain ⟨rfl, -, -⟩ := releaseSemaphore_eq_some taken
    exact ⟨stage.2, invariant.started, invariant.closers, invariant.closes⟩
  · cases err <;> cases taken <;> exact invariant.goto stage
  · cases err <;> cases taken <;> exact invariant.goto stage
  · cases taken
    exact invariant.goto stage
  · cases taken
    exact ⟨⟨stage.1, fun _ => Or.inl (Nat.succ_pos _)⟩, invariant.started, invariant.closers,
      fun _ => invariant.started stage.1⟩
  · cases taken
    exact invariant.goto stage
  · cases taken
    exact ⟨fun _ => Nat.succ_pos _, invariant.started, invariant.closers,
      fun _ => invariant.started stage.1⟩
  · obtain ⟨rfl, -, -⟩ := releaseSemaphore_eq_some taken
    exact ⟨⟨rfl, stage⟩, invariant.started, invariant.closers, invariant.closes⟩
  · cases taken

/-- A statement of `Start` changes the semaphore by what its client holds, and
never takes an eleventh place. -/
theorem Invariant.places_advance
    {c next : Client}
    {sem left : Nat}
    {err : Option String}
    (invariant : c.Invariant)
    (taken : c.advance sem err = some (next, left))
    (bound : sem ≤ dialLimit) :
    (left : Int) = sem + (next.places - c.places) ∧ left ≤ dialLimit := by
  have stage := invariant.stage
  unfold Client.advance at taken
  split at taken <;> rename_i phase
  -- the second statement takes a place; the ninth and the deferred one give it back
  case h_2 =>
    simp only [Stage, phase] at stage
    split at taken <;> cases taken
    rename_i room
    exact ⟨by simp [places, stage.1], room⟩
  case h_9 | h_16 =>
    obtain ⟨rfl, change, less⟩ := releaseSemaphore_eq_some taken
    exact ⟨change, less.trans bound⟩
  case h_17 => cases taken
  -- the other statements leave the semaphore alone
  all_goals
    try split at taken
    all_goals
      cases taken
      exact ⟨by simp [places], bound⟩

theorem Invariant.ctxDone
    {c : Client}
    (invariant : c.Invariant)
    (waiting : c.phase = .waiting) :
    ({ c with phase := .cancelling } : Client).Invariant := by
  have stage := invariant.stage
  simp only [Stage, waiting] at stage
  exact invariant.goto stage

/-- The critical section of `Close` leaves the closing to `Start` exactly if
`Start` has not passed its own. -/
theorem Invariant.close
    {c : Client}
    (invariant : c.Invariant) :
    c.close.Invariant := by
  obtain ⟨stage, started, closers, closes⟩ := invariant
  refine ⟨?_, started, fun pending => ?_, closes⟩
  · unfold Stage at stage ⊢
    simp only [Client.close]
    split at stage <;> simp_all
  · simp only [Client.close] at pending ⊢
    split at pending
    · assumption
    · exact closers pending

theorem Invariant.closeClient
    {c : Client}
    (invariant : c.Invariant)
    (pending : 0 < c.closers) :
    ({ c with closers := c.closers - 1, closes := c.closes + 1 } : Client).Invariant := by
  obtain ⟨stage, started, closers, closes⟩ := invariant
  have opened := started (closers pending)
  refine ⟨?_, started, fun _ => closers pending, fun _ => opened⟩
  unfold Stage at stage ⊢
  split at stage <;> simp_all

end Client

namespace Dialler

/-- Every client is in order, and the semaphore counts the places held. -/
structure Ordered (d : Dialler) : Prop where
  clients : ∀ c ∈ d.clients, c.Invariant
  semaphore : (d.dialSemaphore : Int) = Census.total Client.places d.clients
  bound : d.dialSemaphore ≤ dialLimit

theorem ordered_start : start.Ordered :=
  ⟨by simp [start], rfl, Nat.zero_le _⟩

/-- A step of one client that does not touch the semaphore. -/
theorem Ordered.set
    {d : Dialler}
    (ordered : d.Ordered)
    {i : Nat}
    {c next : Client}
    {left : Nat}
    (found : d.clients[i]? = some c)
    (invariant : c.Invariant → next.Invariant)
    (semaphore : (left : Int) = d.dialSemaphore + (next.places - c.places))
    (bound : left ≤ dialLimit) :
    ({ dialSemaphore := left, clients := d.clients.set i next } : Dialler).Ordered := by
  refine ⟨fun other member => ?_, ?_, bound⟩
  · rcases List.mem_or_eq_of_mem_set member with old | rfl
    · exact ordered.clients other old
    · exact invariant (ordered.clients c (List.mem_of_getElem? found))
  · rw [Census.total_set _ found, ← ordered.semaphore, semaphore]

theorem ordered_step
    (d : Dialler)
    (label : DialStep)
    (next : Dialler)
    (ordered : d.Ordered)
    (taken : d.step label = some next) :
    next.Ordered := by
  cases label with
  | newClient =>
      rw [← Option.some.inj taken]
      refine ⟨fun c member => ?_, ?_, ordered.bound⟩
      · rcases List.mem_append.mp member with old | new
        · exact ordered.clients c old
        · rw [List.mem_singleton.mp new]
          exact Client.invariant_new
      · rw [Census.total_append, ← ordered.semaphore]
        rfl
  | start i err =>
      simp only [step, Option.bind_eq_bind, Option.bind_eq_some_iff, Option.some.injEq] at taken
      obtain ⟨c, found, ⟨after, left⟩, advanced, rfl⟩ := taken
      have invariant := ordered.clients c (List.mem_of_getElem? found)
      obtain ⟨semaphore, bound⟩ := invariant.places_advance advanced ordered.bound
      exact ordered.set found (fun _ => invariant.advance advanced) semaphore bound
  | ctxDone i =>
      simp only [step, Option.bind_eq_bind, Option.bind_eq_some_iff] at taken
      obtain ⟨c, found, chosen⟩ := taken
      split at chosen
      · rename_i waiting
        rw [← Option.some.inj chosen]
        exact ordered.set found (·.ctxDone waiting) (by simp [Client.places]) ordered.bound
      · cases chosen
  | close i =>
      simp only [step, Option.bind_eq_bind, Option.bind_eq_some_iff, Option.some.injEq] at taken
      obtain ⟨c, found, rfl⟩ := taken
      have same : c.close.places = c.places := rfl
      exact ordered.set found (·.close) (by rw [same]; omega) ordered.bound
  | closeClient i =>
      simp only [step, Option.bind_eq_bind, Option.bind_eq_some_iff] at taken
      obtain ⟨c, found, chosen⟩ := taken
      split at chosen
      · rename_i pending
        rw [← Option.some.inj chosen]
        exact ordered.set found (·.closeClient pending) (by simp [Client.places]) ordered.bound
      · cases chosen

/-- Giving back a place of the semaphore never blocks. -/
theorem Ordered.givesBack
    {d : Dialler}
    (ordered : d.Ordered)
    {i : Nat}
    {c : Client}
    (found : d.clients[i]? = some c)
    (due : c.phase.givesBack = true) :
    ∃ next, d.step (.start i none) = some next := by
  have positive : c.semaphoreReleased = false → 0 < d.dialSemaphore := by
    intro held
    have least := Census.le_total (fun other _ => other.places_nonneg) (List.mem_of_getElem? found)
    rw [← ordered.semaphore] at least
    simp only [Client.places, held, Bool.false_eq_true, if_false] at least
    omega
  have release : ∀ phase, ∃ after,
      ({ c with phase := phase } : Client).releaseSemaphore d.dialSemaphore = some after := by
    intro phase
    unfold Client.releaseSemaphore
    cases held : c.semaphoreReleased with
    | true => exact ⟨_, rfl⟩
    | false =>
        rw [if_neg (by simp), if_pos (positive held)]
        exact ⟨_, rfl⟩
  cases phase : c.phase with
  | releasing =>
      obtain ⟨⟨after, left⟩, released⟩ := release .hooking
      exact ⟨⟨left, d.clients.set i after⟩,
        by simp [step, found, Client.advance, phase, released]⟩
  | unwinding err =>
      obtain ⟨⟨after, left⟩, released⟩ := release (.returned err)
      exact ⟨⟨left, d.clients.set i after⟩,
        by simp [step, found, Client.advance, phase, released]⟩
  | _ => simp [phase, StartPhase.givesBack] at due

/-- However the calls interleave: every client is safe, at most ten are in their
handshake at a time, nobody waits to give back a place of the semaphore, and all
places are free again when every `Start` has returned. -/
theorem dial_safe
    {labels : List DialStep}
    {d : Dialler}
    (reached : run step start labels = some d) :
    (∀ c ∈ d.clients, c.Safe) ∧
      d.clients.countP (fun c => c.phase.handshaking) ≤ dialLimit ∧
      (∀ (i : Nat) (c : Client), d.clients[i]? = some c → c.phase.givesBack = true →
        ∃ next, d.step (.start i none) = some next) ∧
      ((∀ c ∈ d.clients, c.phase.hasReturned = true) → d.dialSemaphore = 0) := by
  have ordered := run_invariant ordered_step ordered_start reached
  have safe : ∀ c ∈ d.clients, c.Safe := fun c member => (ordered.clients c member).safe
  refine ⟨safe, ?_, fun i c found due => ordered.givesBack found due, fun all => ?_⟩
  · have count : (d.clients.countP (fun c => c.phase.handshaking) : Int) ≤
        Census.total Client.places d.clients :=
      Census.countP_le_total (fun c _ => c.places_nonneg) fun c member busy => by
        simp [Client.places, (safe c member).held busy]
    rw [← ordered.semaphore] at count
    have bound := ordered.bound
    omega
  · have none : Census.total Client.places d.clients = 0 :=
      Census.total_eq_zero fun c member => by
        simp [Client.places, (safe c member).released (all c member)]
    rw [← ordered.semaphore] at none
    exact_mod_cast none

/-- `Close` is called while `Start` is dialling: `Start` closes the connection
that it gets. -/
theorem dial_safe_closedDuringStart :
    ∃ d,
      run step start
          [.newClient, .start 0 none, .start 0 none, .close 0, .start 0 none, .start 0 none,
            .start 0 none, .start 0 none] = some d ∧
        d.clients.map (fun c => (c.phase, c.closes)) =
          [(.returned (some "client was closed during start"), 1)] ∧
        d.dialSemaphore = 0 := by
  have reached : run step start
      [.newClient, .start 0 none, .start 0 none, .close 0, .start 0 none, .start 0 none,
        .start 0 none, .start 0 none] = some
          { dialSemaphore := 0
            clients :=
              [{ phase := .returned (some "client was closed during start")
                 semaphoreReleased := true
                 startDone := true
                 closed := true
                 closers := 0
                 opened := true
                 closes := 1 }] } := by decide
  exact ⟨_, reached, rfl, (dial_safe reached).2.2.2 (by decide)⟩

end Dialler
end Rtsp
end RuseonCore
