import RuseonCore.Foundation.Channel
import RuseonCore.Foundation.Transition

/-!
# The event bus

Model of `pkg/eventbus/eventbus.go`: publishers, workers and a one-shot shutdown
that share the worker queues, the circuit breakers and the lock `stopMu`.  Every
step of a goroutine between two synchronisation points is a step of the model,
and labels say who takes the next step and how an external call ends.

The log of a run (accepted, taken and processed events, attempts and recorded
failures) is not part of the program; it is written by the steps and read by no
step.
-/

namespace RuseonCore
namespace Events

/-- An outbound webhook. -/
structure WebhookConfig where
  url : String
  topics : List String
  secret : String
  deriving DecidableEq

/-- A notification; `Publish` leaves its ID empty. -/
structure Event (Data : Type) where
  timestampMs : Nat
  topic : String
  cameraID : String
  data : Data
  deriving DecidableEq

/-- 32-bit FNV-1a hash. -/
def fnv32a (bytes : List UInt8) : UInt32 :=
  bytes.foldl (fun hash byte => (hash ^^^ byte.toUInt32) * 16777619) 2166136261

/-- UTF-8 encoding of a string. -/
def utf8 (text : String) : List UInt8 :=
  text.toList.flatMap String.utf8EncodeChar

/-- Camera of an event, or its topic if it has none. -/
def Event.key (event : Event Data) : String :=
  if event.cameraID == "" then event.topic else event.cameraID

/-- Worker that handles the events of a key. -/
def workerID (workers : Nat) (key : String) : Nat :=
  (fnv32a (utf8 key)).toNat % workers

/-- A webhook without a filter takes every topic. -/
def matchesTopic (allowedTopics : List String) (topic : String) : Bool :=
  if allowedTopics.length == 0 then true
  else allowedTopics.any fun allowed => allowed == "*" || allowed == topic

/-- Nanoseconds that a circuit stays open after a failure. -/
def openFor : Nat := 30000000000

/-- An event in a queue, with its number in the order of acceptance. -/
structure Entry (Data : Type) where
  number : Nat
  event : Event Data
  deriving DecidableEq

/-- Where a worker stands in its loop; `j` is the webhook it has come to. -/
inductive Task (Data : Type) where
  | idle
  | delivering (entry : Entry Data) (j : Nat)
  | sending (entry : Entry Data) (j : Nat) (isOpen : Bool)
  | tripping (entry : Entry Data) (j : Nat)
  | resetting (entry : Entry Data) (j : Nat)
  | exited
  deriving DecidableEq

/-- A queue and the goroutine that drains it. -/
structure Worker (Data : Type) where
  ch : Channel (Entry Data)
  task : Task Data

/-- Where a call of `Publish` stands. -/
inductive Publisher (Data : Type) where
  | started (topic cameraID : String) (data : Data)
  | locking (topic cameraID : String) (data : Data)
  | locked (topic cameraID : String) (data : Data)
  | sending (event : Event Data)
  | unlocking
  | returned

/-- The publisher holds `stopMu` for reading. -/
def Publisher.holdsRead : Publisher Data → Bool
  | .locked _ _ _ | .sending _ | .unlocking => true
  | _ => false

/-- Where the function of `stopOnce` stands. -/
inductive Shutdown where
  | notStarted
  | locking
  | storing
  | closing (i : Nat)
  | unlocking
  | waiting
  | done
  deriving DecidableEq

/-- The shutdown holds `stopMu` for writing. -/
def Shutdown.holdsWrite : Shutdown → Bool
  | .storing | .closing _ | .unlocking => true
  | _ => false

/-- Record of a run. -/
structure Log (Data : Type) where
  accepted : List (Entry Data)
  taken : List (Nat × Entry Data)
  processed : List (Entry Data)
  attempts : List (Nat × Entry Data)
  failures : List (String × Nat)

/-- The bus with its goroutines and the clock. -/
structure EventBus (Data : Type) where
  webhooks : List WebhookConfig
  workers : List (Worker Data)
  circuitBreakers : String → Option Nat
  publishers : List (Publisher Data)
  shutdown : Shutdown
  stopped : Bool
  clock : Nat
  log : Log Data

/-- A new bus; four workers unless a positive number is asked for. -/
def new (webhooks : List WebhookConfig) (numWorkers : Int) : EventBus Data where
  webhooks := webhooks
  workers :=
    List.replicate (if numWorkers ≤ 0 then 4 else numWorkers.toNat)
      ⟨Channel.make 1000, .idle⟩
  circuitBreakers := fun _ => none
  publishers := []
  shutdown := .notStarted
  stopped := false
  clock := 0
  log := ⟨[], [], [], [], []⟩

/-- Who takes the next step.  A step of a worker carries the outcome of the
external call it ends with, if there is one. -/
inductive Label (Data : Type) where
  | publish (topic cameraID : String) (data : Data)
  | publisher (p : Nat)
  | stop
  | shutdown
  | worker (w : Nat) (ok : Bool)
  | tick (elapsed : Nat)

/-! ## Publishers -/

/-- A publisher's step that changes nothing else. -/
def EventBus.advance (bus : EventBus Data) (p : Nat) (next : Publisher Data) :
    EventBus Data :=
  { bus with publishers := bus.publishers.set p next }

/-- Non-blocking send to the queue of the event's worker. -/
def EventBus.enqueue (bus : EventBus Data) (event : Event Data) : Option (EventBus Data) :=
  let w := workerID bus.workers.length event.key
  let entry : Entry Data := ⟨bus.log.accepted.length, event⟩
  (bus.workers[w]?).map fun worker =>
    let (ch, sent) := worker.ch.trySend entry
    { bus with
      workers := bus.workers.set w { worker with ch := ch }
      log :=
        if sent then { bus.log with accepted := bus.log.accepted ++ [entry] } else bus.log }

/-- Next step of a call of `Publish`. -/
def EventBus.publisherStep (bus : EventBus Data) (p : Nat) : Option (EventBus Data) :=
  match bus.publishers[p]? with
  | none => none
  | some (.started topic cameraID data) =>
      if bus.stopped || bus.webhooks.length == 0 then some (bus.advance p .returned)
      else some (bus.advance p (.locking topic cameraID data))
  | some (.locking topic cameraID data) =>
      if bus.shutdown.holdsWrite then none
      else some (bus.advance p (.locked topic cameraID data))
  | some (.locked topic cameraID data) =>
      if bus.stopped then some (bus.advance p .unlocking)
      else some (bus.advance p (.sending ⟨bus.clock / 1000000, topic, cameraID, data⟩))
  | some (.sending event) => (bus.enqueue event).map (·.advance p .unlocking)
  | some .unlocking => some (bus.advance p .returned)
  | some .returned => none

/-! ## Shutdown -/

/-- Next step of the function of `stopOnce`. -/
def EventBus.shutdownStep (bus : EventBus Data) : Option (EventBus Data) :=
  match bus.shutdown with
  | .notStarted => none
  | .locking =>
      if bus.publishers.any Publisher.holdsRead then none
      else some { bus with shutdown := .storing }
  | .storing => some { bus with shutdown := .closing 0, stopped := true }
  | .closing i =>
      match bus.workers[i]? with
      | some worker =>
          some { bus with
            workers := bus.workers.set i { worker with ch := worker.ch.close }
            shutdown := .closing (i + 1) }
      | none => some { bus with shutdown := .unlocking }
  | .unlocking => some { bus with shutdown := .waiting }
  | .waiting =>
      if bus.workers.all (·.task matches .exited) then some { bus with shutdown := .done }
      else none
  | .done => none

/-! ## Workers -/

/-- A worker goes on with another task. -/
def EventBus.proceed (bus : EventBus Data) (w : Nat) (worker : Worker Data)
    (task : Task Data) : EventBus Data :=
  { bus with workers := bus.workers.set w { worker with task := task } }

/-- The loop body for an entry has ended. -/
def EventBus.finish (bus : EventBus Data) (entry : Entry Data) : EventBus Data :=
  { bus with log := { bus.log with processed := bus.log.processed ++ [entry] } }

/-- Receive the next event; `marshaled` tells whether its encoding succeeds. -/
def EventBus.take (bus : EventBus Data) (w : Nat) (worker : Worker Data)
    (marshaled : Bool) : Option (EventBus Data) :=
  match worker.ch.receive with
  | none => none
  | some (none, ch) => some (bus.proceed w { worker with ch := ch } .exited)
  | some (some entry, ch) =>
      let bus := { bus with log := { bus.log with taken := bus.log.taken ++ [(w, entry)] } }
      if marshaled then
        some (bus.proceed w { worker with ch := ch } (.delivering entry 0))
      else some ((bus.finish entry).proceed w { worker with ch := ch } .idle)

/-- The circuit for a URL is open: attempts are skipped. -/
def EventBus.skips (bus : EventBus Data) (url : String) : Bool :=
  match bus.circuitBreakers url with
  | some unlockTime => bus.clock < unlockTime
  | none => false

/-- Come to a webhook: filter by topic, check its circuit and start an attempt. -/
def EventBus.check (bus : EventBus Data) (w : Nat) (worker : Worker Data)
    (entry : Entry Data) (j : Nat) : EventBus Data :=
  match bus.webhooks[j]? with
  | none => (bus.finish entry).proceed w worker .idle
  | some wh =>
      if !matchesTopic wh.topics entry.event.topic then
        bus.proceed w worker (.delivering entry (j + 1))
      else if bus.skips wh.url then bus.proceed w worker (.delivering entry (j + 1))
      else
        { bus with log := { bus.log with attempts := bus.log.attempts ++ [(j, entry)] } }.proceed
          w worker (.sending entry j (bus.circuitBreakers wh.url).isSome)

/-- Open the circuit of a webhook. -/
def EventBus.trip (bus : EventBus Data) (url : String) : EventBus Data :=
  { bus with
    circuitBreakers := Function.update bus.circuitBreakers url (some (bus.clock + openFor))
    log := { bus.log with failures := bus.log.failures ++ [(url, bus.clock)] } }

/-- Close the circuit of a webhook. -/
def EventBus.reset (bus : EventBus Data) (url : String) : EventBus Data :=
  { bus with circuitBreakers := Function.update bus.circuitBreakers url none }

/-- Next step of a worker. -/
def EventBus.workerStep (bus : EventBus Data) (w : Nat) (ok : Bool) :
    Option (EventBus Data) :=
  match bus.workers[w]? with
  | none => none
  | some worker =>
      match worker.task with
      | .idle => bus.take w worker ok
      | .delivering entry j => some (bus.check w worker entry j)
      | .sending entry j isOpen =>
          if !ok then some (bus.proceed w worker (.tripping entry j))
          else if isOpen then some (bus.proceed w worker (.resetting entry j))
          else some (bus.proceed w worker (.delivering entry (j + 1)))
      | .tripping entry j =>
          (bus.webhooks[j]?).map fun wh =>
            (bus.trip wh.url).proceed w worker (.delivering entry (j + 1))
      | .resetting entry j =>
          (bus.webhooks[j]?).map fun wh =>
            (bus.reset wh.url).proceed w worker (.delivering entry (j + 1))
      | .exited => none

/-- The step relation of the bus. -/
def step (bus : EventBus Data) : Label Data → Option (EventBus Data)
  | .publish topic cameraID data =>
      some { bus with publishers := bus.publishers ++ [.started topic cameraID data] }
  | .publisher p => bus.publisherStep p
  | .stop =>
      some (if bus.shutdown = .notStarted then { bus with shutdown := .locking } else bus)
  | .shutdown => bus.shutdownStep
  | .worker w ok => bus.workerStep w ok
  | .tick elapsed => some { bus with clock := bus.clock + elapsed }

/-! ## What the steps do -/

/-- Entry that a worker is busy with, and the number of webhooks it has passed or
attempted for it. -/
def Task.stage : Task Data → Option (Entry Data × Nat)
  | .delivering entry j => some (entry, j)
  | .sending entry j _ | .tripping entry j | .resetting entry j => some (entry, j + 1)
  | _ => none

/-- What a step of a worker does to the worker and to the log. -/
inductive Turn (w : Nat) (worker : Worker Data) (log : Log Data) :
    Worker Data → Log Data → Prop
  | exit (ch : Channel (Entry Data))
      (idle : worker.task = .idle)
      (drained : worker.ch.receive = some (none, ch)) :
      Turn w worker log ⟨ch, .exited⟩ log
  | take (entry : Entry Data) (ch : Channel (Entry Data))
      (idle : worker.task = .idle)
      (received : worker.ch.receive = some (some entry, ch)) :
      Turn w worker log ⟨ch, .delivering entry 0⟩
        { log with taken := log.taken ++ [(w, entry)] }
  | discard (entry : Entry Data) (ch : Channel (Entry Data))
      (idle : worker.task = .idle)
      (received : worker.ch.receive = some (some entry, ch)) :
      Turn w worker log ⟨ch, .idle⟩
        { log with
          taken := log.taken ++ [(w, entry)]
          processed := log.processed ++ [entry] }
  | move (entry : Entry Data) (n later : Nat) (task : Task Data)
      (failures : List (String × Nat))
      (busy : worker.task.stage = some (entry, n))
      (onward : task.stage = some (entry, later))
      (forward : n ≤ later) :
      Turn w worker log { worker with task := task } { log with failures := failures }
  | attempt (entry : Entry Data) (n : Nat) (task : Task Data)
      (busy : worker.task.stage = some (entry, n))
      (onward : task.stage = some (entry, n + 1)) :
      Turn w worker log { worker with task := task }
        { log with attempts := log.attempts ++ [(n, entry)] }
  | finish (entry : Entry Data) (n : Nat)
      (busy : worker.task.stage = some (entry, n)) :
      Turn w worker log { worker with task := .idle }
        { log with processed := log.processed ++ [entry] }

/-- Publishers and shutdown are as before. -/
structure SameControl (bus next : EventBus Data) : Prop where
  publishers : next.publishers = bus.publishers
  shutdown : next.shutdown = bus.shutdown
  stopped : next.stopped = bus.stopped

/-- A worker takes a turn, and nothing else changes but the log. -/
structure Turns (bus : EventBus Data) (w : Nat) (worker : Worker Data)
    (next : EventBus Data) : Prop where
  control : SameControl bus next
  turned : ∃ turned, next.workers = bus.workers.set w turned ∧
    Turn w worker bus.log turned next.log

/-- A worker that goes on with its entry. -/
theorem Turns.onward
    {bus : EventBus Data}
    {worker : Worker Data}
    {entry : Entry Data}
    {n later : Nat}
    {task : Task Data}
    (w : Nat)
    (busy : worker.task.stage = some (entry, n))
    (onward : task.stage = some (entry, later))
    (forward : n ≤ later) :
    Turns bus w worker (bus.proceed w worker task) :=
  ⟨⟨rfl, rfl, rfl⟩, _, rfl, .move entry n later task bus.log.failures busy onward forward⟩

theorem turns_of_take
    {bus next : EventBus Data}
    {w : Nat}
    {worker : Worker Data}
    {marshaled : Bool}
    (idle : worker.task = .idle)
    (taken : bus.take w worker marshaled = some next) :
    Turns bus w worker next := by
  unfold EventBus.take at taken
  split at taken
  · simp at taken
  · rename_i ch drained
    obtain rfl := Option.some.inj taken
    exact ⟨⟨rfl, rfl, rfl⟩, _, rfl, .exit ch idle drained⟩
  · rename_i entry ch received
    split at taken
    · obtain rfl := Option.some.inj taken
      exact ⟨⟨rfl, rfl, rfl⟩, _, rfl, .take entry ch idle received⟩
    · obtain rfl := Option.some.inj taken
      exact ⟨⟨rfl, rfl, rfl⟩, _, rfl, .discard entry ch idle received⟩

theorem turns_of_check
    (bus : EventBus Data)
    (w : Nat)
    {worker : Worker Data}
    {entry : Entry Data}
    {j : Nat}
    (busy : worker.task.stage = some (entry, j)) :
    Turns bus w worker (bus.check w worker entry j) := by
  unfold EventBus.check
  split
  · exact ⟨⟨rfl, rfl, rfl⟩, _, rfl, .finish entry j busy⟩
  · split
    · exact .onward w busy rfl (Nat.le_add_right j 1)
    · split
      · exact .onward w busy rfl (Nat.le_add_right j 1)
      · exact ⟨⟨rfl, rfl, rfl⟩, _, rfl, .attempt entry j _ busy rfl⟩

/-- A step of a worker is a turn of it. -/
theorem turns_of_workerStep
    {bus next : EventBus Data}
    {w : Nat}
    {ok : Bool}
    (taken : bus.workerStep w ok = some next) :
    ∃ worker, bus.workers[w]? = some worker ∧ Turns bus w worker next := by
  unfold EventBus.workerStep at taken
  split at taken
  · simp at taken
  · rename_i worker found
    refine ⟨worker, found, ?_⟩
    split at taken
    · rename_i idle
      exact turns_of_take idle taken
    · rename_i entry j busy
      obtain rfl := Option.some.inj taken
      apply turns_of_check
      rw [busy]
      rfl
    · rename_i entry j isOpen busy
      have stage : worker.task.stage = some (entry, j + 1) := by rw [busy]; rfl
      split at taken
      · obtain rfl := Option.some.inj taken
        exact .onward w stage rfl le_rfl
      · split at taken
        · obtain rfl := Option.some.inj taken
          exact .onward w stage rfl le_rfl
        · obtain rfl := Option.some.inj taken
          exact .onward w stage rfl le_rfl
    · rename_i entry j busy
      have stage : worker.task.stage = some (entry, j + 1) := by rw [busy]; rfl
      obtain ⟨wh, _, rfl⟩ := Option.map_eq_some_iff.mp taken
      exact ⟨⟨rfl, rfl, rfl⟩, _, rfl, .move entry (j + 1) (j + 1) _ _ stage rfl le_rfl⟩
    · rename_i entry j busy
      have stage : worker.task.stage = some (entry, j + 1) := by rw [busy]; rfl
      obtain ⟨wh, _, rfl⟩ := Option.map_eq_some_iff.mp taken
      exact ⟨⟨rfl, rfl, rfl⟩, _, rfl, .move entry (j + 1) (j + 1) _ _ stage rfl le_rfl⟩
    · simp at taken

/-- What a step of a publisher does. -/
inductive Publishes (bus : EventBus Data) (p : Nat) : EventBus Data → Prop
  | move (old new : Publisher Data)
      (found : bus.publishers[p]? = some old)
      (reading : new.holdsRead = true →
        old.holdsRead = true ∨ bus.shutdown.holdsWrite = false)
      (ready : ∀ event, new = .sending event → bus.stopped = false) :
      Publishes bus p (bus.advance p new)
  | enqueue (event : Event Data) (next : EventBus Data)
      (found : bus.publishers[p]? = some (.sending event))
      (queued : bus.enqueue event = some next) :
      Publishes bus p (next.advance p .unlocking)

theorem publishes_of_publisherStep
    {bus next : EventBus Data}
    {p : Nat}
    (taken : bus.publisherStep p = some next) :
    Publishes bus p next := by
  unfold EventBus.publisherStep at taken
  split at taken
  · simp at taken
  · rename_i found
    split at taken
    · obtain rfl := Option.some.inj taken
      exact .move _ _ found (by simp [Publisher.holdsRead]) (by simp)
    · obtain rfl := Option.some.inj taken
      exact .move _ _ found (by simp [Publisher.holdsRead]) (by simp)
  · rename_i found
    split at taken
    · simp at taken
    · rename_i unlocked
      obtain rfl := Option.some.inj taken
      exact .move _ _ found (fun _ => .inr (Bool.eq_false_iff.mpr unlocked)) (by simp)
  · rename_i found
    split at taken
    · obtain rfl := Option.some.inj taken
      exact .move _ _ found (fun _ => .inl rfl) (by simp)
    · rename_i running
      obtain rfl := Option.some.inj taken
      exact .move _ _ found (fun _ => .inl rfl) fun _ _ => Bool.eq_false_iff.mpr running
  · rename_i event found
    obtain ⟨queued, enqueued, rfl⟩ := Option.map_eq_some_iff.mp taken
    exact .enqueue event queued found enqueued
  · rename_i found
    obtain rfl := Option.some.inj taken
    exact .move _ _ found (by simp [Publisher.holdsRead]) (by simp)
  · simp at taken

/-- What a step of the shutdown does. -/
inductive ShutsDown (bus : EventBus Data) : EventBus Data → Prop
  | lock (before : bus.shutdown = .locking)
      (unread : ∀ publisher ∈ bus.publishers, publisher.holdsRead = false) :
      ShutsDown bus { bus with shutdown := .storing }
  | store (before : bus.shutdown = .storing) :
      ShutsDown bus { bus with shutdown := .closing 0, stopped := true }
  | close (i : Nat) (worker : Worker Data)
      (before : bus.shutdown = .closing i)
      (found : bus.workers[i]? = some worker) :
      ShutsDown bus
        { bus with
          workers := bus.workers.set i { worker with ch := worker.ch.close }
          shutdown := .closing (i + 1) }
  | closed (i : Nat)
      (before : bus.shutdown = .closing i)
      (all : bus.workers[i]? = none) :
      ShutsDown bus { bus with shutdown := .unlocking }
  | unlock (before : bus.shutdown = .unlocking) :
      ShutsDown bus { bus with shutdown := .waiting }
  | wait (before : bus.shutdown = .waiting)
      (exited : ∀ worker ∈ bus.workers, worker.task = .exited) :
      ShutsDown bus { bus with shutdown := .done }

theorem shutsDown_of_shutdownStep
    {bus next : EventBus Data}
    (taken : bus.shutdownStep = some next) :
    ShutsDown bus next := by
  unfold EventBus.shutdownStep at taken
  split at taken
  · simp at taken
  · rename_i before
    split at taken
    · simp at taken
    · rename_i unread
      obtain rfl := Option.some.inj taken
      refine .lock before fun publisher member => Bool.eq_false_iff.mpr fun holds => unread ?_
      exact List.any_eq_true.mpr ⟨publisher, member, holds⟩
  · rename_i before
    obtain rfl := Option.some.inj taken
    exact .store before
  · rename_i i before
    split at taken
    · rename_i worker found
      obtain rfl := Option.some.inj taken
      exact .close i worker before found
    · rename_i all
      obtain rfl := Option.some.inj taken
      exact .closed i before all
  · rename_i before
    obtain rfl := Option.some.inj taken
    exact .unlock before
  · rename_i before
    split at taken
    · rename_i all
      obtain rfl := Option.some.inj taken
      refine .wait before fun worker member => ?_
      have exited := List.all_eq_true.mp all worker member
      cases task : worker.task <;> simp_all
    · simp at taken
  · simp at taken

end Events
end RuseonCore
