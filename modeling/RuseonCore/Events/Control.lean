import RuseonCore.Events.EventBus
import RuseonCore.Foundation.Slots

/-!
# Lock discipline of the event bus

Sends happen under a read lock after a check of `stopped`, and the queues are
closed under the write lock, so no queue is used after it was closed.  With that
known, the effect of every step on the queues and the log can be listed.
-/

namespace RuseonCore
namespace Events

open Slots

variable {Data : Type}

/-! ## Locks and queues -/

/-- `stopped` has been stored. -/
def Shutdown.stored : Shutdown → Bool
  | .closing _ | .unlocking | .waiting | .done => true
  | _ => false

/-- The shutdown has closed the queue of a worker. -/
def Shutdown.closedAt (w : Nat) : Shutdown → Bool
  | .closing i => w < i
  | .unlocking | .waiting | .done => true
  | _ => false

/-- A worker is as far as the shutdown has come. -/
structure InStep (shutdown : Shutdown) (w : Nat) (worker : Worker Data) : Prop where
  closed : worker.ch.closed = shutdown.closedAt w
  used : worker.ch.misused = false
  finished : shutdown = .done → worker.task = .exited

/-- How lock, flag and queues go together. -/
structure Control (bus : EventBus Data) : Prop where
  stopped : bus.stopped = bus.shutdown.stored
  readers : ∀ publisher ∈ bus.publishers, publisher.holdsRead = true →
    bus.shutdown.holdsWrite = false
  senders : ∀ event, Publisher.sending event ∈ bus.publishers → bus.stopped = false
  queues : Each (InStep bus.shutdown) bus.workers

theorem new_control (webhooks : List WebhookConfig) (numWorkers : Int) :
    Control (new webhooks numWorkers : EventBus Data) where
  stopped := rfl
  readers := by simp [new]
  senders := by simp [new]
  queues := by
    intro w worker found
    obtain rfl := List.eq_of_mem_replicate (List.mem_of_getElem? found)
    exact ⟨rfl, rfl, nofun⟩

/-- A publisher that is about to send finds all queues open. -/
theorem Control.opened
    {bus : EventBus Data}
    {event : Event Data}
    (control : Control bus)
    (sending : Publisher.sending event ∈ bus.publishers) :
    Each (fun _ worker => worker.ch.closed = false) bus.workers := by
  intro w worker found
  have running := control.stopped.symm.trans (control.senders event sending)
  have unlocked := control.readers _ sending rfl
  rw [(control.queues w worker found).closed]
  match shutdown : bus.shutdown with
  | .notStarted | .locking => rfl
  | .storing => simp [shutdown, Shutdown.holdsWrite] at unlocked
  | .closing _ | .unlocking | .waiting | .done =>
      simp [shutdown, Shutdown.stored] at running

theorem Control.of_same
    {bus next : EventBus Data}
    (control : Control bus)
    (same : SameControl bus next)
    (queues : Each (InStep bus.shutdown) next.workers) :
    Control next where
  stopped := by rw [same.stopped, same.shutdown, control.stopped]
  readers := by
    rw [same.publishers, same.shutdown]
    exact control.readers
  senders := by
    rw [same.publishers, same.stopped]
    exact control.senders
  queues := by
    rw [same.shutdown]
    exact queues

/-- A publisher goes on to a state that lock and flag allow. -/
theorem Control.advance
    {bus : EventBus Data}
    {p : Nat}
    {publisher : Publisher Data}
    (control : Control bus)
    (reading : publisher.holdsRead = true → bus.shutdown.holdsWrite = false)
    (ready : ∀ event, publisher = .sending event → bus.stopped = false) :
    Control (bus.advance p publisher) where
  stopped := control.stopped
  readers := by
    intro other member holds
    rcases List.mem_or_eq_of_mem_set member with old | rfl
    · exact control.readers other old holds
    · exact reading holds
  senders := by
    intro event member
    rcases List.mem_or_eq_of_mem_set member with old | new
    · exact control.senders event old
    · exact ready event new.symm
  queues := control.queues

/-! ## What a step does to the queues -/

/-- What a step does to the queues and the log. -/
inductive Effect (bus : EventBus Data) : EventBus Data → Prop
  | quiet (next : EventBus Data)
      (workers : next.workers = bus.workers)
      (log : next.log = bus.log) :
      Effect bus next
  | accept (w : Nat) (worker : Worker Data) (entry : Entry Data) (next : EventBus Data)
      (found : bus.workers[w]? = some worker)
      (number : entry.number = bus.log.accepted.length)
      (place : workerID bus.workers.length entry.event.key = w)
      (opened : worker.ch.closed = false)
      (room : ¬ worker.ch.Full)
      (workers : next.workers =
        bus.workers.set w { worker with ch := worker.ch.push entry room })
      (log : next.log = { bus.log with accepted := bus.log.accepted ++ [entry] }) :
      Effect bus next
  | close (w : Nat) (worker : Worker Data) (next : EventBus Data)
      (found : bus.workers[w]? = some worker)
      (workers : next.workers = bus.workers.set w { worker with ch := worker.ch.close })
      (log : next.log = bus.log) :
      Effect bus next
  | turn (w : Nat) (worker turned : Worker Data) (next : EventBus Data)
      (found : bus.workers[w]? = some worker)
      (workers : next.workers = bus.workers.set w turned)
      (turn : Turn w worker bus.log turned next.log) :
      Effect bus next

/-- A send to an open queue is accepted, or changes nothing because the queue is
full. -/
theorem enqueue_cases
    {bus next : EventBus Data}
    {event : Event Data}
    (opened : Each (fun _ worker => worker.ch.closed = false) bus.workers)
    (queued : bus.enqueue event = some next) :
    next = bus ∨
      ∃ w worker, ∃ room : ¬ worker.ch.Full,
        bus.workers[w]? = some worker ∧ workerID bus.workers.length event.key = w ∧
          next = { bus with
            workers := bus.workers.set w
              { worker with ch := worker.ch.push ⟨bus.log.accepted.length, event⟩ room }
            log := { bus.log with
              accepted := bus.log.accepted ++ [⟨bus.log.accepted.length, event⟩] } } := by
  unfold EventBus.enqueue at queued
  generalize place : workerID bus.workers.length event.key = w at queued
  obtain ⟨worker, found, rfl⟩ := Option.map_eq_some_iff.mp queued
  rcases worker.ch.trySend_cases ⟨bus.log.accepted.length, event⟩
    (opened w worker found) with ⟨room, sent⟩ | ⟨_, dropped⟩
  · refine .inr ⟨w, worker, room, found, rfl, ?_⟩
    simp only [sent, if_true]
  · refine .inl ?_
    simp only [dropped, Bool.false_eq_true, if_false]
    rw [set_of_getElem? found]

/-- Every step has one of the listed effects. -/
theorem effect_of_step
    {bus next : EventBus Data}
    {label : Label Data}
    (control : Control bus)
    (taken : step bus label = some next) :
    Effect bus next := by
  cases label with
  | publish topic cameraID data =>
      obtain rfl := Option.some.inj taken
      exact .quiet _ rfl rfl
  | publisher p =>
      cases publishes_of_publisherStep taken with
      | move old new found reading ready => exact .quiet _ rfl rfl
      | enqueue event queued found enqueued =>
          have opened := control.opened (List.mem_of_getElem? found)
          rcases enqueue_cases opened enqueued with rfl | ⟨w, worker, room, queue, place, rfl⟩
          · exact .quiet _ rfl rfl
          · exact .accept w worker ⟨bus.log.accepted.length, event⟩ _ queue rfl place
              (opened w worker queue) room rfl rfl
  | stop =>
      obtain rfl := Option.some.inj taken
      split <;> exact .quiet _ rfl rfl
  | shutdown =>
      cases shutsDown_of_shutdownStep taken with
      | lock | store | closed | unlock | wait => exact .quiet _ rfl rfl
      | close i worker before found => exact .close i worker _ found rfl rfl
  | worker w ok =>
      obtain ⟨worker, found, _, turned, workers, turn⟩ := turns_of_workerStep taken
      exact .turn w worker turned next found workers turn
  | tick elapsed =>
      obtain rfl := Option.some.inj taken
      exact .quiet _ rfl rfl

/-- A turn uses the queue as a receiver does, and only a worker that has not
exited takes one. -/
theorem Turn.frame
    {w : Nat}
    {worker turned : Worker Data}
    {log next : Log Data}
    (turn : Turn w worker log turned next) :
    turned.ch.sent = worker.ch.sent ∧ turned.ch.closed = worker.ch.closed ∧
      turned.ch.misused = worker.ch.misused ∧ next.accepted = log.accepted ∧
      worker.task ≠ .exited := by
  cases turn with
  | exit ch idle drained =>
      obtain ⟨sent, _, closed, misused⟩ := Channel.receive_frame drained
      exact ⟨sent, closed, misused, rfl, by simp [idle]⟩
  | take entry ch idle received | discard entry ch idle received =>
      obtain ⟨sent, _, closed, misused⟩ := Channel.receive_frame received
      exact ⟨sent, closed, misused, rfl, by simp [idle]⟩
  | move entry n later task failures busy onward forward =>
      exact ⟨rfl, rfl, rfl, rfl, fun exited => by simp [exited, Task.stage] at busy⟩
  | attempt entry n task busy onward =>
      exact ⟨rfl, rfl, rfl, rfl, fun exited => by simp [exited, Task.stage] at busy⟩
  | finish entry n busy =>
      exact ⟨rfl, rfl, rfl, rfl, fun exited => by simp [exited, Task.stage] at busy⟩

/-! ## The lock invariant over runs -/

theorem InStep.of_shutdown
    {before after : Shutdown}
    {w : Nat}
    {worker : Worker Data}
    (inStep : InStep before w worker)
    (closed : after.closedAt w = before.closedAt w)
    (running : after ≠ .done) :
    InStep after w worker where
  closed := by rw [closed, inStep.closed]
  used := inStep.used
  finished := fun done => absurd done running

theorem Control.shutsDown
    {bus next : EventBus Data}
    (control : Control bus)
    (shutsDown : ShutsDown bus next) :
    Control next := by
  obtain ⟨stopped, readers, senders, queues⟩ := control
  cases shutsDown with
  | lock before unread =>
      rw [before] at stopped queues
      refine ⟨stopped, ?_, senders, ?_⟩
      · intro publisher member holds
        rw [unread publisher member] at holds
        cases holds
      · exact fun w worker found => (queues w worker found).of_shutdown rfl (by simp)
  | store before =>
      rw [before] at readers queues
      refine ⟨rfl, fun publisher member holds => ?_, fun event member => ?_, ?_⟩
      · cases readers publisher member holds
      · cases readers _ member rfl
      · intro w worker found
        exact (queues w worker found).of_shutdown (by simp [Shutdown.closedAt]) (by simp)
  | close i worker before found =>
      rw [before] at stopped readers queues
      refine ⟨stopped, readers, senders, queues.set ?_ ?_⟩
      · have opened : worker.ch.closed = false := by
          simp [(queues i worker found).closed, Shutdown.closedAt]
        have used := (queues i worker found).used
        exact ⟨by simp [Channel.close, opened, Shutdown.closedAt],
          by simp [Channel.close, opened, used], by simp⟩
      · intro k other different _ inStep
        exact inStep.of_shutdown (by simp [Shutdown.closedAt]; omega) (by simp)
  | closed i before all =>
      rw [before] at stopped readers queues
      refine ⟨stopped, readers, senders, ?_⟩
      intro w worker found
      have inside : w < bus.workers.length := (List.getElem?_eq_some_iff.mp found).1
      have beyond := List.getElem?_eq_none_iff.mp all
      exact (queues w worker found).of_shutdown
        (by simp [Shutdown.closedAt]; omega) (by simp)
  | unlock before =>
      rw [before] at stopped readers queues
      refine ⟨stopped, fun _ _ _ => rfl, senders, ?_⟩
      exact fun w worker found => (queues w worker found).of_shutdown rfl (by simp)
  | wait before exited =>
      rw [before] at stopped queues
      refine ⟨stopped, fun _ _ _ => rfl, senders, ?_⟩
      intro w worker found
      exact ⟨(queues w worker found).closed, (queues w worker found).used,
        fun _ => exited worker (List.mem_of_getElem? found)⟩

/-- A new publisher holds no lock. -/
theorem Control.publish
    {bus : EventBus Data}
    (control : Control bus)
    (topic cameraID : String)
    (data : Data) :
    Control { bus with publishers := bus.publishers ++ [.started topic cameraID data] } := by
  refine ⟨control.stopped, fun publisher member holds => ?_, fun event member => ?_,
    control.queues⟩
  · rcases List.mem_append.mp member with old | new
    · exact control.readers publisher old holds
    · rw [List.mem_singleton.mp new] at holds
      cases holds
  · rcases List.mem_append.mp member with old | new
    · exact control.senders event old
    · cases List.mem_singleton.mp new

theorem Control.publishes
    {bus next : EventBus Data}
    {p : Nat}
    (control : Control bus)
    (publishes : Publishes bus p next) :
    Control next := by
  cases publishes with
  | move old new found reading ready =>
      refine control.advance (fun holds => ?_) ready
      rcases reading holds with held | unlocked
      · exact control.readers old (List.mem_of_getElem? found) held
      · exact unlocked
  | enqueue event queued found enqueued =>
      have sending := List.mem_of_getElem? found
      have unlocked := control.readers _ sending rfl
      rcases enqueue_cases (control.opened sending) enqueued with
        rfl | ⟨w, worker, room, queue, place, rfl⟩
      · exact control.advance (fun _ => unlocked) nofun
      · have inStep := control.queues w worker queue
        have sent : Control { bus with
            workers := bus.workers.set w
              { worker with ch := worker.ch.push ⟨bus.log.accepted.length, event⟩ room }
            log := { bus.log with
              accepted := bus.log.accepted ++ [⟨bus.log.accepted.length, event⟩] } } :=
          control.of_same ⟨rfl, rfl, rfl⟩ (control.queues.set
            ⟨inStep.closed, inStep.used, inStep.finished⟩ fun _ _ _ _ old => old)
        exact sent.advance (fun _ => unlocked) nofun

theorem Control.turns
    {bus next : EventBus Data}
    {w : Nat}
    {worker : Worker Data}
    (control : Control bus)
    (found : bus.workers[w]? = some worker)
    (turns : Turns bus w worker next) :
    Control next := by
  obtain ⟨same, turned, workers, turn⟩ := turns
  obtain ⟨_, closed, misused, _, running⟩ := turn.frame
  have inStep := control.queues w worker found
  refine control.of_same same ?_
  rw [workers]
  refine control.queues.set ⟨?_, ?_, ?_⟩ fun _ _ _ _ old => old
  · rw [closed, inStep.closed]
  · rw [misused, inStep.used]
  · exact fun done => absurd (inStep.finished done) running

theorem Control.step
    {bus next : EventBus Data}
    {label : Label Data}
    (control : Control bus)
    (taken : step bus label = some next) :
    Control next := by
  cases label with
  | publish topic cameraID data =>
      obtain rfl := Option.some.inj taken
      exact control.publish topic cameraID data
  | publisher p => exact control.publishes (publishes_of_publisherStep taken)
  | stop =>
      obtain rfl := Option.some.inj taken
      split
      · rename_i before
        obtain ⟨stopped, readers, senders, queues⟩ := control
        rw [before] at stopped queues
        exact ⟨stopped, fun _ _ _ => rfl, senders,
          fun w worker found => (queues w worker found).of_shutdown rfl nofun⟩
      · exact control
  | shutdown => exact control.shutsDown (shutsDown_of_shutdownStep taken)
  | worker w ok =>
      obtain ⟨worker, found, turns⟩ := turns_of_workerStep taken
      exact control.turns found turns
  | tick elapsed =>
      obtain rfl := Option.some.inj taken
      exact ⟨control.stopped, control.readers, control.senders, control.queues⟩

end Events
end RuseonCore
