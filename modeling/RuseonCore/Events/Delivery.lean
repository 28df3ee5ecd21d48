import RuseonCore.Events.Control
import RuseonCore.Foundation.Routing

/-!
# Delivery of accepted events

A queue has one worker, which handles its entries in order, and an event's queue
depends on its key only.  Hence the events of a camera are handled in the order
of their acceptance, and when `Stop` returns every accepted event has been
handled once.
-/

namespace RuseonCore
namespace Events

open Transition Routing Slots

variable {Data : Type}

/-- Worker of an entry. -/
def route (workers : Nat) (entry : Entry Data) : Nat :=
  workerID workers entry.event.key

/-- Entries that were attempted on a webhook. -/
def Log.attempted (log : Log Data) (j : Nat) : List (Entry Data) :=
  (log.attempts.filter fun attempt => attempt.1 = j).map Prod.snd

/-- Entry that a worker is busy with. -/
def Task.current (task : Task Data) : List (Entry Data) :=
  (task.stage.map Prod.fst).toList

/-- The current entry, once it has passed a webhook. -/
def Task.passed (task : Task Data) (j : Nat) : List (Entry Data) :=
  match task.stage with
  | some (entry, n) => if j < n then [entry] else []
  | none => []

/-- What the log says of a worker agrees with its queue: it has taken what was
received, has processed all of it but the current entry, and has attempted a
part of it on every webhook. -/
structure Delivers (workers : Nat) (log : Log Data) (w : Nat) (worker : Worker Data) :
    Prop where
  sent : worker.ch.sent = share (route workers) w log.accepted
  taken : share (route workers) w (log.taken.map Prod.snd) =
    worker.ch.sent.take worker.ch.received
  processed : share (route workers) w log.processed ++ worker.task.current =
    worker.ch.sent.take worker.ch.received
  attempted : ∀ j, (share (route workers) w (log.attempted j)).Sublist
    (share (route workers) w log.processed ++ worker.task.passed j)
  exited : worker.task = .exited →
    worker.ch.closed = true ∧ worker.ch.received = worker.ch.sent.length

/-- Only the share of a worker in the log matters to it. -/
theorem Delivers.of_share
    {workers w : Nat}
    {log next : Log Data}
    {worker : Worker Data}
    (delivers : Delivers workers log w worker)
    (accepted : share (route workers) w next.accepted =
      share (route workers) w log.accepted)
    (taken : share (route workers) w (next.taken.map Prod.snd) =
      share (route workers) w (log.taken.map Prod.snd))
    (processed : share (route workers) w next.processed =
      share (route workers) w log.processed)
    (attempted : ∀ j, share (route workers) w (next.attempted j) =
      share (route workers) w (log.attempted j)) :
    Delivers workers next w worker where
  sent := by rw [accepted, delivers.sent]
  taken := by rw [taken, delivers.taken]
  processed := by rw [processed, delivers.processed]
  attempted := by
    intro j
    rw [processed, attempted]
    exact delivers.attempted j
  exited := delivers.exited

theorem attempted_concat (log : Log Data) (n j : Nat) (entry : Entry Data) :
    Log.attempted { log with attempts := log.attempts ++ [(n, entry)] } j =
      log.attempted j ++ if n = j then [entry] else [] := by
  by_cases same : n = j <;> simp [Log.attempted, same]

/-- An entry that a worker is busy with was routed to it. -/
theorem Delivers.route_current
    {workers w n : Nat}
    {log : Log Data}
    {worker : Worker Data}
    {entry : Entry Data}
    (delivers : Delivers workers log w worker)
    (busy : worker.task.stage = some (entry, n)) :
    route workers entry = w := by
  have member : entry ∈ worker.ch.sent.take worker.ch.received := by
    rw [← delivers.processed]
    simp [Task.current, busy]
  have sent := List.mem_of_mem_take member
  rw [delivers.sent] at sent
  exact (mem_share.mp sent).2

/-- An entry that a worker receives was routed to it. -/
theorem Delivers.route_received
    {workers w : Nat}
    {log : Log Data}
    {worker : Worker Data}
    {entry : Entry Data}
    {ch : Channel (Entry Data)}
    (delivers : Delivers workers log w worker)
    (received : worker.ch.receive = some (some entry, ch)) :
    route workers entry = w := by
  have member : entry ∈ ch.sent.take ch.received := by
    rw [(Channel.receive_item received).2]
    simp
  have sent := List.mem_of_mem_take member
  rw [(Channel.receive_frame received).1, delivers.sent] at sent
  exact (mem_share.mp sent).2

theorem current_of_stage
    {task : Task Data}
    {entry : Entry Data}
    {n : Nat}
    (busy : task.stage = some (entry, n)) :
    task.current = [entry] := by
  simp [Task.current, busy]

theorem passed_of_stage
    {task : Task Data}
    {entry : Entry Data}
    {n : Nat}
    (busy : task.stage = some (entry, n))
    (j : Nat) :
    task.passed j = if j < n then [entry] else [] := by
  simp [Task.passed, busy]

/-- Receiving an entry keeps the worker's account, with the entry as the current
one. -/
theorem Delivers.receive
    {workers w : Nat}
    {log : Log Data}
    {worker : Worker Data}
    {entry : Entry Data}
    {ch : Channel (Entry Data)}
    (delivers : Delivers workers log w worker)
    (idle : worker.task = .idle)
    (received : worker.ch.receive = some (some entry, ch)) :
    Delivers workers { log with taken := log.taken ++ [(w, entry)] } w
      ⟨ch, .delivering entry 0⟩ := by
  have here := delivers.route_received received
  obtain ⟨_, item⟩ := Channel.receive_item received
  have same := (Channel.receive_frame received).1
  have processed := delivers.processed
  have attempted := delivers.attempted
  rw [idle] at processed attempted
  refine ⟨same.trans delivers.sent, ?_, ?_, attempted, nofun⟩
  · rw [List.map_append, share_append, delivers.taken, item]
    exact congrArg _ (share_singleton_self here)
  · rw [item, ← processed]
    simp [Task.current, Task.stage]

/-- Ending the loop body keeps the worker's account. -/
theorem Delivers.finish
    {workers w n : Nat}
    {log : Log Data}
    {worker : Worker Data}
    {entry : Entry Data}
    (delivers : Delivers workers log w worker)
    (busy : worker.task.stage = some (entry, n)) :
    Delivers workers { log with processed := log.processed ++ [entry] } w
      { worker with task := .idle } := by
  have here := delivers.route_current busy
  have current := current_of_stage busy
  have processed := delivers.processed
  rw [current] at processed
  refine ⟨delivers.sent, delivers.taken, ?_, fun j => ?_, nofun⟩
  · rw [share_append, share_singleton_self here]
    exact (List.append_nil _).trans processed
  · refine (delivers.attempted j).trans ?_
    rw [passed_of_stage busy, share_append, share_singleton_self here]
    refine List.Sublist.trans ?_ (List.sublist_append_left _ _)
    exact List.Sublist.append_left (by split <;> simp) _

/-- A turn keeps the worker's account. -/
theorem Delivers.turn
    {workers w : Nat}
    {log next : Log Data}
    {worker turned : Worker Data}
    (delivers : Delivers workers log w worker)
    (turn : Turn w worker log turned next) :
    Delivers workers next w turned := by
  cases turn with
  | exit ch idle drained =>
      obtain ⟨rfl, closed, complete⟩ := Channel.receive_closed drained
      obtain ⟨sent, taken, processed, attempted, _⟩ := delivers
      rw [idle] at processed attempted
      exact ⟨sent, taken, processed, attempted, fun _ => ⟨closed, complete⟩⟩
  | take entry ch idle received => exact delivers.receive idle received
  | discard entry ch idle received => exact (delivers.receive idle received).finish rfl
  | move entry n later task failures busy onward forward =>
      obtain ⟨sent, taken, processed, attempted, _⟩ := delivers
      rw [current_of_stage busy] at processed
      refine ⟨sent, taken, ?_, fun j => (attempted j).trans ?_, fun exited => ?_⟩
      · rw [current_of_stage onward, processed]
      · rw [passed_of_stage busy, passed_of_stage onward]
        refine List.Sublist.append_left ?_ _
        split
        · rw [if_pos (by omega)]
        · exact List.nil_sublist _
      · simp only at exited
        simp [exited, Task.stage] at onward
  | attempt entry n task busy onward =>
      have here := delivers.route_current busy
      obtain ⟨sent, taken, processed, attempted, _⟩ := delivers
      rw [current_of_stage busy] at processed
      refine ⟨sent, taken, ?_, fun j => ?_, fun exited => ?_⟩
      · rw [current_of_stage onward, processed]
      · have before := attempted j
        rw [passed_of_stage busy] at before
        rw [passed_of_stage onward, attempted_concat, share_append]
        by_cases same : n = j
        · subst same
          rw [if_neg (lt_irrefl n), List.append_nil] at before
          rw [if_pos rfl, if_pos (Nat.lt_succ_self n), share_singleton_self here]
          exact before.append_right [entry]
        · have bound : j < n + 1 ↔ j < n := by omega
          simpa [same, bound] using before
      · simp only at exited
        simp [exited, Task.stage] at onward
  | finish entry n busy => exact delivers.finish busy

/-- A turn of a worker does not touch the accounts of the others. -/
theorem Delivers.other_turn
    {workers v w : Nat}
    {log next : Log Data}
    {worker turned other : Worker Data}
    (delivers : Delivers workers log v worker)
    (turn : Turn v worker log turned next)
    (different : w ≠ v)
    (others : Delivers workers log w other) :
    Delivers workers next w other := by
  have away : ∀ {entry : Entry Data}, route workers entry = v →
      share (route workers) w [entry] = [] :=
    fun here => share_singleton_of_ne (here ▸ different.symm)
  cases turn with
  | exit ch idle drained => exact others
  | take entry ch idle received =>
      have elsewhere := away (delivers.route_received received)
      refine others.of_share rfl ?_ rfl fun _ => rfl
      rw [List.map_append, share_append]
      exact (congrArg _ elsewhere).trans (List.append_nil _)
  | discard entry ch idle received =>
      have elsewhere := away (delivers.route_received received)
      refine others.of_share rfl ?_ ?_ fun _ => rfl
      · rw [List.map_append, share_append]
        exact (congrArg _ elsewhere).trans (List.append_nil _)
      · rw [share_append, elsewhere, List.append_nil]
  | move entry n later task failures busy onward forward =>
      exact others.of_share rfl rfl rfl fun _ => rfl
  | attempt entry n task busy onward =>
      have elsewhere := away (delivers.route_current busy)
      refine others.of_share rfl rfl rfl fun j => ?_
      rw [attempted_concat, share_append]
      split
      · rw [elsewhere, List.append_nil]
      · exact List.append_nil _
  | finish entry n busy =>
      have elsewhere := away (delivers.route_current busy)
      refine others.of_share rfl rfl ?_ fun _ => rfl
      rw [share_append, elsewhere, List.append_nil]

/-- Accepting an entry extends the account of its worker. -/
theorem Delivers.accept
    {workers w : Nat}
    {log : Log Data}
    {worker : Worker Data}
    {entry : Entry Data}
    (delivers : Delivers workers log w worker)
    (here : route workers entry = w)
    (opened : worker.ch.closed = false)
    (room : ¬ worker.ch.Full) :
    Delivers workers { log with accepted := log.accepted ++ [entry] } w
      { worker with ch := worker.ch.push entry room } := by
  have unchanged : (worker.ch.sent ++ [entry]).take worker.ch.received =
      worker.ch.sent.take worker.ch.received :=
    List.take_append_of_le_length worker.ch.received_le
  refine ⟨?_, ?_, ?_, delivers.attempted, fun exited => ?_⟩
  · rw [Channel.sent_push, share_append, share_singleton_self here, delivers.sent]
  · exact delivers.taken.trans unchanged.symm
  · exact delivers.processed.trans unchanged.symm
  · rw [(delivers.exited exited).1] at opened
    cases opened

/-- Closing the queue keeps the account of its worker. -/
theorem Delivers.close
    {workers w : Nat}
    {log : Log Data}
    {worker : Worker Data}
    (delivers : Delivers workers log w worker) :
    Delivers workers log w { worker with ch := worker.ch.close } where
  sent := (Channel.sent_close _).trans delivers.sent
  taken := by
    rw [Channel.sent_close, Channel.received_close]
    exact delivers.taken
  processed := by
    rw [Channel.sent_close, Channel.received_close]
    exact delivers.processed
  attempted := delivers.attempted
  exited := fun exited => ⟨Channel.closed_close _, by
    rw [Channel.sent_close, Channel.received_close]
    exact (delivers.exited exited).2⟩

/-! ## Runs -/

/-- The accounts of all workers agree with the log. -/
structure Conserves (workers : Nat) (bus : EventBus Data) : Prop where
  control : Control bus
  size : bus.workers.length = workers
  delivers : Each (Delivers workers bus.log) bus.workers
  numbered : bus.log.accepted.map Entry.number = List.range bus.log.accepted.length
  takers : ∀ take ∈ bus.log.taken, take.1 = route workers take.2

theorem new_conserves (webhooks : List WebhookConfig) (numWorkers : Int) :
    Conserves (if numWorkers ≤ 0 then 4 else numWorkers.toNat)
      (new webhooks numWorkers : EventBus Data) where
  control := new_control webhooks numWorkers
  size := List.length_replicate
  delivers := by
    intro w worker found
    obtain rfl := List.eq_of_mem_replicate (List.mem_of_getElem? found)
    exact ⟨rfl, rfl, rfl, fun _ => List.nil_sublist _, nofun⟩
  numbered := rfl
  takers := nofun

/-- The entries that a turn takes are taken by their worker. -/
theorem Delivers.takers
    {workers w : Nat}
    {log next : Log Data}
    {worker turned : Worker Data}
    (delivers : Delivers workers log w worker)
    (turn : Turn w worker log turned next)
    (takers : ∀ take ∈ log.taken, take.1 = route workers take.2) :
    ∀ take ∈ next.taken, take.1 = route workers take.2 := by
  cases turn with
  | exit | move | attempt | finish => exact takers
  | take entry ch idle received | discard entry ch idle received =>
      intro take member
      rcases List.mem_append.mp member with old | new
      · exact takers take old
      · rw [List.mem_singleton.mp new]
        exact (delivers.route_received received).symm

theorem Conserves.step
    {workers : Nat}
    {bus next : EventBus Data}
    {label : Label Data}
    (conserves : Conserves workers bus)
    (taken : step bus label = some next) :
    Conserves workers next := by
  obtain ⟨control, size, delivers, numbered, takers⟩ := conserves
  have nextControl := control.step taken
  cases effect_of_step control taken with
  | quiet _ sameWorkers sameLog =>
      exact ⟨nextControl, sameWorkers ▸ size, by rw [sameWorkers, sameLog]; exact delivers,
        sameLog ▸ numbered, sameLog ▸ takers⟩
  | accept w worker entry _ found number place opened room newWorkers newLog =>
      have here : route workers entry = w := by rw [← place, size, route]
      refine ⟨nextControl, ?_, ?_, ?_, ?_⟩
      · rw [newWorkers, List.length_set, size]
      · rw [newWorkers, newLog]
        refine delivers.set ((delivers w worker found).accept here opened room) ?_
        intro k other different _ old
        refine old.of_share ?_ rfl rfl fun _ => rfl
        rw [share_append, share_singleton_of_ne (here ▸ different.symm), List.append_nil]
      · rw [newLog]
        simp [numbered, number, List.range_succ]
      · rw [newLog]
        exact takers
  | close w worker _ found newWorkers sameLog =>
      refine ⟨nextControl, ?_, ?_, sameLog ▸ numbered, sameLog ▸ takers⟩
      · rw [newWorkers, List.length_set, size]
      · rw [newWorkers, sameLog]
        exact delivers.set (delivers w worker found).close fun _ _ _ _ old => old
  | turn w worker turned _ found newWorkers turn =>
      have account := delivers w worker found
      obtain ⟨_, _, _, sameAccepted, _⟩ := turn.frame
      refine ⟨nextControl, ?_, ?_, sameAccepted ▸ numbered, account.takers turn takers⟩
      · rw [newWorkers, List.length_set, size]
      · rw [newWorkers]
        exact delivers.set (account.turn turn) fun k other different _ old =>
          account.other_turn turn different old

theorem conserves_of_run
    {webhooks : List WebhookConfig}
    {numWorkers : Int}
    {labels : List (Label Data)}
    {bus : EventBus Data}
    (reached : run step (new webhooks numWorkers) labels = some bus) :
    Conserves (if numWorkers ≤ 0 then 4 else numWorkers.toNat) bus :=
  run_invariant (fun _ _ _ conserves taken => conserves.step taken)
    (new_conserves webhooks numWorkers) reached

section Consequences

variable {workers : Nat} {bus : EventBus Data}

/-- Nothing is routed beyond the last worker. -/
theorem share_route_of_le
    (positive : 0 < workers)
    {w : Nat}
    (beyond : workers ≤ w)
    (items : List (Entry Data)) :
    share (route workers) w items = [] := by
  refine List.filter_eq_nil_iff.mpr fun entry _ => ?_
  have inside : route workers entry < workers := Nat.mod_lt _ positive
  simp only [decide_eq_true_eq]
  omega

/-- A fact about the share of every worker in two lists. -/
theorem Conserves.forall_share
    (conserves : Conserves workers bus)
    (positive : 0 < workers)
    {related : List (Entry Data) → List (Entry Data) → Prop}
    {first second : List (Entry Data)}
    (empty : related [] [])
    (each : ∀ w worker, bus.workers[w]? = some worker → Delivers workers bus.log w worker →
      related (share (route workers) w first) (share (route workers) w second))
    (w : Nat) :
    related (share (route workers) w first) (share (route workers) w second) := by
  cases found : bus.workers[w]? with
  | some worker => exact each w worker found (conserves.delivers w worker found)
  | none =>
      have beyond := List.getElem?_eq_none_iff.mp found
      rw [conserves.size] at beyond
      rw [share_route_of_le positive beyond, share_route_of_le positive beyond]
      exact empty

/-- Workers process an initial part of what was accepted for them. -/
theorem Conserves.processed_prefix
    (conserves : Conserves workers bus)
    (positive : 0 < workers)
    (w : Nat) :
    share (route workers) w bus.log.processed <+: share (route workers) w bus.log.accepted := by
  refine conserves.forall_share positive List.prefix_rfl (fun w worker _ delivers => ?_) w
  rw [← delivers.sent]
  have part : share (route workers) w bus.log.processed <+:
      worker.ch.sent.take worker.ch.received := by
    rw [← delivers.processed]
    exact List.prefix_append _ _
  exact part.trans (List.take_prefix _ _)

theorem Conserves.taken_prefix
    (conserves : Conserves workers bus)
    (positive : 0 < workers)
    (w : Nat) :
    share (route workers) w (bus.log.taken.map Prod.snd) <+:
      share (route workers) w bus.log.accepted := by
  refine conserves.forall_share positive List.prefix_rfl (fun w worker _ delivers => ?_) w
  rw [← delivers.sent, delivers.taken]
  exact List.take_prefix _ _

/-- A webhook is attempted on a part of what was accepted, in order. -/
theorem Conserves.attempted_sublist
    (conserves : Conserves workers bus)
    (positive : 0 < workers)
    (j w : Nat) :
    (share (route workers) w (bus.log.attempted j)).Sublist
      (share (route workers) w bus.log.accepted) := by
  refine conserves.forall_share positive (List.Sublist.refl []) (fun w worker _ delivers => ?_) w
  rw [← delivers.sent]
  have part : (worker.task.passed j).Sublist worker.task.current := by
    unfold Task.passed Task.current
    cases worker.task.stage with
    | none => exact List.Sublist.refl _
    | some stage => by_cases passed : j < stage.2 <;> simp [passed]
  calc
    (share (route workers) w (bus.log.attempted j)).Sublist
        (share (route workers) w bus.log.processed ++ worker.task.passed j) :=
      delivers.attempted j
    List.Sublist _ (share (route workers) w bus.log.processed ++ worker.task.current) :=
      part.append_left _
    List.Sublist _ worker.ch.sent := by
      rw [delivers.processed]
      exact List.take_sublist _ _

/-- When `Stop` returns, every worker has drained its queue. -/
theorem Conserves.drained
    (conserves : Conserves workers bus)
    (returned : bus.shutdown = .done)
    {w : Nat}
    {worker : Worker Data}
    (found : bus.workers[w]? = some worker) :
    worker.task = .exited ∧ worker.ch.received = worker.ch.sent.length := by
  have exited := (conserves.control.queues w worker found).finished returned
  exact ⟨exited, ((conserves.delivers w worker found).exited exited).2⟩

theorem Conserves.processed_eq
    (conserves : Conserves workers bus)
    (positive : 0 < workers)
    (returned : bus.shutdown = .done)
    (w : Nat) :
    share (route workers) w bus.log.processed = share (route workers) w bus.log.accepted := by
  refine conserves.forall_share positive rfl (fun w worker found delivers => ?_) w
  obtain ⟨exited, complete⟩ := conserves.drained returned found
  have processed := delivers.processed
  rw [exited, complete, List.take_length, delivers.sent] at processed
  simpa [Task.current, Task.stage] using processed

theorem Conserves.taken_eq
    (conserves : Conserves workers bus)
    (positive : 0 < workers)
    (returned : bus.shutdown = .done)
    (w : Nat) :
    share (route workers) w (bus.log.taken.map Prod.snd) =
      share (route workers) w bus.log.accepted := by
  refine conserves.forall_share positive rfl (fun w worker found delivers => ?_) w
  obtain ⟨_, complete⟩ := conserves.drained returned found
  rw [delivers.taken, complete, List.take_length, delivers.sent]

/-- Accepted entries are told apart by their numbers. -/
theorem Conserves.nodup_accepted (conserves : Conserves workers bus) :
    bus.log.accepted.Nodup := by
  have numbers : (bus.log.accepted.map Entry.number).Nodup := by
    rw [conserves.numbered]
    exact List.nodup_range
  exact numbers.of_map

/-- Events with one routing key are processed in the order of their acceptance. -/
theorem Conserves.in_order
    (conserves : Conserves workers bus)
    (positive : 0 < workers)
    (key : String)
    {selected : Entry Data → Bool}
    (together : ∀ entry, selected entry = true → entry.event.key = key) :
    bus.log.processed.filter selected <+: bus.log.accepted.filter selected ∧
      ∀ j, ((bus.log.attempted j).filter selected).Sublist
        (bus.log.accepted.filter selected) := by
  have routed : ∀ entry, selected entry = true →
      route workers entry = workerID workers key := by
    intro entry member
    rw [route, together entry member]
  constructor
  · exact filter_prefix_of_share routed (conserves.processed_prefix positive _)
  · intro j
    exact filter_sublist_of_share routed (conserves.attempted_sublist positive j _)

end Consequences

/-- For every interleaving of publishers, workers and `Stop`: no queue is sent to
or closed after it was closed; each accepted entry is taken by one worker and
processed at most once, and exactly once when `Stop` has returned; the events of
a camera are processed in the order of their acceptance, and each webhook is
attempted on a subsequence of them in that order; and so are the events of a topic
among those that name no camera. -/
theorem accepted_events_delivered
    (webhooks : List WebhookConfig)
    (numWorkers : Int)
    (labels : List (Label Data))
    (bus : EventBus Data)
    (reached : run step (new webhooks numWorkers) labels = some bus) :
    (∀ worker ∈ bus.workers, worker.ch.misused = false) ∧
    (bus.log.accepted.map Entry.number = List.range bus.log.accepted.length ∧
      (bus.log.taken.map Prod.snd).Nodup ∧ bus.log.taken.map Prod.snd ⊆ bus.log.accepted ∧
      bus.log.processed.Nodup ∧ bus.log.processed ⊆ bus.log.accepted) ∧
    (bus.shutdown = .done →
      (bus.log.taken.map Prod.snd).Perm bus.log.accepted ∧
      bus.log.processed.Perm bus.log.accepted) ∧
    (∀ camera, camera ≠ "" →
      (bus.log.processed.filter fun entry => entry.event.cameraID = camera) <+:
        (bus.log.accepted.filter fun entry => entry.event.cameraID = camera) ∧
      ∀ j, ((bus.log.attempted j).filter fun entry => entry.event.cameraID = camera).Sublist
        (bus.log.accepted.filter fun entry => entry.event.cameraID = camera)) ∧
    ∀ topic,
      (bus.log.processed.filter fun entry =>
          entry.event.cameraID = "" ∧ entry.event.topic = topic) <+:
        (bus.log.accepted.filter fun entry =>
          entry.event.cameraID = "" ∧ entry.event.topic = topic) ∧
      ∀ j, ((bus.log.attempted j).filter fun entry =>
          entry.event.cameraID = "" ∧ entry.event.topic = topic).Sublist
        (bus.log.accepted.filter fun entry =>
          entry.event.cameraID = "" ∧ entry.event.topic = topic) := by
  have conserves := conserves_of_run reached
  set workers := if numWorkers ≤ 0 then 4 else numWorkers.toNat with workersEq
  have positive : 0 < workers := by
    rw [workersEq]
    split <;> omega
  have nodup := conserves.nodup_accepted
  have taken := subperm_of_share fun w => (conserves.taken_prefix positive w).sublist
  have processed := subperm_of_share fun w => (conserves.processed_prefix positive w).sublist
  refine ⟨?_, ⟨conserves.numbered, nodup_of_subperm taken nodup, taken.subset,
    nodup_of_subperm processed nodup, processed.subset⟩, ?_, ?_, ?_⟩
  · intro worker member
    obtain ⟨w, found⟩ := List.mem_iff_getElem?.mp member
    exact (conserves.control.queues w worker found).used
  · intro returned
    exact ⟨perm_of_share (conserves.taken_eq positive returned),
      perm_of_share (conserves.processed_eq positive returned)⟩
  · intro camera named
    apply conserves.in_order positive camera
    intro entry same
    rw [decide_eq_true_eq] at same
    simp [Event.key, same, named]
  · intro topic
    apply conserves.in_order positive topic
    intro entry same
    rw [decide_eq_true_eq] at same
    simp [Event.key, same.1, same.2]

/-- Two events of a camera, delivered to a webhook while the bus is stopped. -/
def deliveryRun : List (Label Unit) :=
  [.publish "camera_online" "a" (), .publisher 0, .publisher 0, .publisher 0, .publisher 0,
    .publish "camera_offline" "a" (), .publisher 1, .publisher 1, .publisher 1, .publisher 1,
    .publisher 0, .stop, .publisher 1, .shutdown, .worker 0 true, .shutdown, .shutdown,
    .worker 0 true, .shutdown, .shutdown, .shutdown, .worker 0 true, .worker 0 true,
    .worker 0 true, .worker 0 true, .worker 0 true, .worker 0 true, .worker 0 true,
    .worker 1 true, .shutdown]

theorem accepted_events_delivered_stopped :
    ∃ bus, run step (new [⟨"http://hook", [], ""⟩] 2) deliveryRun = some bus ∧
      bus.log.accepted.length = 2 ∧ bus.log.processed.Perm bus.log.accepted ∧
      (bus.log.attempted 0).length = 2 := by
  have done : (run step (new [⟨"http://hook", [], ""⟩] 2) deliveryRun).map
      (fun bus => (bus.shutdown, bus.log.accepted.length, (bus.log.attempted 0).length)) =
        some (.done, 2, 2) := by
    decide +kernel
  obtain ⟨bus, reached, facts⟩ := Option.map_eq_some_iff.mp done
  simp only [Prod.mk.injEq] at facts
  have delivered := accepted_events_delivered _ _ _ bus reached
  exact ⟨bus, reached, facts.2.1, (delivered.2.2.1 facts.1).2, facts.2.2⟩

end Events
end RuseonCore
