import RuseonCore.Events.EventBus

/-!
# The circuit breaker under several workers

All workers share the map of circuit breakers.  A worker that found an expired
entry and then delivers successfully deletes the entry of its webhook, also when
another worker has recorded a new failure in the meantime.  The circuit is open
for 30 seconds after every recorded failure exactly if no entry is deleted within
30 seconds of one.
-/

namespace RuseonCore
namespace Events

open Transition

variable {Data : Type}

/-- Failures recorded for a URL are at least 30 seconds old. -/
def EventBus.Expired (bus : EventBus Data) (url : String) : Prop :=
  ∀ failure ∈ bus.log.failures, failure.1 = url → failure.2 + openFor ≤ bus.clock

instance (bus : EventBus Data) (url : String) : Decidable (bus.Expired url) :=
  inferInstanceAs (Decidable (∀ failure ∈ bus.log.failures, _ → _))

/-- URL that the next step of a worker starts to send to. -/
def EventBus.sendsTo (bus : EventBus Data) (w : Nat) : Option String :=
  match (bus.workers[w]?).map Worker.task with
  | some (.delivering entry j) =>
      (bus.webhooks[j]?).bind fun wh =>
        if matchesTopic wh.topics entry.event.topic && !bus.skips wh.url then some wh.url
        else none
  | _ => none

/-- URL whose entry a step deletes. -/
def EventBus.deletes (bus : EventBus Data) : Label Data → Option String
  | .worker w _ =>
      match (bus.workers[w]?).map Worker.task with
      | some (.resetting _ j) => (bus.webhooks[j]?).map WebhookConfig.url
      | _ => none
  | _ => none

/-- No worker that has passed its check goes on to send to a URL within 30 seconds
of a failure recorded for it. -/
def Guarded (bus : EventBus Data) : Label Data → Prop
  | .worker w _ => ∀ url ∈ bus.sendsTo w, bus.Expired url
  | _ => True

instance (bus : EventBus Data) : (label : Label Data) → Decidable (Guarded bus label)
  | .worker w _ => inferInstanceAs (Decidable (∀ url ∈ bus.sendsTo w, bus.Expired url))
  | .publish _ _ _ | .publisher _ | .stop | .shutdown | .tick _ =>
      inferInstanceAs (Decidable True)

/-- Entries are deleted only when all failures recorded for their URL have
expired. -/
def ResetsExpired (bus : EventBus Data) (label : Label Data) : Prop :=
  ∀ url ∈ bus.deletes label, bus.Expired url

instance (bus : EventBus Data) (label : Label Data) : Decidable (ResetsExpired bus label) :=
  inferInstanceAs (Decidable (∀ url ∈ bus.deletes label, bus.Expired url))

/-- A check made now skips every URL with a failure that has not expired. -/
def Covered (bus : EventBus Data) : Prop :=
  ∀ url, bus.skips url = true ∨ bus.Expired url

/-- Entries reach as far as the failures recorded for their URL, and failures lie in
the past. -/
structure Recorded (bus : EventBus Data) : Prop where
  past : ∀ failure ∈ bus.log.failures, failure.2 ≤ bus.clock
  reach : ∀ failure ∈ bus.log.failures, ∀ unlockTime,
    bus.circuitBreakers failure.1 = some unlockTime → failure.2 + openFor ≤ unlockTime

/-! ## What the steps do to the breakers -/

/-- What a step does to breakers, recorded failures and clock; the index is the URL
whose entry it deletes. -/
inductive Switches (bus : EventBus Data) : Option String → EventBus Data → Prop
  | keep (next : EventBus Data)
      (breakers : next.circuitBreakers = bus.circuitBreakers)
      (failures : next.log.failures = bus.log.failures)
      (clock : bus.clock ≤ next.clock) :
      Switches bus none next
  | trip (url : String) (next : EventBus Data)
      (breakers : next.circuitBreakers =
        Function.update bus.circuitBreakers url (some (bus.clock + openFor)))
      (failures : next.log.failures = bus.log.failures ++ [(url, bus.clock)])
      (clock : next.clock = bus.clock) :
      Switches bus none next
  | reset (url : String) (next : EventBus Data)
      (breakers : next.circuitBreakers = Function.update bus.circuitBreakers url none)
      (failures : next.log.failures = bus.log.failures)
      (clock : next.clock = bus.clock) :
      Switches bus (some url) next

theorem switches_of_take
    {bus next : EventBus Data}
    {w : Nat}
    {worker : Worker Data}
    {marshaled : Bool}
    (taken : bus.take w worker marshaled = some next) :
    Switches bus none next := by
  unfold EventBus.take at taken
  split at taken
  · simp at taken
  · obtain rfl := Option.some.inj taken
    exact .keep _ rfl rfl le_rfl
  · split at taken
    · obtain rfl := Option.some.inj taken
      exact .keep _ rfl rfl le_rfl
    · obtain rfl := Option.some.inj taken
      exact .keep _ rfl rfl le_rfl

theorem switches_check
    (bus : EventBus Data)
    (w : Nat)
    (worker : Worker Data)
    (entry : Entry Data)
    (j : Nat) :
    Switches bus none (bus.check w worker entry j) := by
  unfold EventBus.check
  split
  · exact .keep _ rfl rfl le_rfl
  · split
    · exact .keep _ rfl rfl le_rfl
    · split <;> exact .keep _ rfl rfl le_rfl

theorem deletes_worker
    {bus : EventBus Data}
    {w : Nat}
    {worker : Worker Data}
    (found : bus.workers[w]? = some worker)
    (ok : Bool) :
    bus.deletes (.worker w ok) =
      match worker.task with
      | .resetting _ j => (bus.webhooks[j]?).map WebhookConfig.url
      | _ => none := by
  simp only [EventBus.deletes, found, Option.map_some]
  cases worker.task <;> rfl

theorem switches_of_workerStep
    {bus next : EventBus Data}
    {w : Nat}
    {ok : Bool}
    (taken : bus.workerStep w ok = some next) :
    Switches bus (bus.deletes (.worker w ok)) next := by
  unfold EventBus.workerStep at taken
  split at taken
  · simp at taken
  · rename_i worker found
    rw [deletes_worker found]
    split at taken
    · rename_i idle
      rw [idle]
      exact switches_of_take taken
    · rename_i entry j busy
      rw [busy]
      obtain rfl := Option.some.inj taken
      exact switches_check bus w worker entry j
    · rename_i entry j isOpen busy
      rw [busy]
      split at taken
      · obtain rfl := Option.some.inj taken
        exact .keep _ rfl rfl le_rfl
      · split at taken <;>
          (obtain rfl := Option.some.inj taken; exact .keep _ rfl rfl le_rfl)
    · rename_i entry j busy
      rw [busy]
      obtain ⟨wh, _, rfl⟩ := Option.map_eq_some_iff.mp taken
      exact .trip wh.url _ rfl rfl rfl
    · rename_i entry j busy
      rw [busy]
      obtain ⟨wh, webhook, rfl⟩ := Option.map_eq_some_iff.mp taken
      simp only [webhook, Option.map_some]
      exact .reset wh.url _ rfl rfl rfl
    · simp at taken

theorem switches_of_step
    {bus next : EventBus Data}
    {label : Label Data}
    (taken : step bus label = some next) :
    Switches bus (bus.deletes label) next := by
  cases label with
  | publish topic cameraID data =>
      obtain rfl := Option.some.inj taken
      exact .keep _ rfl rfl le_rfl
  | publisher p =>
      cases publishes_of_publisherStep taken with
      | move old new found reading ready => exact .keep _ rfl rfl le_rfl
      | enqueue event queued found enqueued =>
          obtain ⟨worker, _, rfl⟩ := Option.map_eq_some_iff.mp enqueued
          refine .keep _ rfl ?_ le_rfl
          simp only [EventBus.advance]
          split <;> rfl
  | stop =>
      obtain rfl := Option.some.inj taken
      split <;> exact .keep _ rfl rfl le_rfl
  | shutdown =>
      cases shutsDown_of_shutdownStep taken <;> exact .keep _ rfl rfl le_rfl
  | worker w ok => exact switches_of_workerStep taken
  | tick elapsed =>
      obtain rfl := Option.some.inj taken
      exact .keep _ rfl rfl (Nat.le_add_right _ _)

theorem Recorded.switches
    {bus next : EventBus Data}
    {deleted : Option String}
    (recorded : Recorded bus)
    (switches : Switches bus deleted next) :
    Recorded next := by
  obtain ⟨past, reach⟩ := recorded
  cases switches with
  | keep _ breakers failures clock =>
      rw [← failures] at past reach
      rw [← breakers] at reach
      exact ⟨fun failure member => (past failure member).trans clock, reach⟩
  | trip url _ breakers failures clock =>
      constructor
      · rw [failures, clock]
        intro failure member
        rcases List.mem_append.mp member with old | new
        · exact past failure old
        · rw [List.mem_singleton.mp new]
      · rw [failures, breakers]
        intro failure member unlockTime entry
        by_cases same : failure.1 = url
        · rw [same, Function.update_self, Option.some.injEq] at entry
          have before : failure.2 ≤ bus.clock := by
            rcases List.mem_append.mp member with old | new
            · exact past failure old
            · rw [List.mem_singleton.mp new]
          omega
        · rw [Function.update_of_ne same] at entry
          rcases List.mem_append.mp member with old | new
          · exact reach failure old unlockTime entry
          · exact absurd (congrArg Prod.fst (List.mem_singleton.mp new)) same
  | reset url _ breakers failures clock =>
      rw [← failures] at past reach
      rw [← clock] at past
      refine ⟨past, fun failure member unlockTime entry => ?_⟩
      rw [breakers] at entry
      by_cases same : failure.1 = url
      · rw [same, Function.update_self] at entry
        cases entry
      · rw [Function.update_of_ne same] at entry
        exact reach failure member unlockTime entry

/-- A URL without an entry is not skipped, one with an entry is skipped until the
entry expires. -/
theorem skips_iff (bus : EventBus Data) (url : String) :
    bus.skips url = true ↔
      ∃ unlockTime, bus.circuitBreakers url = some unlockTime ∧ bus.clock < unlockTime := by
  unfold EventBus.skips
  cases bus.circuitBreakers url with
  | none => simp
  | some unlockTime => simp

/-- An entry covers its URL for as long as failures recorded for it last. -/
theorem skips_or_expired_of_entry
    {bus : EventBus Data}
    {url : String}
    {unlockTime : Nat}
    (recorded : Recorded bus)
    (entry : bus.circuitBreakers url = some unlockTime) :
    bus.skips url = true ∨ bus.Expired url := by
  by_cases before : bus.clock < unlockTime
  · exact .inl ((skips_iff bus url).mpr ⟨unlockTime, entry, before⟩)
  · refine .inr fun failure member same => ?_
    have reached := recorded.reach failure member unlockTime (same ▸ entry)
    omega

/-- Failures that have expired stay so. -/
theorem EventBus.Expired.later
    {bus next : EventBus Data}
    {url : String}
    (expired : bus.Expired url)
    (failures : next.log.failures = bus.log.failures)
    (clock : bus.clock ≤ next.clock) :
    next.Expired url := by
  intro failure member same
  rw [failures] at member
  exact (expired failure member same).trans clock

/-- A URL stays covered if its entry is not touched and no failure is recorded for it. -/
theorem covered_untouched
    {bus next : EventBus Data}
    {url : String}
    (covered : bus.skips url = true ∨ bus.Expired url)
    (recorded : Recorded next)
    (same : next.circuitBreakers url = bus.circuitBreakers url)
    (known : ∀ failure ∈ next.log.failures, failure.1 = url → failure ∈ bus.log.failures)
    (clock : bus.clock ≤ next.clock) :
    next.skips url = true ∨ next.Expired url := by
  rcases covered with skipped | expired
  · obtain ⟨unlockTime, entry, _⟩ := (skips_iff bus url).mp skipped
    exact skips_or_expired_of_entry recorded (same.trans entry)
  · refine .inr fun failure member url => ?_
    exact (expired failure (known failure member url) url).trans clock

/-- A step keeps all recent failures covered exactly if it deletes no entry within
30 seconds of a failure. -/
theorem covered_iff
    {bus next : EventBus Data}
    {deleted : Option String}
    (recorded : Recorded bus)
    (covered : Covered bus)
    (switches : Switches bus deleted next) :
    Covered next ↔ ∀ url ∈ deleted, bus.Expired url := by
  have nextRecorded := recorded.switches switches
  cases switches with
  | keep _ breakers failures clock =>
      refine iff_of_true (fun url => ?_) nofun
      exact covered_untouched (covered url) nextRecorded (congrFun breakers url)
        (fun failure member _ => failures ▸ member) clock
  | trip url _ breakers failures clock =>
      refine iff_of_true (fun other => ?_) nofun
      by_cases same : other = url
      · have entry : next.circuitBreakers other = some (bus.clock + openFor) := by
          rw [breakers, same, Function.update_self]
        exact skips_or_expired_of_entry nextRecorded entry
      · refine covered_untouched (covered other) nextRecorded ?_ (fun failure member at_ => ?_)
          clock.ge
        · rw [breakers, Function.update_of_ne same]
        · rw [failures] at member
          rcases List.mem_append.mp member with old | new
          · exact old
          · rw [List.mem_singleton.mp new] at at_
            exact absurd at_.symm same
  | reset url _ breakers failures clock =>
      have gone : next.skips url = false := by
        simp [EventBus.skips, breakers]
      constructor
      · intro kept other chosen
        obtain rfl := Option.some.inj chosen
        rcases kept url with skipped | expired
        · rw [gone] at skipped
          cases skipped
        · exact expired.later failures.symm clock.le
      · intro expired other
        by_cases same : other = url
        · rw [same]
          exact .inr ((expired url rfl).later failures clock.ge)
        · refine covered_untouched (covered other) nextRecorded ?_
            (fun failure member _ => failures ▸ member) clock.ge
          rw [breakers, Function.update_of_ne same]

theorem Recorded.step
    {bus next : EventBus Data}
    {label : Label Data}
    (recorded : Recorded bus)
    (taken : step bus label = some next) :
    Recorded next :=
  recorded.switches (switches_of_step taken)

theorem covered_step_iff
    {bus next : EventBus Data}
    {label : Label Data}
    (recorded : Recorded bus)
    (covered : Covered bus)
    (taken : step bus label = some next) :
    Covered next ↔ ResetsExpired bus label :=
  covered_iff recorded covered (switches_of_step taken)

theorem new_recorded (webhooks : List WebhookConfig) (numWorkers : Int) :
    Recorded (new webhooks numWorkers : EventBus Data) where
  past := nofun
  reach := nofun

theorem new_covered (webhooks : List WebhookConfig) (numWorkers : Int) :
    Covered (new webhooks numWorkers : EventBus Data) :=
  fun _ => .inr nofun

/-- A worker that starts to send has found the circuit closed. -/
theorem guarded_of_covered
    {bus : EventBus Data}
    (covered : Covered bus)
    (label : Label Data) :
    Guarded bus label := by
  cases label with
  | worker w ok =>
      intro url sends
      rcases covered url with skipped | expired
      · simp only [EventBus.sendsTo] at sends
        split at sends
        · simp only [Option.mem_def, Option.bind_eq_some_iff] at sends
          obtain ⟨wh, _, chosen⟩ := sends
          split at chosen
          · rename_i passes
            obtain rfl := Option.some.inj chosen
            simp [skipped] at passes
          · cases chosen
        · cases sends
      · exact expired
  | publish | publisher | stop | shutdown | tick => trivial

/-- For every interleaving of workers, publishers and clock, a check made in any
state of a run skips all URLs with a failure recorded in the last 30 seconds,
exactly if no step of the run deletes an entry within 30 seconds of a failure
recorded for its URL; in that case no worker sends to such a URL. -/
theorem recent_failures_skipped_iff
    (webhooks : List WebhookConfig)
    (numWorkers : Int)
    (labels : List (Label Data))
    (bus : EventBus Data)
    (reached : run step (new webhooks numWorkers) labels = some bus) :
    (Always step Covered (new webhooks numWorkers) labels ↔
      Meets step ResetsExpired (new webhooks numWorkers) labels) ∧
    (Meets step ResetsExpired (new webhooks numWorkers) labels →
      Meets step Guarded (new webhooks numWorkers) labels) := by
  have exact : Always step Covered (new webhooks numWorkers) labels ↔
      Meets step ResetsExpired (new webhooks numWorkers) labels :=
    always_iff_meets (fun _ _ _ => Recorded.step) (fun _ _ _ => covered_step_iff)
      (new_recorded webhooks numWorkers) (new_covered webhooks numWorkers) reached
  exact ⟨exact, fun met => (exact.mpr met).meets fun _ label covered =>
    guarded_of_covered covered label⟩

/-- Three events for worker 1 and one for worker 0 in their queues. -/
def queued : List (Label Unit) :=
  ([0, 1, 2].flatMap fun p =>
    [.publish "camera_online" "b" (), .publisher p, .publisher p, .publisher p, .publisher p,
      .publisher p]) ++
    [.publish "camera_online" "a" (), .publisher 3, .publisher 3, .publisher 3, .publisher 3]

/-- Worker 1 fails; 30 seconds later it tries again alone, succeeds and deletes the
entry. -/
def probed : List (Label Unit) :=
  queued ++
    [.worker 1 true, .worker 1 true, .worker 1 false, .worker 1 true, .worker 1 true,
      .worker 0 true, .worker 0 true, .tick 30000000000, .worker 1 true, .worker 1 true,
      .worker 1 true, .worker 1 true, .worker 0 true]

theorem recent_failures_skipped_iff_probed :
    Meets step Guarded (new [⟨"http://hook", [], ""⟩] 2) probed := by
  obtain ⟨bus, reached⟩ := Option.isSome_iff_exists.mp
    (by decide +kernel : (run step (new [⟨"http://hook", [], ""⟩] 2) probed).isSome = true)
  exact (recent_failures_skipped_iff _ _ _ bus reached).2 (by decide +kernel)

/-- Worker 1 fails for the first time; 30 seconds later both workers find the entry
expired and send; worker 1 fails again, and worker 0, which succeeds, deletes the
new entry. -/
def raced : List (Label Unit) :=
  queued ++
    [.worker 1 true, .worker 1 true, .worker 1 false, .worker 1 true, .worker 1 true,
      .tick 30000000000, .worker 0 true, .worker 0 true, .worker 1 true, .worker 1 true,
      .worker 1 false, .worker 1 true, .worker 0 true, .worker 0 true, .worker 1 true,
      .tick 1000000000, .worker 1 true, .worker 1 true]

/-- One second after a failure was recorded a worker sends to the same URL. -/
theorem sent_after_failure :
    ¬ Meets step Guarded (new [⟨"http://hook", [], ""⟩] 2) raced := by
  decide +kernel

end Events
end RuseonCore
