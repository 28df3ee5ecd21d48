import RuseonCore.Foundation.Transition
import RuseonCore.Streaming.Manager

/-!
# Every stream is stopped once

The manager creates, replaces and retires streams under its mutex, and stops
the retired ones after releasing it.  Calls therefore interleave at two points:
their critical section, and each single `Stop` that follows.  `Retires` says
how a critical section moves instances between the registry and the list of
those to stop; over a run every instance is in exactly one of three places, the
registry, the list of a call in progress, or among the stopped ones.
-/

namespace RuseonCore
namespace Streaming

open Storage Transition

namespace Manager

/-- Critical section of `Close`: unregister every stream. -/
def close (m : Manager) : Manager × List Nat :=
  ({ m with streams := ∅, valid := by simp }, m.streams.toList.map Prod.snd)

/-- How often an instance is registered. -/
def live (m : Manager) (p : Nat) : Nat := if m.registered p then 1 else 0

/-- A critical section hands the listed instances to be stopped: every instance
that was registered or created meanwhile is registered afterwards or listed,
but not both. -/
structure Retires (m next : Manager) (toStop : List Nat) : Prop where
  grows : m.heap.length ≤ next.heap.length
  balance : ∀ p, next.live p + toStop.count p =
    m.live p + if m.heap.length ≤ p ∧ p < next.heap.length then 1 else 0

/-- A new registration takes the identifier from the instance that had it. -/
theorem registered_register
    (m : Manager)
    (id : String)
    (cfg : PipelineConfig)
    (p : Nat) :
    (m.register id cfg).registered p = true ↔
      p = m.heap.length ∨ (m.registered p = true ∧ m.streams[id]? ≠ some p) := by
  rw [registered_iff, registered_iff]
  constructor
  · rintro ⟨other, present⟩
    rw [register, Std.ExtTreeMap.getElem?_insert] at present
    split at present
    · exact .inl (Option.some.inj present).symm
    · rename_i different
      refine .inr ⟨⟨other, present⟩, fun held => ?_⟩
      rw [streams_injective held present] at different
      simp at different
  · rintro (rfl | ⟨⟨other, present⟩, free⟩)
    · exact ⟨id, by simp [register]⟩
    · have different : id ≠ other := by
        rintro rfl
        exact free present
      exact ⟨other, by
        simp [register, Std.ExtTreeMap.getElem?_insert, different, present]⟩

namespace Retires

theorem refl (m : Manager) : Retires m m [] where
  grows := le_rfl
  balance := by
    intro p
    have none : ¬ (m.heap.length ≤ p ∧ p < m.heap.length) := by omega
    simp [none]

theorem trans
    {m middle next : Manager}
    {first second : List Nat}
    (earlier : Retires m middle first)
    (later : Retires middle next second) :
    Retires m next (first ++ second) where
  grows := earlier.grows.trans later.grows
  balance := by
    intro p
    have before := earlier.balance p
    have after := later.balance p
    have growsEarlier := earlier.grows
    have growsLater := later.grows
    rw [List.count_append]
    split_ifs at before after ⊢ <;> omega

/-- Registering a stream retires the one under its identifier. -/
theorem register (m : Manager) (id : String) (cfg : PipelineConfig) :
    Retires m (m.register id cfg) m.streams[id]?.toList where
  grows := by simp [Manager.register]
  balance := by
    intro p
    have length : (m.register id cfg).heap.length = m.heap.length + 1 := by
      simp [Manager.register]
    have existing : m.registered p = true → p < m.heap.length :=
      lt_length_of_registered
    have held : m.streams[id]? = some p → m.registered p = true :=
      fun present => registered_iff.mpr ⟨id, present⟩
    have after := m.registered_register id cfg p
    have listed : m.streams[id]?.toList.count p =
        if m.streams[id]? = some p then 1 else 0 := by
      cases m.streams[id]? with
      | none => simp
      | some q => simp [List.count_singleton]
    rw [listed, length, live, live]
    by_cases present : m.streams[id]? = some p
    · have registered := held present
      have bound := existing registered
      have gone : ¬ (m.register id cfg).registered p = true := by
        rw [after]
        rintro (new | ⟨_, other⟩)
        · omega
        · exact other present
      have old : ¬ (m.heap.length ≤ p ∧ p < m.heap.length + 1) := by omega
      rw [if_neg old]
      simp [present, registered, gone]
    · by_cases new : p = m.heap.length
      · have unregistered : ¬ m.registered p = true := by
          intro registered
          have bound := existing registered
          omega
        have nowRegistered := after.mpr (.inl new)
        have range : m.heap.length ≤ p ∧ p < m.heap.length + 1 := by omega
        simp [present, nowRegistered, unregistered, range]
      · have same : (m.register id cfg).registered p = true ↔
            m.registered p = true := by
          rw [after]
          exact ⟨fun either => (either.resolve_left new).1,
            fun registered => .inr ⟨registered, present⟩⟩
        have outside : ¬ (m.heap.length ≤ p ∧ p < m.heap.length + 1) := by omega
        rw [if_neg outside]
        simp [present, same]

/-- Dropping registrations retires their instances, each once. -/
theorem of_dropped
    {m next : Manager}
    {toStop : List Nat}
    (heap : next.heap.length = m.heap.length)
    (distinct : toStop.Nodup)
    (listed : ∀ p, p ∈ toStop ↔ m.registered p = true ∧ next.registered p = false)
    (kept : ∀ p, next.registered p = true → m.registered p = true) :
    Retires m next toStop where
  grows := heap.ge
  balance := by
    intro p
    have outside : ¬ (m.heap.length ≤ p ∧ p < next.heap.length) := by omega
    rw [distinct.count, if_neg outside, live, live]
    cases before : m.registered p with
    | false =>
        have after : next.registered p = false := by
          rw [Bool.eq_false_iff]
          intro registered
          rw [kept p registered] at before
          cases before
        simp [listed, before, after]
    | true =>
        cases after : next.registered p with
        | true => simp [listed, after]
        | false => simp [listed, before, after]

/-- Unregistering retires the instance under the identifier. -/
theorem unregister (m : Manager) (id : String) :
    Retires m (m.unregister id) m.streams[id]?.toList := by
  cases present : m.streams[id]? with
  | none =>
      have same : (m.unregister id).streams = m.streams :=
        Std.ExtTreeMap.ext_getElem? fun other => by
          rw [Manager.unregister, Std.ExtTreeMap.getElem?_erase]
          split
          · rename_i named
            rw [← Std.LawfulEqCmp.eq_of_compare named, present]
          · rfl
      have unchanged : m.unregister id = m := by
        cases m
        simp only [Manager.unregister, Manager.mk.injEq, true_and, and_true] at same ⊢
        exact same
      rw [unchanged]
      exact refl m
  | some p =>
      refine of_dropped rfl (List.nodup_singleton p) (fun q => ?_) fun q => ?_
      · rw [registered_unregister present, Option.toList_some, List.mem_singleton]
        constructor
        · rintro rfl
          exact ⟨registered_iff.mpr ⟨id, present⟩, by simp⟩
        · rintro ⟨registered, gone⟩
          simpa [registered] using gone
      · rw [registered_unregister present, Bool.and_eq_true]
        exact And.left

theorem addStream
    {m next : Manager}
    {id : String}
    {cfg : PipelineConfig}
    (added : m.addStream id cfg = .ok next) :
    Retires m next [] := by
  unfold Manager.addStream at added
  split at added
  · cases added
  · rename_i free
    have absent : m.streams[id]? = none := by simpa using free
    have registers := register m id cfg
    rw [absent] at registers
    rw [← Except.ok.inj added]
    exact registers

theorem removeStream (m : Manager) (id : String) :
    Retires m (m.removeStream id).1 (m.removeStream id).2.toList := by
  have unregisters := unregister m id
  unfold Manager.removeStream
  split
  · exact refl m
  · rename_i p present
    rw [present] at unregisters
    split
    · exact unregisters
    · exact ⟨unregisters.grows, unregisters.balance⟩

theorem upsertStream
    (m : Manager)
    (id : String)
    (cfg : PipelineConfig)
    (disabled : Bool) :
    Retires m (m.upsertStream id cfg disabled).1
      (m.upsertStream id cfg disabled).2.toList := by
  have registers := register m id cfg
  have unregisters := unregister m id
  unfold Manager.upsertStream
  split
  · rename_i p present
    rw [present] at unregisters
    exact unregisters
  · exact refl m
  · rename_i p present
    rw [present] at registers
    split
    · exact registers
    · exact refl m
  · rename_i absent
    rw [absent] at registers
    exact registers

/-- One camera of the first loop of `SyncWithStorage`. -/
theorem syncCamera
    {m : Manager}
    {state : Manager × List Nat}
    (retires : Retires m state.1 state.2)
    (cam : CameraConfig) :
    Retires m (Manager.syncCamera state cam).1 (Manager.syncCamera state cam).2 := by
  have registers := register state.1 cam.id (pipelineOf cam)
  unfold Manager.syncCamera
  split
  · split
    · rename_i p present
      rw [present] at registers
      split
      · exact retires.trans registers
      · exact retires
    · rename_i absent
      rw [absent] at registers
      simpa using retires.trans registers
  · exact retires

/-- The first loop of `SyncWithStorage`. -/
theorem foldl_syncCamera
    {m : Manager}
    (cams : List CameraConfig)
    {state : Manager × List Nat}
    (retires : Retires m state.1 state.2) :
    Retires m (cams.foldl Manager.syncCamera state).1
      (cams.foldl Manager.syncCamera state).2 := by
  induction cams generalizing state with
  | nil => exact retires
  | cons cam cams inductionHypothesis =>
      exact inductionHypothesis (retires.syncCamera cam)

/-- Keeping some registrations retires the instances of the others. -/
theorem retain (m : Manager) (active : String → Bool) :
    Retires m (m.retain active)
      ((m.streams.toList.filter fun entry => !active entry.1).map Prod.snd) := by
  have remaining : ∀ p, (m.retain active).registered p = true ↔
      ∃ id : String, m.streams[id]? = some p ∧ active id = true := by
    intro p
    rw [registered_iff]
    simp [Manager.retain, Option.filter_eq_some_iff]
  refine of_dropped rfl ?_ (fun p => ?_) fun p registered => ?_
  · exact m.nodup_registered.sublist (List.filter_sublist.map _)
  · rw [List.mem_map, registered_iff, Bool.eq_false_iff, ne_eq, remaining]
    constructor
    · rintro ⟨⟨id, q⟩, dropped, rfl⟩
      rw [List.mem_filter, Std.ExtTreeMap.mem_toList_iff_getElem?_eq_some] at dropped
      refine ⟨⟨id, dropped.1⟩, ?_⟩
      rintro ⟨other, present, stays⟩
      rw [← streams_injective dropped.1 present] at stays
      simp [stays] at dropped
    · rintro ⟨⟨id, present⟩, gone⟩
      refine ⟨(id, p), List.mem_filter.mpr ⟨?_, ?_⟩, rfl⟩
      · exact Std.ExtTreeMap.mem_toList_iff_getElem?_eq_some.mpr present
      · rw [Bool.not_eq_true', Bool.eq_false_iff]
        exact fun stays => gone ⟨id, present, stays⟩
  · obtain ⟨id, present, _⟩ := (remaining p).mp registered
    exact registered_iff.mpr ⟨id, present⟩

theorem syncWithStorage (m : Manager) (cams : Option (List CameraConfig)) :
    Retires m (m.syncWithStorage cams).1 (m.syncWithStorage cams).2 := by
  cases cams with
  | none => exact refl m
  | some cams =>
      have synced : Retires m (cams.foldl Manager.syncCamera (m, [])).1
          (cams.foldl Manager.syncCamera (m, [])).2 :=
        foldl_syncCamera cams (refl m)
      exact synced.trans (retain _ _)

theorem close (m : Manager) : Retires m m.close.1 m.close.2 := by
  have unregistered : ∀ p, m.close.1.registered p = false := by
    intro p
    rw [Bool.eq_false_iff, ne_eq, registered_iff]
    simp [Manager.close]
  refine of_dropped rfl m.nodup_registered (fun p => ?_) fun p registered => ?_
  · rw [registered_iff, and_iff_left (unregistered p), Manager.close, List.mem_map]
    constructor
    · rintro ⟨⟨id, q⟩, member, rfl⟩
      exact ⟨id, Std.ExtTreeMap.mem_toList_iff_getElem?_eq_some.mp member⟩
    · rintro ⟨id, present⟩
      exact ⟨(id, p), Std.ExtTreeMap.mem_toList_iff_getElem?_eq_some.mpr present, rfl⟩
  · rw [unregistered p] at registered
    cases registered

end Retires

end Manager

/-- The manager, the instances that each call in progress still has to stop,
and the `Stop` calls made so far. -/
structure Lifecycle where
  manager : Manager
  calls : List (List Nat)
  stopped : List Nat

/-- Critical sections, each by a new call, and the next `Stop` of a call. -/
inductive LifecycleStep
  | addStream (id : String) (cfg : PipelineConfig)
  | removeStream (id : String)
  | upsertStream (id : String) (cfg : PipelineConfig) (disabled : Bool)
  | syncWithStorage (cams : Option (List CameraConfig))
  | close
  | stop (call : Nat)

namespace Lifecycle

/-- A new manager. -/
def start : Lifecycle where
  manager := Manager.empty
  calls := []
  stopped := []

/-- A call leaves its critical section with a list of instances to stop. -/
def leave
    (life : Lifecycle)
    (manager : Manager)
    (toStop : List Nat) : Lifecycle :=
  { life with manager := manager, calls := life.calls ++ [toStop] }

/-- Effect of one step.  The camera list of `SyncWithStorage` was read before
its critical section and may be out of date. -/
def step (life : Lifecycle) : LifecycleStep → Option Lifecycle
  | .addStream id cfg =>
      match life.manager.addStream id cfg with
      | .ok next => some (life.leave next [])
      | .error _ => some (life.leave life.manager [])
  | .removeStream id =>
      let (next, toStop) := life.manager.removeStream id
      some (life.leave next toStop.toList)
  | .upsertStream id cfg disabled =>
      let (next, toStop) := life.manager.upsertStream id cfg disabled
      some (life.leave next toStop.toList)
  | .syncWithStorage cams =>
      let (next, toStop) := life.manager.syncWithStorage cams
      some (life.leave next toStop)
  | .close =>
      let (next, toStop) := life.manager.close
      some (life.leave next toStop)
  | .stop call =>
      match life.calls[call]? with
      | some (p :: rest) =>
          some
            { life with
              calls := life.calls.set call rest
              stopped := life.stopped ++ [p] }
      | _ => none

/-- All calls have returned. -/
def Returned (life : Lifecycle) : Prop := ∀ call ∈ life.calls, call = []

/-- Every instance is registered, listed to be stopped or stopped, in one place
and once. -/
def Settled (life : Lifecycle) : Prop :=
  ∀ p, life.manager.live p + life.calls.flatten.count p + life.stopped.count p =
    if p < life.manager.heap.length then 1 else 0

/-- A critical section moves instances from the registry to its own list. -/
theorem Settled.leave
    {life : Lifecycle}
    (settled : life.Settled)
    {next : Manager}
    {toStop : List Nat}
    (retires : life.manager.Retires next toStop) :
    (life.leave next toStop).Settled := by
  intro p
  have before := settled p
  have moved := retires.balance p
  have grows := retires.grows
  have count : (life.calls ++ [toStop]).flatten.count p =
      life.calls.flatten.count p + toStop.count p := by
    rw [List.flatten_append, List.count_append, List.flatten_singleton]
  have created :
      ((if life.manager.heap.length ≤ p ∧ p < next.heap.length then 1 else 0) +
        if p < life.manager.heap.length then 1 else 0) =
      if p < next.heap.length then 1 else 0 := by
    split_ifs <;> omega
  change next.live p + (life.calls ++ [toStop]).flatten.count p +
    life.stopped.count p = if p < next.heap.length then 1 else 0
  omega

/-- A `Stop` moves an instance from the list of its call to the stopped ones. -/
theorem count_set_flatten
    {calls : List (List Nat)}
    {call p : Nat}
    {rest : List Nat}
    (listed : calls[call]? = some (p :: rest))
    (q : Nat) :
    (calls.set call rest).flatten.count q + [p].count q = calls.flatten.count q := by
  induction calls generalizing call with
  | nil => simp at listed
  | cons first calls inductionHypothesis =>
      cases call with
      | zero =>
          simp only [List.getElem?_cons_zero, Option.some.injEq] at listed
          subst first
          simp only [List.set_cons_zero, List.flatten_cons, List.count_append,
            List.count_cons, List.count_nil]
          omega
      | succ call =>
          rw [List.getElem?_cons_succ] at listed
          have later := inductionHypothesis listed
          simp only [List.set_cons_succ, List.flatten_cons, List.count_append]
          omega

/-- Every step keeps the instances in one place. -/
theorem Settled.step
    {life next : Lifecycle}
    {label : LifecycleStep}
    (settled : life.Settled)
    (taken : life.step label = some next) :
    next.Settled := by
  cases label with
  | addStream id cfg =>
      simp only [Lifecycle.step] at taken
      cases added : life.manager.addStream id cfg with
      | ok manager =>
          rw [added, Option.some.injEq] at taken
          rw [← taken]
          exact settled.leave (.addStream added)
      | error message =>
          rw [added, Option.some.injEq] at taken
          rw [← taken]
          exact settled.leave (.refl _)
  | removeStream id =>
      rw [← Option.some.inj taken]
      exact settled.leave (.removeStream _ id)
  | upsertStream id cfg disabled =>
      rw [← Option.some.inj taken]
      exact settled.leave (.upsertStream _ id cfg disabled)
  | syncWithStorage cams =>
      rw [← Option.some.inj taken]
      exact settled.leave (.syncWithStorage _ cams)
  | close =>
      rw [← Option.some.inj taken]
      exact settled.leave (.close _)
  | stop call =>
      simp only [Lifecycle.step] at taken
      split at taken
      · rename_i p rest listed
        rw [← Option.some.inj taken]
        intro q
        have before := settled q
        have moved := count_set_flatten listed q
        simp only [List.count_append]
        omega
      · cases taken

/-- In every run of a new manager a registered instance has not been stopped,
and once all calls have returned every instance ever created is the one
registered under its identifier, or has been stopped exactly once. -/
theorem stopped_once
    (steps : List LifecycleStep)
    {life : Lifecycle}
    (reached : run step start steps = some life) :
    (∀ (id : String) (p : Nat),
      life.manager.streams[id]? = some p → p ∉ life.stopped) ∧
    (life.Returned → ∀ (p : Nat) (st : Instance),
      life.manager.heap[p]? = some st →
      (life.manager.streams[st.id]? = some p ∨ life.stopped.count p = 1)) := by
  have initial : start.Settled := by
    intro p
    simp [start, Manager.empty, Manager.live, Manager.registered]
  have settled : life.Settled :=
    run_invariant (fun _ _ _ before taken => Settled.step before taken) initial
      reached
  constructor
  · intro id p present
    have registered := Manager.registered_iff.mpr ⟨id, present⟩
    have once := settled p
    rw [Manager.live, registered, if_pos rfl] at once
    refine List.count_eq_zero.mp ?_
    split at once <;> omega
  · intro returned p st stored
    have drained : life.calls.flatten = [] := List.flatten_eq_nil_iff.mpr returned
    have once := settled p
    rw [drained, if_pos (List.getElem?_eq_some_iff.mp stored).1, Manager.live]
      at once
    cases registered : life.manager.registered p with
    | true =>
        obtain ⟨id, present⟩ := Manager.registered_iff.mp registered
        obtain ⟨same, storedAgain, named⟩ := life.manager.valid id p present
        rw [stored, Option.some.injEq] at storedAgain
        rw [storedAgain, named]
        exact .inl present
    | false =>
        right
        simpa [registered] using once

/-- A stream is replaced while another call unregisters its successor; both are
stopped, in the other order. -/
theorem stopped_once_replaced :
    let cfg : PipelineConfig :=
      { url := "rtsp://a", record := false, lazyHLS := false, transport := "tcp",
        tokenAuth := false }
    ∃ life, run step start
        [.addStream "a" cfg, .upsertStream "a" { cfg with record := true } false,
          .removeStream "a", .stop 2, .stop 1] = some life ∧
      life.stopped = [1, 0] ∧
      ∀ (p : Nat) (st : Instance), life.manager.heap[p]? = some st →
        (life.manager.streams[st.id]? = some p ∨ life.stopped.count p = 1) := by
  intro cfg
  have stops : (run step start
      [.addStream "a" cfg, .upsertStream "a" { cfg with record := true } false,
        .removeStream "a", .stop 2, .stop 1]).map
      (fun life => (life.calls, life.stopped)) = some ([[], [], []], [1, 0]) := by
    decide
  obtain ⟨life, reached, outcome⟩ := Option.map_eq_some_iff.mp stops
  rw [Prod.mk.injEq] at outcome
  have returned : life.Returned := by
    rw [Returned, outcome.1]
    simp
  exact ⟨life, reached, outcome.2, (stopped_once _ reached).2 returned⟩

end Lifecycle
end Streaming
end RuseonCore
