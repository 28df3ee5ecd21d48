import RuseonCore.Streaming.Billing
import RuseonCore.Streaming.Manager

/-!
# Metering across stream restarts

`collectBillingDelta` knows a stream by its camera only and infers a restart
from a counter that went down.  The state below adds to manager and billing
task what was last observed of every stream instance, so that the deltas
collected for a camera can be compared with the counters of its instances.
-/

namespace RuseonCore
namespace Streaming

open Storage Transition

/-- Manager, billing task, and the counter last observed of each instance. -/
structure MeterState where
  manager : Manager
  billing : Billing
  observed : Nat → Option UInt64

/-- Byte arrivals, changes of the registry, and collections in a given
iteration order of the registry. -/
inductive MeterStep
  | receive (p : Nat) (more : Counters)
  | upsertStream (id : String) (cfg : PipelineConfig) (disabled : Bool)
  | syncWithStorage (cams : Option (List CameraConfig))
  | removeStream (id : String)
  | collect (order : List (String × Nat))

namespace MeterState

/-- The billing task has just started. -/
def start (manager : Manager) : MeterState where
  manager := manager
  billing := Billing.start
  observed := fun _ => none

/-- Received bytes of an instance. -/
def bytes (m : Manager) (p : Nat) : Option UInt64 :=
  m.heap[p]?.map fun st => st.counters.bytes

/-- Identifier and counter of each registered stream. -/
def readings (m : Manager) (order : List (String × Nat)) :
    List (String × UInt64) :=
  order.filterMap fun entry =>
    m.heap[entry.2]?.map fun st => (st.id, st.counters.bytes)

/-- Collect from all registered streams. -/
def collectStreams (state : MeterState) (order : List (String × Nat)) :
    MeterState where
  manager := state.manager
  billing := state.billing.collectBillingDelta (readings state.manager order)
  observed := fun p =>
    if (order.map Prod.snd).contains p then bytes state.manager p
    else state.observed p

/-- Effect of one step.  Byte counters do not overflow. -/
def step (state : MeterState) : MeterStep → Option MeterState
  | .receive p more =>
      if (bytes state.manager p).any fun received =>
          received.toNat + more.bytes.toNat < 2 ^ 64 then
        some { state with manager := state.manager.count p more }
      else none
  | .upsertStream id cfg disabled =>
      some { state with
        manager := (state.manager.upsertStream id cfg disabled).1 }
  | .syncWithStorage cams =>
      some { state with manager := (state.manager.syncWithStorage cams).1 }
  | .removeStream id =>
      some { state with manager := (state.manager.removeStream id).1 }
  | .collect order =>
      if order.Perm state.manager.streams.toList then
        some (state.collectStreams order)
      else none

/-- Share of an instance in the observed traffic of a camera. -/
def share (state : MeterState) (id : String) (p : Nat) : Nat :=
  if state.manager.heap[p]?.any fun st => st.id == id then
    ((state.observed p).getD 0).toNat
  else 0

/-- Sum of the counters last observed over all instances of a camera. -/
def observedTotal (state : MeterState) (id : String) : Nat :=
  ∑ p ∈ Finset.range state.manager.heap.length, state.share id p

/-- A collection that first sees an instance of the camera finds its counter
below the last reading of the previous instance, or no such reading. -/
def RestartVisible (id : String) (state : MeterState) : MeterStep → Prop
  | .collect _ => ∀ p current, state.manager.streams[id]? = some p →
      bytes state.manager p = some current → state.observed p = none →
      state.billing.lastBytes.amount id = 0 ∨
        current < state.billing.lastBytes.amount id
  | _ => True

/-- What the billing task knows about the registered instances. -/
structure Invariant (state : MeterState) : Prop where
  unseen : ∀ p, state.manager.heap.length ≤ p → state.observed p = none
  last : ∀ (id : String) (p : Nat) (value : UInt64),
    state.manager.streams[id]? = some p →
    state.observed p = some value →
    state.billing.lastBytes.amount id = value ∧
      ∃ current, bytes state.manager p = some current ∧ value ≤ current
  short : ∀ id, total state.billing.collected id ≤ state.observedTotal id

/-! ## Steps that collect nothing -/

/-- Instances that were never observed do not count. -/
theorem share_of_unseen
    {state : MeterState}
    {p : Nat}
    (unseen : state.observed p = none)
    (id : String) :
    state.share id p = 0 := by
  simp [share, unseen]

/-- Creating, replacing and removing streams changes no observed total. -/
theorem observedTotal_of_evolves
    {state : MeterState}
    (invariant : state.Invariant)
    {manager : Manager}
    (evolves : state.manager.Evolves manager)
    (id : String) :
    observedTotal { state with manager := manager } id =
      state.observedTotal id := by
  obtain ⟨more, heap⟩ := evolves.created
  have shares : ∀ p ∈ Finset.range state.manager.heap.length,
      share { state with manager := manager } id p = state.share id p := by
    intro p inRange
    have bound := Finset.mem_range.mp inRange
    simp only [share, ← heap, List.getElem?_append_left bound]
  rw [observedTotal, observedTotal, ← Finset.sum_congr rfl shares]
  symm
  apply Finset.sum_subset
  · apply Finset.range_mono
    exact evolves.created.length_le
  · intro p _ new
    apply share_of_unseen
    exact invariant.unseen p (by simpa using new)

/-- Such a step keeps the invariant. -/
theorem Invariant.evolves
    {state : MeterState}
    (invariant : state.Invariant)
    {manager : Manager}
    (evolves : state.manager.Evolves manager) :
    Invariant { state with manager := manager } where
  unseen := fun p beyond =>
    invariant.unseen p (evolves.created.length_le.trans beyond)
  last := by
    intro id p value present seen
    rcases evolves.registered id p present with before | new
    · obtain ⟨last, current, counter, grown⟩ :=
        invariant.last id p value before seen
      refine ⟨last, current, ?_, grown⟩
      obtain ⟨st, stored, _⟩ := Option.map_eq_some_iff.mp counter
      have bound := (List.getElem?_eq_some_iff.mp stored).1
      obtain ⟨more, heap⟩ := evolves.created
      rw [bytes, ← heap, List.getElem?_append_left bound]
      exact counter
    · have unseen := invariant.unseen p new
      simp only at seen
      simp [unseen] at seen
  short := by
    intro id
    rw [observedTotal_of_evolves invariant evolves]
    exact invariant.short id

/-- Counting changes the counters of one instance and nothing else. -/
theorem bytes_count (m : Manager) (p q : Nat) (more : Counters) :
    bytes (m.count p more) q =
      (bytes m q).map fun received =>
        if p = q then received + more.bytes else received := by
  simp only [bytes, Manager.count, List.getElem?_modify, Option.map_map]
  by_cases same : p = q
  · simp only [same, if_true]
    cases m.heap[q]? <;> simp [Counters.add]
  · simp only [same, if_false]
    cases m.heap[q]? <;> simp

theorem observedTotal_count
    (state : MeterState)
    (p : Nat)
    (more : Counters)
    (id : String) :
    observedTotal { state with manager := state.manager.count p more } id =
      state.observedTotal id := by
  have sameLength : (state.manager.count p more).heap.length =
      state.manager.heap.length := by
    simp [Manager.count]
  rw [observedTotal, observedTotal, sameLength]
  refine Finset.sum_congr rfl fun q _ => ?_
  simp only [share, Manager.count, List.getElem?_modify]
  cases state.manager.heap[q]? with
  | none => rfl
  | some st => by_cases same : p = q <;> simp [same]

/-- Byte arrivals keep the invariant. -/
theorem Invariant.count
    {state : MeterState}
    (invariant : state.Invariant)
    {p : Nat}
    {more : Counters}
    (fits : (bytes state.manager p).any fun received =>
      received.toNat + more.bytes.toNat < 2 ^ 64) :
    Invariant { state with manager := state.manager.count p more } where
  unseen := by
    intro q beyond
    apply invariant.unseen q
    simpa [Manager.count] using beyond
  last := by
    intro id q value present seen
    obtain ⟨last, current, counter, grown⟩ :=
      invariant.last id q value present seen
    refine ⟨last, _, (bytes_count _ p q more).trans
      (by rw [counter, Option.map_some]), ?_⟩
    by_cases same : p = q
    · subst same
      rw [counter, Option.any_some, decide_eq_true_eq] at fits
      rw [if_pos rfl, UInt64.le_iff_toNat_le, UInt64.toNat_add,
        Nat.mod_eq_of_lt fits]
      exact (UInt64.le_iff_toNat_le.mp grown).trans (Nat.le_add_right _ _)
    · rw [if_neg same]
      exact grown
  short := by
    intro id
    rw [observedTotal_count]
    exact invariant.short id

/-! ## Collections -/

/-- A registered stream has a counter. -/
theorem exists_counter
    {m : Manager}
    {id : String}
    {p : Nat}
    (present : m.streams[id]? = some p) :
    ∃ current, bytes m p = some current := by
  obtain ⟨st, stored, _⟩ := m.valid id p present
  exact ⟨st.counters.bytes, by simp [bytes, stored]⟩

/-- The delta collected for a registered stream is at most the growth of its
observed counter, with equality exactly if a restart is visible. -/
theorem delta_growth
    {state : MeterState}
    (invariant : state.Invariant)
    {id : String}
    {p : Nat}
    {current : UInt64}
    (present : state.manager.streams[id]? = some p)
    (counter : bytes state.manager p = some current) :
    let prev := state.billing.lastBytes.amount id
    let old := ((state.observed p).getD 0).toNat
    (Billing.delta prev current).toNat + old ≤ current.toNat ∧
      ((Billing.delta prev current).toNat + old = current.toNat ↔
        (state.observed p = none → prev = 0 ∨ current < prev)) := by
  cases seen : state.observed p with
  | none =>
      simp only [Option.getD_none, UInt64.toNat_zero, Nat.add_zero,
        forall_const]
      exact ⟨Billing.delta_le _ _, Billing.delta_eq_iff _ _⟩
  | some value =>
      obtain ⟨last, current', counter', grown⟩ :=
        invariant.last id p value present seen
      rw [counter, Option.some.injEq] at counter'
      subst counter'
      have growth := Billing.delta_of_le grown
      simp only [Option.getD_some, last, reduceCtorEq, false_implies, iff_true]
      exact ⟨growth.le, growth⟩

section Collect

variable {m : Manager} {order : List (String × Nat)}
variable (complete : order.Perm m.streams.toList)

include complete

/-- The iteration visits exactly the registered streams. -/
theorem mem_order_iff {id : String} {p : Nat} :
    (id, p) ∈ order ↔ m.streams[id]? = some p := by
  rw [complete.mem_iff, Std.ExtTreeMap.mem_toList_iff_getElem?_eq_some]

/-- Each registered stream is read once, under its own identifier. -/
theorem readings_eq :
    readings m order =
      order.map fun entry => (entry.1, (bytes m entry.2).getD 0) := by
  rw [readings, ← List.filterMap_eq_map]
  refine List.filterMap_congr fun entry member => ?_
  obtain ⟨id, p⟩ := entry
  obtain ⟨st, stored, named⟩ := m.valid id p ((mem_order_iff complete).mp member)
  simp [bytes, stored, named]

theorem readings_distinct :
    (readings m order).Pairwise fun first second => first.1 ≠ second.1 := by
  rw [readings_eq complete, List.pairwise_map]
  exact (complete.pairwise_iff fun different => different.symm).mpr
    (Store.toList_keys_ne m.streams)

theorem mem_readings
    {id : String}
    {p : Nat}
    {current : UInt64}
    (present : m.streams[id]? = some p)
    (counter : bytes m p = some current) :
    (id, current) ∈ readings m order := by
  rw [readings_eq complete, List.mem_map]
  exact ⟨(id, p), (mem_order_iff complete).mpr present, by simp [counter]⟩

theorem notMem_readings
    {id : String}
    (absent : m.streams[id]? = none) :
    ∀ reading ∈ readings m order, reading.1 ≠ id := by
  rw [readings_eq complete]
  intro reading member same
  obtain ⟨⟨other, p⟩, inOrder, rfl⟩ := List.mem_map.mp member
  rw [mem_order_iff complete] at inOrder
  simp only at same
  simp [same, absent] at inOrder

end Collect

section CollectStreams

variable {state : MeterState} {order : List (String × Nat)}
variable (complete : order.Perm state.manager.streams.toList)

include complete

theorem observed_registered
    {id : String}
    {p : Nat}
    (present : state.manager.streams[id]? = some p) :
    (state.collectStreams order).observed p = bytes state.manager p := by
  have visited : (order.map Prod.snd).contains p = true := by
    rw [List.contains_iff_mem]
    exact List.mem_map_of_mem ((mem_order_iff complete).mpr present)
  simp only [collectStreams, visited, if_true]

theorem observed_unregistered
    {p : Nat}
    (absent : ∀ id : String, state.manager.streams[id]? ≠ some p) :
    (state.collectStreams order).observed p = state.observed p := by
  have skipped : (order.map Prod.snd).contains p = false := by
    rw [Bool.eq_false_iff, ne_eq, List.contains_iff_mem]
    intro visited
    obtain ⟨⟨id, q⟩, member, rfl⟩ := List.mem_map.mp visited
    exact absent id ((mem_order_iff complete).mp member)
  simp only [collectStreams, skipped, Bool.false_eq_true, if_false]

/-- A collection changes the share of the registered instance only. -/
theorem share_of_not_registered
    {id : String}
    {q : Nat}
    (other : state.manager.streams[id]? ≠ some q) :
    (state.collectStreams order).share id q = state.share id q := by
  have sameManager : (state.collectStreams order).manager = state.manager := rfl
  unfold share
  rw [sameManager]
  split
  · rename_i owned
    obtain ⟨st, stored, named⟩ := (Option.any_eq_true _ _).mp owned
    have unregistered : ∀ id' : String,
        state.manager.streams[id']? ≠ some q := by
      intro id' present
      obtain ⟨st', stored', named'⟩ := state.manager.valid id' q present
      rw [stored, Option.some.injEq] at stored'
      subst stored'
      rw [beq_iff_eq, named'] at named
      exact other (named ▸ present)
    rw [observed_unregistered complete unregistered]
  · rfl

/-- A camera without a stream keeps its observed total. -/
theorem observedTotal_of_absent
    {id : String}
    (absent : state.manager.streams[id]? = none) :
    (state.collectStreams order).observedTotal id = state.observedTotal id := by
  refine Finset.sum_congr rfl fun q _ => ?_
  exact share_of_not_registered complete (by simp [absent])

/-- The observed total of a camera with a stream moves from the previous to the
current counter of that stream. -/
theorem observedTotal_of_registered
    {id : String}
    {p : Nat}
    {current : UInt64}
    (present : state.manager.streams[id]? = some p)
    (counter : bytes state.manager p = some current) :
    (state.collectStreams order).observedTotal id +
        ((state.observed p).getD 0).toNat =
      state.observedTotal id + current.toNat := by
  obtain ⟨st, stored, named⟩ := state.manager.valid id p present
  have inRange : p ∈ Finset.range state.manager.heap.length :=
    Finset.mem_range.mpr (List.getElem?_eq_some_iff.mp stored).1
  have before : state.share id p = ((state.observed p).getD 0).toNat := by
    simp [share, stored, named]
  have after : (state.collectStreams order).share id p = current.toNat := by
    have sameManager : (state.collectStreams order).manager =
      state.manager := rfl
    simp [share, sameManager, stored, named,
      observed_registered complete present, counter]
  have others : ∀ q ∈ (Finset.range state.manager.heap.length).erase p,
      (state.collectStreams order).share id q = state.share id q := by
    intro q member
    have different := Finset.ne_of_mem_erase member
    apply share_of_not_registered complete
    rw [present]
    exact fun same => different (Option.some.inj same).symm
  have splitBefore : state.share id p +
      ∑ q ∈ (Finset.range state.manager.heap.length).erase p,
        state.share id q = state.observedTotal id :=
    Finset.add_sum_erase _ _ inRange
  have splitAfter : (state.collectStreams order).share id p +
      ∑ q ∈ (Finset.range state.manager.heap.length).erase p,
        (state.collectStreams order).share id q =
      (state.collectStreams order).observedTotal id :=
    Finset.add_sum_erase _ _ inRange
  have sameOthers :
      ∑ q ∈ (Finset.range state.manager.heap.length).erase p,
        (state.collectStreams order).share id q =
      ∑ q ∈ (Finset.range state.manager.heap.length).erase p,
        state.share id q :=
    Finset.sum_congr rfl others
  omega

/-- Deltas collected for a camera without a stream. -/
theorem collected_of_absent
    {id : String}
    (absent : state.manager.streams[id]? = none) :
    total (state.collectStreams order).billing.collected id =
      total state.billing.collected id :=
  (state.billing.foldl_collect_of_absent
    (notMem_readings complete absent)).2.2

/-- Deltas collected for a camera with a stream. -/
theorem collected_of_registered
    {id : String}
    {p : Nat}
    {current : UInt64}
    (present : state.manager.streams[id]? = some p)
    (counter : bytes state.manager p = some current) :
    total (state.collectStreams order).billing.collected id =
      total state.billing.collected id +
        (Billing.delta (state.billing.lastBytes.amount id) current).toNat :=
  (state.billing.foldl_collect_of_mem (readings_distinct complete)
    (mem_readings complete present counter)).2.2

/-- Collecting keeps the invariant. -/
theorem Invariant.collectStreams (invariant : state.Invariant) :
    (state.collectStreams order).Invariant where
  unseen := by
    intro p beyond
    change state.manager.heap.length ≤ p at beyond
    have missing : bytes state.manager p = none := by
      rw [bytes, List.getElem?_eq_none beyond, Option.map_none]
    simp only [MeterState.collectStreams, missing]
    split
    · rfl
    · exact invariant.unseen p beyond
  last := by
    intro id p value present seen
    have counter : bytes state.manager p = some value :=
      (observed_registered complete present).symm.trans seen
    refine ⟨?_, value, counter, UInt64.le_refl value⟩
    rw [Tally.amount, Std.ExtTreeMap.getD_eq_getD_getElem?]
    simp only [MeterState.collectStreams]
    rw [state.billing.lastBytes_collectBillingDelta (readings_distinct complete)
      (mem_readings complete present counter), Option.getD_some]
  short := by
    intro id
    have before := invariant.short id
    cases entry : state.manager.streams[id]? with
    | none =>
        rw [collected_of_absent complete entry,
          observedTotal_of_absent complete entry]
        exact before
    | some p =>
        obtain ⟨current, counter⟩ := exists_counter entry
        have moved := observedTotal_of_registered complete entry counter
        have growth := (delta_growth invariant entry counter).1
        rw [collected_of_registered complete entry counter]
        omega

/-- A collection keeps the account of a camera exactly if it was right before
and a restart of the camera is visible. -/
theorem exact_collectStreams (invariant : state.Invariant) (id : String) :
    total (state.collectStreams order).billing.collected id =
        (state.collectStreams order).observedTotal id ↔
      total state.billing.collected id = state.observedTotal id ∧
        state.RestartVisible id (.collect order) := by
  have before := invariant.short id
  cases entry : state.manager.streams[id]? with
  | none =>
      rw [collected_of_absent complete entry,
        observedTotal_of_absent complete entry]
      simp [RestartVisible, entry]
  | some p =>
      obtain ⟨current, counter⟩ := exists_counter entry
      have moved := observedTotal_of_registered complete entry counter
      obtain ⟨growth, exact⟩ := delta_growth invariant entry counter
      have visible : state.RestartVisible id (.collect order) ↔
          (state.observed p = none →
            state.billing.lastBytes.amount id = 0 ∨
              current < state.billing.lastBytes.amount id) := by
        constructor
        · intro visible
          exact visible p current entry counter
        · intro visible q other present otherCounter
          rw [entry, Option.some.injEq] at present
          subst present
          rw [counter, Option.some.injEq] at otherCounter
          exact otherCounter ▸ visible
      rw [collected_of_registered complete entry counter, visible, ← exact]
      omega

end CollectStreams

/-- Every step keeps the invariant. -/
theorem invariant_step
    {state next : MeterState}
    {label : MeterStep}
    (invariant : state.Invariant)
    (taken : state.step label = some next) :
    next.Invariant := by
  cases label with
  | receive p more =>
      simp only [step, Option.ite_none_right_eq_some, Option.some.injEq] at taken
      rw [← taken.2]
      exact invariant.count taken.1
  | upsertStream id cfg disabled =>
      rw [← Option.some.inj taken]
      exact invariant.evolves (.upsertStream _ id cfg disabled)
  | syncWithStorage cams =>
      rw [← Option.some.inj taken]
      exact invariant.evolves (.syncWithStorage _ cams)
  | removeStream id =>
      rw [← Option.some.inj taken]
      exact invariant.evolves (.removeStream _ id)
  | collect order =>
      simp only [step, Option.ite_none_right_eq_some, Option.some.injEq] at taken
      rw [← taken.2]
      exact invariant.collectStreams taken.1

/-- A step keeps the account of a camera exactly if it was right before and a
restart of the camera is visible. -/
theorem exact_step
    {state next : MeterState}
    {label : MeterStep}
    (invariant : state.Invariant)
    (taken : state.step label = some next)
    (id : String) :
    total next.billing.collected id = next.observedTotal id ↔
      total state.billing.collected id = state.observedTotal id ∧
        state.RestartVisible id label := by
  cases label with
  | receive p more =>
      simp only [step, Option.ite_none_right_eq_some, Option.some.injEq] at taken
      rw [← taken.2, observedTotal_count]
      exact (and_iff_left trivial).symm
  | upsertStream id' cfg disabled =>
      rw [← Option.some.inj taken,
        observedTotal_of_evolves invariant (.upsertStream _ id' cfg disabled)]
      exact (and_iff_left trivial).symm
  | syncWithStorage cams =>
      rw [← Option.some.inj taken,
        observedTotal_of_evolves invariant (.syncWithStorage _ cams)]
      exact (and_iff_left trivial).symm
  | removeStream id' =>
      rw [← Option.some.inj taken,
        observedTotal_of_evolves invariant (.removeStream _ id')]
      exact (and_iff_left trivial).symm
  | collect order =>
      simp only [step, Option.ite_none_right_eq_some, Option.some.injEq] at taken
      rw [← taken.2]
      exact exact_collectStreams taken.1 invariant id

theorem observedTotal_start (manager : Manager) (id : String) :
    (start manager).observedTotal id = 0 := by
  refine Finset.sum_eq_zero fun p _ => ?_
  exact share_of_unseen rfl id

/-- A task that has just started knows nothing. -/
theorem Invariant.start (manager : Manager) :
    (MeterState.start manager).Invariant where
  unseen := fun _ _ => rfl
  last := by simp [MeterState.start]
  short := fun _ => Nat.zero_le _

end MeterState

open MeterState

/-- In every run, the deltas collected for a camera add up to the counters last
observed of its instances exactly if every collection that first sees an
instance of the camera finds its counter below the last reading, or no
reading. -/
theorem collected_eq_observedTotal_iff
    (manager : Manager)
    (labels : List MeterStep)
    {finish : MeterState}
    (reached : run step (start manager) labels = some finish)
    (id : String) :
    total finish.billing.collected id = finish.observedTotal id ↔
      Meets step (RestartVisible id) (start manager) labels := by
  have initial : total (start manager).billing.collected id =
      (start manager).observedTotal id := by
    rw [observedTotal_start]
    rfl
  have exactRun := holds_iff_meets
    (fun _ _ _ invariant taken => invariant_step invariant taken)
    (fun _ _ _ invariant taken => exact_step invariant taken id)
    (Invariant.start manager) reached
  rw [and_iff_right initial] at exactRun
  exact exactRun

/-- A stream observed after five bytes and then replaced; its successor is
observed after the given number of bytes. -/
def restart (received : UInt64) : List MeterStep :=
  let cfg (url : String) : PipelineConfig :=
    { url := url, record := false, lazyHLS := false, transport := "tcp"
      tokenAuth := false }
  [.upsertStream "cam" (cfg "rtsp://a") false, .receive 0 { bytes := 5 },
    .collect [("cam", 0)],
    .upsertStream "cam" (cfg "rtsp://b") false,
    .receive 1 { bytes := received }, .collect [("cam", 1)]]

theorem collected_eq_observedTotal_iff_restart :
    ∃ finish, run step (start Manager.empty) (restart 3) = some finish ∧
      (total finish.billing.collected "cam" = finish.observedTotal "cam" ↔
        Meets step (RestartVisible "cam") (start Manager.empty) (restart 3)) ∧
      finish.observedTotal "cam" = 8 := by
  have observed : (run step (start Manager.empty) (restart 3)).map
      (fun state => state.observedTotal "cam") = some 8 := by
    decide +kernel
  obtain ⟨finish, reached, sum⟩ := Option.map_eq_some_iff.mp observed
  exact ⟨finish, reached,
    collected_eq_observedTotal_iff Manager.empty (restart 3) reached "cam", sum⟩

/-- When the new instance has received seven bytes by the next tick, only two of
them are collected. -/
theorem collected_ne_observedTotal :
    ∃ finish, run step (start Manager.empty) (restart 7) = some finish ∧
      total finish.billing.collected "cam" = 7 ∧
      finish.observedTotal "cam" = 12 := by
  have observed : (run step (start Manager.empty) (restart 7)).map
      (fun state =>
        (total state.billing.collected "cam", state.observedTotal "cam")) =
      some (7, 12) := by
    decide +kernel
  obtain ⟨finish, reached, sums⟩ := Option.map_eq_some_iff.mp observed
  exact ⟨finish, reached, congrArg Prod.fst sums, congrArg Prod.snd sums⟩

end Streaming
end RuseonCore
