import RuseonCore.Foundation.Transition
import RuseonCore.Streaming.Manager

/-!
# Lifetime totals

`GetCumulativeStats` adds the counters of the registered streams to a pool in
which `RemoveStream` keeps the counters of the streams it removes.
`UpsertStream` and `SyncWithStorage` also take streams out of the registry, and
drop their counters.  The state below adds to the manager the counters with
which each instance left the registry, so that the totals can be compared with
the sums over all instances ever created.
-/

namespace RuseonCore
namespace Streaming

open Storage Transition

/-- The totals that only grow. -/
inductive Metric
  | frames
  | bytesIn
  | bytesOut
  | drops
  deriving DecidableEq

/-- Counter of a metric. -/
def Metric.of : Metric → Counters → UInt64
  | .frames, counters => counters.frames
  | .bytesIn, counters => counters.bytes
  | .bytesOut, counters => counters.bytesSent
  | .drops, counters => counters.drops

@[simp] theorem Metric.of_add (metric : Metric) (counters more : Counters) :
    metric.of (counters.add more) = metric.of counters + metric.of more := by
  cases metric <;> rfl

@[simp] theorem Metric.of_zero (metric : Metric) : metric.of {} = 0 := by
  cases metric <;> rfl

namespace Manager

/-- Counters of an instance. -/
def countersOf (m : Manager) (p : Nat) : Counters :=
  (m.heap[p]?.map Instance.counters).getD {}

/-- No frame or byte was counted for the instance. -/
def Idle (m : Manager) (p : Nat) : Prop :=
  ∀ metric : Metric, metric.of (m.countersOf p) = 0

/-- The camera list keeps the instance: it has an enabled camera of that
identifier, and no such camera has other settings. -/
def KeptBy (m : Manager) (cams : List CameraConfig) (id : String) (p : Nat) :
    Prop :=
  (∃ cam ∈ cams, cam.disabled = false ∧ cam.id = id) ∧
    ∀ cam ∈ cams, cam.disabled = false → cam.id = id →
      m.runs p (pipelineOf cam) = true

end Manager

/-- Manager, and the counters with which each instance was unregistered. -/
structure Ledger where
  manager : Manager
  frozen : Nat → Counters

/-- Calls of the manager and increments of counters. -/
inductive StreamStep
  | addStream (id : String) (cfg : PipelineConfig)
  | upsertStream (id : String) (cfg : PipelineConfig) (disabled : Bool)
  | syncWithStorage (cams : Option (List CameraConfig))
  | removeStream (id : String)
  | count (p : Nat) (more : Counters)

namespace Ledger

/-- A manager without streams. -/
def start : Ledger where
  manager := Manager.empty
  frozen := fun _ => {}

/-- Note the counters of the instances that the next manager has unregistered. -/
def replace (ledger : Ledger) (next : Manager) : Ledger where
  manager := next
  frozen := fun p =>
    if ledger.manager.registered p && !next.registered p then
      ledger.manager.countersOf p
    else ledger.frozen p

/-- Effect of one step. -/
def step (ledger : Ledger) : StreamStep → Option Ledger
  | .addStream id cfg =>
      match ledger.manager.addStream id cfg with
      | .ok next => some (ledger.replace next)
      | .error _ => some ledger
  | .upsertStream id cfg disabled =>
      some (ledger.replace (ledger.manager.upsertStream id cfg disabled).1)
  | .syncWithStorage cams =>
      some (ledger.replace (ledger.manager.syncWithStorage cams).1)
  | .removeStream id =>
      some (ledger.replace (ledger.manager.removeStream id).1)
  | .count p more =>
      some { ledger with manager := ledger.manager.count p more }

/-- Counters of an instance, frozen when it was unregistered. -/
def last (ledger : Ledger) (p : Nat) : Counters :=
  if ledger.manager.registered p then ledger.manager.countersOf p
  else ledger.frozen p

/-- Sum of a counter over all instances ever created. -/
def lifetime (metric : Metric) (ledger : Ledger) : Nat :=
  ∑ p ∈ Finset.range ledger.manager.heap.length,
    (metric.of (ledger.last p)).toNat

/-- A stream replaced or stopped by `UpsertStream` or `SyncWithStorage` has
counted nothing, and the lifetime sums fit the counters. -/
def KeepsCount (ledger : Ledger) : StreamStep → Prop
  | .upsertStream id cfg disabled =>
      ∀ p, ledger.manager.streams[id]? = some p →
        disabled = true ∨ ledger.manager.runs p cfg = false →
        ledger.manager.Idle p
  | .syncWithStorage (some cams) =>
      ∀ (id : String) (p : Nat), ledger.manager.streams[id]? = some p →
        ¬ ledger.manager.KeptBy cams id p → ledger.manager.Idle p
  | .count p more =>
      ledger.manager.registered p = true → ∀ metric : Metric,
        ledger.lifetime metric + (metric.of more).toNat < 2 ^ 64
  | _ => True

end Ledger

/-! ## Sums over the registry -/

namespace Manager

/-- Sum of a counter over the registered instances. -/
def active (metric : Metric) (m : Manager) : Nat :=
  ∑ p ∈ Finset.range m.heap.length,
    if m.registered p then (metric.of (m.countersOf p)).toNat else 0

/-- The snapshot of the registry visits each registered instance once. -/
theorem sum_getStreams (metric : Metric) (m : Manager) :
    (m.getStreams.map fun st => (metric.of st.counters).toNat).sum =
      m.active metric := by
  have visited : m.getStreams.map (fun st => (metric.of st.counters).toNat) =
      (m.streams.toList.map Prod.snd).map fun p =>
        (metric.of (m.countersOf p)).toNat := by
    rw [getStreams, List.map_filterMap, List.map_map, ← List.filterMap_eq_map]
    refine List.filterMap_congr fun entry member => ?_
    obtain ⟨id, p⟩ := entry
    rw [Std.ExtTreeMap.mem_toList_iff_getElem?_eq_some] at member
    obtain ⟨st, stored, _⟩ := m.valid id p member
    simp [countersOf, stored]
  have members : (m.streams.toList.map Prod.snd).toFinset =
      (Finset.range m.heap.length).filter fun p => m.registered p = true := by
    ext p
    rw [List.mem_toFinset, List.mem_map, Finset.mem_filter, Finset.mem_range,
      and_iff_right_of_imp lt_length_of_registered, registered_iff]
    constructor
    · rintro ⟨⟨id, _⟩, member, rfl⟩
      exact ⟨id, Std.ExtTreeMap.mem_toList_iff_getElem?_eq_some.mp member⟩
    · rintro ⟨id, present⟩
      exact ⟨(id, p), Std.ExtTreeMap.mem_toList_iff_getElem?_eq_some.mpr present, rfl⟩
  rw [visited, ← List.sum_toFinset _ m.nodup_registered, members, Finset.sum_filter, active]

/-- Adding counters does not wrap as long as their sum fits. -/
theorem foldl_add_toNat
    (metric : Metric)
    (streams : List Instance)
    (pool : Counters)
    (fits : (metric.of pool).toNat +
      (streams.map fun st => (metric.of st.counters).toNat).sum < 2 ^ 64) :
    (metric.of (streams.foldl (fun total st => total.add st.counters) pool)).toNat =
      (metric.of pool).toNat +
        (streams.map fun st => (metric.of st.counters).toNat).sum := by
  induction streams generalizing pool with
  | nil => simp
  | cons st streams inductionHypothesis =>
      rw [List.map_cons, List.sum_cons] at fits ⊢
      have added : (metric.of (pool.add st.counters)).toNat =
          (metric.of pool).toNat + (metric.of st.counters).toNat := by
        rw [Metric.of_add, UInt64.toNat_add]
        exact Nat.mod_eq_of_lt (by omega)
      rw [List.foldl_cons, inductionHypothesis _ (by rw [added]; omega), added]
      omega

/-! ## Changes of the registry -/

/-- Streams were created, unregistered and replaced, without touching the
pool. -/
inductive Moves (m : Manager) : Manager → Prop
  | refl : Moves m m
  | register
      {next : Manager}
      (moved : Moves m next)
      (id : String)
      (cfg : PipelineConfig) :
      Moves m (next.register id cfg)
  | unregister
      {next : Manager}
      (moved : Moves m next)
      (id : String) :
      Moves m (next.unregister id)
  | retain
      {next : Manager}
      (moved : Moves m next)
      (active : String → Bool) :
      Moves m (next.retain active)

namespace Moves

theorem cum
    {m next : Manager}
    (moves : Moves m next) :
    next.cum = m.cum := by
  induction moves with
  | refl => rfl
  | register _ _ _ inductionHypothesis => exact inductionHypothesis
  | unregister _ _ inductionHypothesis => exact inductionHypothesis
  | retain _ _ inductionHypothesis => exact inductionHypothesis

/-- Created streams have counted nothing. -/
theorem fresh
    {m next : Manager}
    (moves : Moves m next)
    {p : Nat}
    (created : m.heap.length ≤ p) :
    next.countersOf p = {} := by
  induction moves with
  | refl => simp [countersOf, List.getElem?_eq_none created]
  | @register next _ id cfg inductionHypothesis =>
      simp only [countersOf, Manager.register, List.getElem?_append]
      split
      · exact inductionHypothesis
      · cases p - next.heap.length <;> simp [newStream]
  | unregister _ _ inductionHypothesis => exact inductionHypothesis
  | retain _ _ inductionHypothesis => exact inductionHypothesis

theorem addStream
    {m next : Manager}
    {id : String}
    {cfg : PipelineConfig}
    (added : m.addStream id cfg = .ok next) :
    Moves m next := by
  unfold Manager.addStream at added
  split at added
  · cases added
  · rw [← Except.ok.inj added]
    exact .register .refl id cfg

theorem upsertStream
    (m : Manager)
    (id : String)
    (cfg : PipelineConfig)
    (disabled : Bool) :
    Moves m (m.upsertStream id cfg disabled).1 := by
  unfold Manager.upsertStream
  split
  · exact .unregister .refl id
  · exact .refl
  · split
    · exact .register .refl id cfg
    · exact .refl
  · exact .register .refl id cfg

theorem syncCamera
    {m : Manager}
    {state : Manager × List Nat}
    (moves : Moves m state.1)
    (cam : CameraConfig) :
    Moves m (Manager.syncCamera state cam).1 := by
  unfold Manager.syncCamera
  split
  · split
    · split
      · exact .register moves cam.id _
      · exact moves
    · exact .register moves cam.id _
  · exact moves

theorem foldl_syncCamera
    {m : Manager}
    (cams : List CameraConfig)
    {state : Manager × List Nat}
    (moves : Moves m state.1) :
    Moves m (cams.foldl Manager.syncCamera state).1 := by
  induction cams generalizing state with
  | nil => exact moves
  | cons cam rest inductionHypothesis =>
      exact inductionHypothesis (moves.syncCamera cam)

theorem syncWithStorage (m : Manager) (cams : Option (List CameraConfig)) :
    Moves m (m.syncWithStorage cams).1 := by
  cases cams with
  | none => exact .refl
  | some cams =>
      have synced : Moves m (cams.foldl Manager.syncCamera (m, [])).1 :=
        foldl_syncCamera cams .refl
      exact .retain synced _

end Moves

/-- Counters of existing streams are unchanged. -/
theorem Evolves.countersOf
    {m next : Manager}
    (evolves : m.Evolves next)
    {p : Nat}
    (existing : p < m.heap.length) :
    next.countersOf p = m.countersOf p := by
  obtain ⟨more, heap⟩ := evolves.created
  rw [Manager.countersOf, Manager.countersOf, ← heap,
    List.getElem?_append_left existing]

/-- An existing stream that is registered now was registered before. -/
theorem Evolves.registered_before
    {m next : Manager}
    (evolves : m.Evolves next)
    {p : Nat}
    (existing : p < m.heap.length)
    (registered : next.registered p = true) :
    m.registered p = true := by
  obtain ⟨id, present⟩ := registered_iff.mp registered
  rcases evolves.registered id p present with before | new
  · exact registered_iff.mpr ⟨id, before⟩
  · omega

/-- Removing a registered stream unregisters it and adds its counters to the
pool. -/
theorem removeStream_of_present
    {m : Manager}
    {id : String}
    {p : Nat}
    (present : m.streams[id]? = some p) :
    (m.removeStream id).1.heap = m.heap ∧
      (∀ q, (m.removeStream id).1.registered q = (m.registered q && q != p)) ∧
      (m.removeStream id).1.cum = m.cum.add (m.countersOf p) := by
  obtain ⟨st, stored, _⟩ := m.valid id p present
  have counters : m.countersOf p = st.counters := by
    simp [countersOf, stored]
  simp only [removeStream, present, stored, counters]
  exact ⟨rfl, registered_unregister present, trivial⟩

/-- Counting changes no registration. -/
theorem registered_count (m : Manager) (p q : Nat) (more : Counters) :
    (m.count p more).registered q = m.registered q := by
  simp only [registered, count, List.getElem?_modify]
  cases m.heap[q]? with
  | none => rfl
  | some st => by_cases same : p = q <;> simp [same]

/-- Counting changes the counters of one instance. -/
theorem countersOf_count
    (m : Manager)
    {p q : Nat}
    (existing : q < m.heap.length)
    (more : Counters) :
    (m.count p more).countersOf q =
      if p = q then (m.countersOf q).add more else m.countersOf q := by
  simp only [countersOf, count, List.getElem?_modify,
    List.getElem?_eq_getElem existing]
  by_cases same : p = q <;> simp [same]

/-- `AddStream` unregisters nothing. -/
theorem registered_addStream
    {m next : Manager}
    {id : String}
    {cfg : PipelineConfig}
    (added : m.addStream id cfg = .ok next)
    {p : Nat}
    (before : m.registered p = true) :
    next.registered p = true := by
  obtain ⟨other, present⟩ := registered_iff.mp before
  unfold addStream at added
  split at added
  · cases added
  · rename_i free
    have apart : id ≠ other := by
      rintro rfl
      rw [Std.ExtTreeMap.contains_iff_mem, Std.ExtTreeMap.mem_iff_isSome_getElem?,
        present] at free
      simp at free
    rw [← Except.ok.inj added]
    refine registered_iff.mpr ⟨other, ?_⟩
    simp [register, Std.ExtTreeMap.getElem?_insert, apart, present]

/-- `UpsertStream` unregisters only the stream of its camera, if that is to be
disabled or runs with other settings. -/
theorem unregistered_upsertStream
    {m : Manager}
    {id : String}
    {cfg : PipelineConfig}
    {disabled : Bool}
    {p : Nat}
    (before : m.registered p = true)
    (after : (m.upsertStream id cfg disabled).1.registered p = false) :
    m.streams[id]? = some p ∧ (disabled = true ∨ m.runs p cfg = false) := by
  obtain ⟨other, present⟩ := registered_iff.mp before
  have gone : (m.upsertStream id cfg disabled).1.streams[other]? ≠ some p := by
    intro still
    rw [registered_iff.mpr ⟨other, still⟩] at after
    cases after
  by_cases same : id = other
  · subst same
    refine ⟨present, ?_⟩
    cases disabled with
    | true => exact .inl rfl
    | false =>
        refine .inr ?_
        by_contra running
        rw [Bool.not_eq_false] at running
        simp [upsertStream, present, running] at gone
  · refine absurd ?_ gone
    unfold upsertStream
    split
    · simp [unregister, Std.ExtTreeMap.getElem?_erase, same, present]
    · exact present
    · split
      · simp [register, Std.ExtTreeMap.getElem?_insert, same, present]
      · exact present
    · simp [register, Std.ExtTreeMap.getElem?_insert, same, present]

/-- `SyncWithStorage` unregisters only streams that the list does not keep. -/
theorem unregistered_syncWithStorage
    {m : Manager}
    {cams : List CameraConfig}
    {id : String}
    {p : Nat}
    (present : m.streams[id]? = some p)
    (after : (m.syncWithStorage (some cams)).1.registered p = false) :
    ¬ m.KeptBy cams id p := by
  rintro ⟨⟨cam, member, enabled, named⟩, matching⟩
  have synced : (cams.foldl syncCamera (m, [])).1.streams[id]? = some p :=
    streams_foldl_syncCamera cams present matching
  have active : id ∈ (cams.filter fun cam => !cam.disabled).map CameraConfig.id :=
    List.mem_map.mpr ⟨cam, List.mem_filter.mpr ⟨member, by simp [enabled]⟩, named⟩
  have still : (m.syncWithStorage (some cams)).1.streams[id]? = some p := by
    simp only [syncWithStorage, retain, Std.ExtTreeMap.getElem?_filter', synced,
      Option.filter_some, List.contains_iff_mem.mpr active, if_true]
  rw [registered_iff.mpr ⟨id, still⟩] at after
  cases after

end Manager

namespace Ledger

/-- Sum of a counter over the instances that were unregistered. -/
def retired (metric : Metric) (ledger : Ledger) : Nat :=
  ∑ p ∈ Finset.range ledger.manager.heap.length,
    if ledger.manager.registered p then 0 else (metric.of (ledger.frozen p)).toNat

theorem lifetime_eq (metric : Metric) (ledger : Ledger) :
    ledger.lifetime metric =
      ledger.retired metric + ledger.manager.active metric := by
  rw [lifetime, retired, Manager.active, ← Finset.sum_add_distrib]
  refine Finset.sum_congr rfl fun p _ => ?_
  unfold last
  split <;> simp

/-- The pool holds the counters of the unregistered instances, and the lifetime
sum fits. -/
structure Balanced (metric : Metric) (ledger : Ledger) : Prop where
  unseen : ∀ p, ledger.manager.heap.length ≤ p → ledger.frozen p = {}
  pool : (metric.of ledger.manager.cum).toNat = ledger.retired metric
  fits : ledger.lifetime metric < 2 ^ 64

/-- The total of a balanced ledger is the lifetime sum. -/
theorem Balanced.total
    {metric : Metric}
    {ledger : Ledger}
    (balanced : ledger.Balanced metric) :
    (metric.of ledger.manager.getCumulativeStats).toNat =
      ledger.lifetime metric := by
  have fits := balanced.fits
  rw [lifetime_eq, ← Manager.sum_getStreams, ← balanced.pool] at fits ⊢
  exact Manager.foldl_add_toNat metric _ _ fits

/-! ## Steps -/

theorem sum_range_extended
    {size more : Nat}
    {before after : Nat → Nat}
    (grown : size ≤ more)
    (same : ∀ p < size, after p = before p)
    (zero : ∀ p, size ≤ p → after p = 0) :
    ∑ p ∈ Finset.range more, after p = ∑ p ∈ Finset.range size, before p := by
  calc ∑ p ∈ Finset.range more, after p
      = ∑ p ∈ Finset.range size, after p := by
        symm
        apply Finset.sum_subset (Finset.range_mono grown)
        intro p _ beyond
        exact zero p (by simpa using beyond)
    _ = ∑ p ∈ Finset.range size, before p :=
        Finset.sum_congr rfl fun p inRange => same p (Finset.mem_range.mp inRange)

section Replace

variable {metric : Metric} {ledger : Ledger} {next : Manager}
variable (unseen : ∀ p, ledger.manager.heap.length ≤ p → ledger.frozen p = {})

include unseen in
theorem frozen_replace_of_new
    {p : Nat}
    (created : ledger.manager.heap.length ≤ p) :
    (ledger.replace next).frozen p = {} := by
  unfold replace
  dsimp only
  split
  · rename_i before
    have bound := Manager.lt_length_of_registered (Bool.and_eq_true_iff.mp before).1
    omega
  · exact unseen p created

variable (evolves : ledger.manager.Evolves next)

include evolves

/-- Instances that were not registered before are not registered now. -/
theorem not_registered_after
    {p : Nat}
    (existing : p < ledger.manager.heap.length)
    (before : ledger.manager.registered p = false) :
    next.registered p = false := by
  by_contra registered
  rw [Bool.not_eq_false] at registered
  rw [evolves.registered_before existing registered] at before
  cases before

/-- Leaving the registry freezes the counters of an instance. -/
theorem last_replace
    {p : Nat}
    (existing : p < ledger.manager.heap.length) :
    (ledger.replace next).last p = ledger.last p := by
  have counters := evolves.countersOf existing
  cases before : ledger.manager.registered p with
  | true =>
      cases after : next.registered p <;> simp [last, replace, before, after, counters]
  | false =>
      have after := not_registered_after evolves existing before
      simp [last, replace, before, after]

include unseen

/-- Changes of the registry leave the lifetime sums alone. -/
theorem lifetime_replace
    (fresh : ∀ p, ledger.manager.heap.length ≤ p → next.countersOf p = {}) :
    (ledger.replace next).lifetime metric = ledger.lifetime metric := by
  refine sum_range_extended evolves.created.length_le ?_ ?_
  · intro p existing
    rw [last_replace evolves existing]
  · intro p created
    have frozen : (ledger.replace next).frozen p = {} :=
      frozen_replace_of_new unseen created
    have counters : (ledger.replace next).manager.countersOf p = {} := fresh p created
    unfold last
    split
    · simp [counters]
    · simp [frozen]

/-- The counters of unregistered instances grow by those of the instances that
have just left the registry. -/
theorem retired_replace
    (idle : ∀ p, ledger.manager.registered p = true → next.registered p = false →
      metric.of (ledger.manager.countersOf p) = 0) :
    (ledger.replace next).retired metric = ledger.retired metric := by
  refine sum_range_extended evolves.created.length_le ?_ ?_
  · intro p existing
    cases before : ledger.manager.registered p with
    | true =>
        cases after : next.registered p with
        | true => simp [replace, after]
        | false => simp [replace, before, after, idle p before after]
    | false =>
        have after := not_registered_after evolves existing before
        simp [replace, before, after]
  · intro p created
    have frozen : (ledger.replace next).frozen p = {} :=
      frozen_replace_of_new unseen created
    simp [frozen]

end Replace

/-- Dropping streams that have counted nothing keeps the balance. -/
theorem Balanced.replace
    {metric : Metric}
    {ledger : Ledger}
    {next : Manager}
    (balanced : ledger.Balanced metric)
    (evolves : ledger.manager.Evolves next)
    (moves : ledger.manager.Moves next)
    (idle : ∀ p, ledger.manager.registered p = true → next.registered p = false →
      metric.of (ledger.manager.countersOf p) = 0) :
    (ledger.replace next).Balanced metric ∧
      (ledger.replace next).lifetime metric = ledger.lifetime metric := by
  have lifetime : (ledger.replace next).lifetime metric = ledger.lifetime metric :=
    lifetime_replace balanced.unseen evolves fun p created => moves.fresh created
  refine ⟨⟨?_, ?_, ?_⟩, lifetime⟩
  · intro p beyond
    exact frozen_replace_of_new balanced.unseen
      (evolves.created.length_le.trans beyond)
  · rw [retired_replace balanced.unseen evolves idle, ← balanced.pool]
    exact congrArg (fun cum => (metric.of cum).toNat) moves.cum
  · rw [lifetime]
    exact balanced.fits

theorem sum_range_changed
    {size p amount : Nat}
    {before after : Nat → Nat}
    (inside : p < size)
    (changed : ∀ q < size, after q = before q + if q = p then amount else 0) :
    ∑ q ∈ Finset.range size, after q =
      ∑ q ∈ Finset.range size, before q + amount := by
  calc ∑ q ∈ Finset.range size, after q
      = ∑ q ∈ Finset.range size, (before q + if q = p then amount else 0) :=
        Finset.sum_congr rfl fun q inRange => changed q (Finset.mem_range.mp inRange)
    _ = ∑ q ∈ Finset.range size, before q + amount := by
        rw [Finset.sum_add_distrib, Finset.sum_ite_eq',
          if_pos (Finset.mem_range.mpr inside)]

/-- An instance that leaves the registry alone is added to the unregistered
ones. -/
theorem retired_replace_one
    {metric : Metric}
    {ledger : Ledger}
    {next : Manager}
    {p : Nat}
    (own : ledger.manager.registered p = true)
    (heap : next.heap = ledger.manager.heap)
    (registered : ∀ q, next.registered q = (ledger.manager.registered q && q != p)) :
    (ledger.replace next).retired metric =
      ledger.retired metric + (metric.of (ledger.manager.countersOf p)).toNat := by
  unfold retired
  rw [show (ledger.replace next).manager.heap = ledger.manager.heap from heap]
  refine sum_range_changed (Manager.lt_length_of_registered own) fun q _ => ?_
  by_cases same : q = p
  · subst same
    simp [replace, registered, own]
  · cases before : ledger.manager.registered q <;>
      simp [replace, registered, before, same]

/-- Removing a stream moves its counters to the pool. -/
theorem Balanced.removeStream
    {metric : Metric}
    {ledger : Ledger}
    (balanced : ledger.Balanced metric)
    (id : String) :
    (ledger.replace (ledger.manager.removeStream id).1).Balanced metric ∧
      (ledger.replace (ledger.manager.removeStream id).1).lifetime metric =
        ledger.lifetime metric := by
  have evolves := Manager.Evolves.removeStream ledger.manager id
  cases entry : ledger.manager.streams[id]? with
  | none =>
      have unchanged : (ledger.manager.removeStream id).1 = ledger.manager := by
        simp [Manager.removeStream, entry]
      rw [unchanged] at evolves ⊢
      refine balanced.replace evolves .refl fun p before after => ?_
      rw [before] at after
      cases after
  | some p =>
      obtain ⟨heap, registered, cum⟩ := Manager.removeStream_of_present entry
      generalize (ledger.manager.removeStream id).1 = next at evolves heap registered cum ⊢
      have own : ledger.manager.registered p = true :=
        Manager.registered_iff.mpr ⟨id, entry⟩
      have lifetime : (ledger.replace next).lifetime metric = ledger.lifetime metric := by
        refine lifetime_replace balanced.unseen evolves fun q beyond => ?_
        simp [Manager.countersOf, heap, List.getElem?_eq_none beyond]
      have retired : (ledger.replace next).retired metric =
          ledger.retired metric + (metric.of (ledger.manager.countersOf p)).toNat :=
        retired_replace_one own heap registered
      refine ⟨⟨?_, ?_, ?_⟩, lifetime⟩
      · intro q beyond
        exact frozen_replace_of_new balanced.unseen
          (evolves.created.length_le.trans beyond)
      · have bound := balanced.fits
        rw [← lifetime, lifetime_eq, retired, ← balanced.pool] at bound
        rw [retired, ← balanced.pool,
          show (ledger.replace next).manager.cum = _ from cum, Metric.of_add,
          UInt64.toNat_add]
        exact Nat.mod_eq_of_lt (by omega)
      · rw [lifetime]
        exact balanced.fits

section Count

variable {metric : Metric} {ledger : Ledger} {p : Nat} {more : Counters}

/-- Counting adds to the counters of an instance that is registered. -/
theorem last_count
    {q : Nat}
    (existing : q < ledger.manager.heap.length) :
    last { ledger with manager := ledger.manager.count p more } q =
      if ledger.manager.registered p = true ∧ q = p then (ledger.last q).add more
      else ledger.last q := by
  simp only [last, Manager.registered_count,
    Manager.countersOf_count ledger.manager existing]
  by_cases same : q = p
  · subst same
    cases registered : ledger.manager.registered q <;> simp
  · simp [same, Ne.symm same]

/-- An instance contributes at most the lifetime sum. -/
theorem last_le_lifetime
    (existing : p < ledger.manager.heap.length) :
    (metric.of (ledger.last p)).toNat ≤ ledger.lifetime metric :=
  Finset.single_le_sum (f := fun q => (metric.of (ledger.last q)).toNat)
    (fun _ _ => Nat.zero_le _) (Finset.mem_range.mpr existing)

variable (fits : ledger.manager.registered p = true →
  ledger.lifetime metric + (metric.of more).toNat < 2 ^ 64)

include fits

/-- Counting adds to the lifetime sum unless the instance has left the
registry. -/
theorem lifetime_count :
    lifetime metric { ledger with manager := ledger.manager.count p more } =
      ledger.lifetime metric +
        if ledger.manager.registered p then (metric.of more).toNat else 0 := by
  have size : (ledger.manager.count p more).heap.length =
      ledger.manager.heap.length := List.length_modify _ _ _
  rw [lifetime, size]
  cases registered : ledger.manager.registered p with
  | false =>
      refine Finset.sum_congr rfl fun q inRange => ?_
      rw [last_count (Finset.mem_range.mp inRange)]
      simp [registered]
  | true =>
      have inside := Manager.lt_length_of_registered registered
      have room := fits registered
      have share : (metric.of (ledger.last p)).toNat ≤ ledger.lifetime metric :=
        last_le_lifetime inside
      refine sum_range_changed inside fun q bound => ?_
      rw [last_count bound]
      by_cases same : q = p
      · subst same
        rw [if_pos ⟨registered, rfl⟩, Metric.of_add, UInt64.toNat_add, if_pos rfl]
        exact Nat.mod_eq_of_lt (by omega)
      · simp [same]

/-- Counting keeps the balance and lowers no lifetime sum. -/
theorem Balanced.count
    (balanced : ledger.Balanced metric) :
    Balanced metric { ledger with manager := ledger.manager.count p more } ∧
      ledger.lifetime metric ≤
        lifetime metric { ledger with manager := ledger.manager.count p more } := by
  have size : (ledger.manager.count p more).heap.length =
      ledger.manager.heap.length := List.length_modify _ _ _
  refine ⟨⟨?_, ?_, ?_⟩, ?_⟩
  · intro q beyond
    exact balanced.unseen q (by simpa [size] using beyond)
  · have retired : retired metric { ledger with
        manager := ledger.manager.count p more } = ledger.retired metric := by
      simp only [Ledger.retired, size, Manager.registered_count]
    rw [retired, ← balanced.pool]
    rfl
  · rw [lifetime_count fits]
    split
    · rename_i registered
      exact fits registered
    · exact balanced.fits
  · rw [lifetime_count fits]
    exact Nat.le_add_right _ _

end Count

theorem idle_syncWithStorage
    {metric : Metric}
    {ledger : Ledger}
    {cams : Option (List CameraConfig)}
    (keeps : ledger.KeepsCount (.syncWithStorage cams))
    (p : Nat)
    (before : ledger.manager.registered p = true)
    (after : (ledger.manager.syncWithStorage cams).1.registered p = false) :
    metric.of (ledger.manager.countersOf p) = 0 := by
  cases cams with
  | none =>
      rw [show (ledger.manager.syncWithStorage none).1 = ledger.manager from rfl,
        before] at after
      cases after
  | some cams =>
      obtain ⟨id, present⟩ := Manager.registered_iff.mp before
      exact keeps id p present
        (Manager.unregistered_syncWithStorage present after) metric

/-- A step that keeps count keeps the balance and lowers no lifetime sum. -/
theorem Balanced.step
    {metric : Metric}
    {ledger next : Ledger}
    {label : StreamStep}
    (balanced : ledger.Balanced metric)
    (keeps : ledger.KeepsCount label)
    (taken : ledger.step label = some next) :
    next.Balanced metric ∧ ledger.lifetime metric ≤ next.lifetime metric := by
  cases label with
  | addStream id cfg =>
      cases added : ledger.manager.addStream id cfg with
      | error text =>
          simp only [Ledger.step, added, Option.some.injEq] at taken
          exact taken ▸ ⟨balanced, le_rfl⟩
      | ok manager =>
          simp only [Ledger.step, added, Option.some.injEq] at taken
          have moved : (ledger.replace manager).Balanced metric ∧
              (ledger.replace manager).lifetime metric = ledger.lifetime metric := by
            refine balanced.replace (.addStream added) (.addStream added) ?_
            intro p before after
            rw [Manager.registered_addStream added before] at after
            cases after
          exact taken ▸ ⟨moved.1, moved.2.ge⟩
  | upsertStream id cfg disabled =>
      have moved := balanced.replace
        (Manager.Evolves.upsertStream ledger.manager id cfg disabled)
        (Manager.Moves.upsertStream ledger.manager id cfg disabled)
        fun p before after =>
          have gone := Manager.unregistered_upsertStream before after
          keeps p gone.1 gone.2 metric
      rw [← Option.some.inj taken]
      exact ⟨moved.1, moved.2.ge⟩
  | syncWithStorage cams =>
      have moved := balanced.replace
        (Manager.Evolves.syncWithStorage ledger.manager cams)
        (Manager.Moves.syncWithStorage ledger.manager cams)
        (idle_syncWithStorage keeps)
      rw [← Option.some.inj taken]
      exact ⟨moved.1, moved.2.ge⟩
  | removeStream id =>
      have removed := balanced.removeStream id
      rw [← Option.some.inj taken]
      exact ⟨removed.1, removed.2.ge⟩
  | count p more =>
      rw [← Option.some.inj taken]
      exact Balanced.count (fun registered => keeps registered metric) balanced

theorem balanced_start (metric : Metric) : start.Balanced metric where
  unseen := fun _ _ => rfl
  pool := by cases metric <;> rfl
  fits := by
    change (0 : Nat) < 2 ^ 64
    decide

/-- In every run that keeps count, each total is the sum of its counter over all
instances ever created, and never decreases. -/
theorem totals_of_keepsCount
    {earlier later : List StreamStep}
    {middle finish : Ledger}
    (reached : run Ledger.step Ledger.start earlier = some middle)
    (continued : run Ledger.step middle later = some finish)
    (keeps : Meets Ledger.step KeepsCount Ledger.start (earlier ++ later))
    (metric : Metric) :
    (metric.of middle.manager.getCumulativeStats).toNat = middle.lifetime metric ∧
      (metric.of finish.manager.getCumulativeStats).toNat = finish.lifetime metric ∧
      metric.of middle.manager.getCumulativeStats ≤
        metric.of finish.manager.getCumulativeStats := by
  obtain ⟨keepsEarlier, keepsLater⟩ := (meets_append reached).mp keeps
  have preserved : ∀ bound (ledger : Ledger) label next,
      ledger.Balanced metric ∧ bound ≤ ledger.lifetime metric →
      ledger.KeepsCount label → ledger.step label = some next →
      next.Balanced metric ∧ bound ≤ next.lifetime metric := by
    rintro bound ledger label next ⟨balanced, grown⟩ kept taken
    obtain ⟨balancedNext, further⟩ := balanced.step kept taken
    exact ⟨balancedNext, grown.trans further⟩
  obtain ⟨balanced, _⟩ := keepsEarlier.invariant (preserved 0)
    ⟨balanced_start metric, Nat.zero_le _⟩ reached
  obtain ⟨balancedLater, grown⟩ := keepsLater.invariant
    (preserved (middle.lifetime metric)) ⟨balanced, le_rfl⟩ continued
  refine ⟨balanced.total, balancedLater.total, ?_⟩
  rw [UInt64.le_iff_toNat_le, balanced.total, balancedLater.total]
  exact grown

/-- Settings that differ in the address only. -/
def plainPipeline (url : String) : PipelineConfig where
  url := url
  record := false
  lazyHLS := true
  transport := "tcp"
  tokenAuth := false

/-- One frame of four bytes, also sent once. -/
def oneFrame : Counters where
  frames := 1
  bytes := 4
  bytesSent := 4

/-- A stream that was removed still counts. -/
theorem totals_of_keepsCount_removed :
    ∃ middle finish,
      run Ledger.step Ledger.start
        [.addStream "cam" (plainPipeline "a"), .count 0 oneFrame] = some middle ∧
      run Ledger.step middle
        [.removeStream "cam", .addStream "cam" (plainPipeline "b")] = some finish ∧
      (Metric.bytesIn.of finish.manager.getCumulativeStats).toNat =
        finish.lifetime .bytesIn ∧
      finish.lifetime .bytesIn = 4 := by
  have keeps : Meets Ledger.step KeepsCount Ledger.start
      ([.addStream "cam" (plainPipeline "a"), .count 0 oneFrame] ++
        [.removeStream "cam", .addStream "cam" (plainPipeline "b")]) := by
    refine ⟨trivial, ?_⟩
    rintro _ ⟨⟩
    refine ⟨?_, ?_⟩
    · intro _ metric
      cases metric <;> decide
    · rintro _ ⟨⟩
      refine ⟨trivial, ?_⟩
      rintro _ ⟨⟩
      exact ⟨trivial, fun _ _ => trivial⟩
  refine ⟨_, _, rfl, rfl, (totals_of_keepsCount rfl rfl keeps .bytesIn).2.1, ?_⟩
  decide

/-- A change of settings drops what the stream has counted: the total falls
back to zero. -/
theorem totals_lost_on_upsert :
    ∃ middle finish,
      run Ledger.step Ledger.start
        [.upsertStream "cam" (plainPipeline "a") false, .count 0 oneFrame] =
          some middle ∧
      run Ledger.step middle
        [.upsertStream "cam" (plainPipeline "b") false] = some finish ∧
      Metric.bytesIn.of middle.manager.getCumulativeStats = 4 ∧
      Metric.bytesIn.of finish.manager.getCumulativeStats = 0 ∧
      finish.lifetime .bytesIn = 4 := by
  refine ⟨_, _, rfl, rfl, ?_, ?_, ?_⟩
  · decide
  · decide
  · decide

end Ledger
end Streaming
end RuseonCore
