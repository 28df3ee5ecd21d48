import RuseonCore.Storage.Records

/-!
# The stream manager

Model of `internal/stream/manager.go`.  Stream objects are numbered in the order
of their creation and never leave the heap; the registry maps camera
identifiers to their numbers.  Every method below is one critical section under
the manager's mutex and also returns the instances that the source stops after
releasing it.
-/

namespace RuseonCore
namespace Streaming

open Storage

/-- Runtime settings of a stream. -/
structure PipelineConfig where
  url : String
  record : Bool
  lazyHLS : Bool
  transport : String
  tokenAuth : Bool
  deriving DecidableEq

/-- Settings with which the stream of a camera has to run. -/
def pipelineOf (cam : CameraConfig) : PipelineConfig where
  url := cam.url
  record := cam.record
  lazyHLS := cam.lazyHLS
  transport := cam.transport
  tokenAuth := cam.tokenAuth

/-- Telemetry counters, of one stream or accumulated over removed ones. -/
structure Counters where
  frames : UInt64 := 0
  bytes : UInt64 := 0
  bytesSent : UInt64 := 0
  drops : UInt64 := 0
  reconnects : UInt64 := 0
  deriving DecidableEq

namespace Counters

/-- Componentwise atomic addition. -/
def add (counters more : Counters) : Counters where
  frames := counters.frames + more.frames
  bytes := counters.bytes + more.bytes
  bytesSent := counters.bytesSent + more.bytesSent
  drops := counters.drops + more.drops
  reconnects := counters.reconnects + more.reconnects

end Counters

/-- A stream object.  A recorder is attached exactly when the stream was
created for recording, and the settings never change. -/
structure Instance where
  id : String
  pipeline : PipelineConfig
  counters : Counters
  deriving DecidableEq

/-- A stream just created. -/
def newStream (id : String) (cfg : PipelineConfig) : Instance where
  id := id
  pipeline := cfg
  counters := {}

namespace Instance

/-- The stream already runs with the given settings. -/
def matchesPipelineConfig (st : Instance) (cfg : PipelineConfig) : Bool :=
  st.pipeline.url == cfg.url && st.pipeline.transport == cfg.transport &&
    st.pipeline.lazyHLS == cfg.lazyHLS &&
    st.pipeline.tokenAuth == cfg.tokenAuth &&
    st.pipeline.record == cfg.record

theorem matchesPipelineConfig_iff (st : Instance) (cfg : PipelineConfig) :
    st.matchesPipelineConfig cfg = true ↔ st.pipeline = cfg := by
  obtain ⟨id, ⟨url, record, lazyHLS, transport, tokenAuth⟩, counters⟩ := st
  obtain ⟨url', record', lazyHLS', transport', tokenAuth'⟩ := cfg
  simp only [matchesPipelineConfig, Bool.and_eq_true, beq_iff_eq,
    PipelineConfig.mk.injEq]
  tauto

end Instance

/-- The manager: every stream ever created, the registry of running ones, and
the counters of removed ones.  A registered number refers to a stream of its
own identifier. -/
structure Manager where
  heap : List Instance
  streams : Std.ExtTreeMap String Nat compare
  cum : Counters
  valid : ∀ (id : String) (p : Nat), streams[id]? = some p →
    ∃ st, heap[p]? = some st ∧ st.id = id

namespace Manager

/-- A manager without streams. -/
def empty : Manager where
  heap := []
  streams := ∅
  cum := {}
  valid := by simp

/-- Registered stream of a camera. -/
def getStream (m : Manager) (id : String) : Option Instance :=
  m.streams[id]?.bind fun p => m.heap[p]?

/-- Create a stream and register it, replacing the one under its identifier. -/
def register (m : Manager) (id : String) (cfg : PipelineConfig) : Manager where
  heap := m.heap ++ [newStream id cfg]
  streams := m.streams.insert id m.heap.length
  cum := m.cum
  valid := by
    intro other p present
    rw [Std.ExtTreeMap.getElem?_insert] at present
    split at present
    · rename_i same
      rw [← Option.some.inj present, ← Std.LawfulEqCmp.eq_of_compare same]
      exact ⟨newStream id cfg, by simp, rfl⟩
    · obtain ⟨st, stored, named⟩ := m.valid other p present
      have bound := (List.getElem?_eq_some_iff.mp stored).1
      exact ⟨st, by rw [List.getElem?_append_left bound, stored], named⟩

/-- Drop a registration. -/
def unregister (m : Manager) (id : String) : Manager where
  heap := m.heap
  streams := m.streams.erase id
  cum := m.cum
  valid := by
    intro other p present
    rw [Std.ExtTreeMap.getElem?_erase] at present
    split at present
    · simp at present
    · exact m.valid other p present

/-- Add to the counters of one stream, registered or not. -/
def count (m : Manager) (p : Nat) (more : Counters) : Manager where
  heap := m.heap.modify p fun st => { st with counters := st.counters.add more }
  streams := m.streams
  cum := m.cum
  valid := by
    intro id q present
    obtain ⟨st, stored, named⟩ := m.valid id q present
    rw [List.getElem?_modify, stored]
    exact ⟨_, rfl, by split <;> exact named⟩

/-- Create and register a stream, unless its identifier is taken. -/
def addStream (m : Manager) (id : String) (cfg : PipelineConfig) :
    Except String Manager :=
  if m.streams.contains id then .error s!"stream {id} already exists"
  else .ok (m.register id cfg)

/-- Unregister a stream, keeping its counters in the cumulative pool. -/
def removeStream (m : Manager) (id : String) : Manager × Option Nat :=
  match m.streams[id]? with
  | none => (m, none)
  | some p =>
      match m.heap[p]? with
      | none => (m.unregister id, some p)
      | some st =>
          ({ m.unregister id with cum := m.cum.add st.counters }, some p)

/-- The registered stream exists and runs with the given settings. -/
def runs (m : Manager) (p : Nat) (cfg : PipelineConfig) : Bool :=
  m.heap[p]?.any fun st => st.matchesPipelineConfig cfg

/-- Create, replace or remove a stream according to the given settings. -/
def upsertStream
    (m : Manager)
    (id : String)
    (cfg : PipelineConfig)
    (disabled : Bool) : Manager × Option Nat :=
  match disabled, m.streams[id]? with
  | true, some p => (m.unregister id, some p)
  | true, none => (m, none)
  | false, some p =>
      if !m.runs p cfg then (m.register id cfg, some p) else (m, none)
  | false, none => (m.register id cfg, none)

/-- Iteration of the first loop of `SyncWithStorage`. -/
def syncCamera
    (state : Manager × List Nat)
    (cam : CameraConfig) : Manager × List Nat :=
  if !cam.disabled then
    match state.1.streams[cam.id]? with
    | some p =>
        if !state.1.runs p (pipelineOf cam) then
          (state.1.register cam.id (pipelineOf cam), state.2 ++ [p])
        else state
    | none => (state.1.register cam.id (pipelineOf cam), state.2)
  else state

/-- Keep only the registrations of the given identifiers. -/
def retain (m : Manager) (active : String → Bool) : Manager where
  heap := m.heap
  streams := m.streams.filter fun id _ => active id
  cum := m.cum
  valid := by
    intro id p present
    rw [Std.ExtTreeMap.getElem?_filter'] at present
    obtain ⟨kept, _⟩ := Option.filter_eq_some_iff.mp present
    exact m.valid id p kept

/-- Reconcile the registry with a camera list; `none` when the list could not
be read. -/
def syncWithStorage
    (m : Manager)
    (cams : Option (List CameraConfig)) : Manager × List Nat :=
  match cams with
  | none => (m, [])
  | some cams =>
      let active := (cams.filter fun cam => !cam.disabled).map CameraConfig.id
      let (synced, toStop) := cams.foldl syncCamera (m, [])
      (synced.retain active.contains,
        toStop ++ (synced.streams.toList.filter fun entry =>
          !active.contains entry.1).map Prod.snd)

/-- All registered streams; the order of the source's map is arbitrary. -/
def getStreams (m : Manager) : List Instance :=
  m.streams.toList.filterMap fun entry => m.heap[entry.2]?

/-- Pool of the removed streams and counters of the registered ones. -/
def getCumulativeStats (m : Manager) : Counters :=
  m.getStreams.foldl (fun total st => total.add st.counters) m.cum

/-- Settings of the registered stream of a camera. -/
def running (m : Manager) (id : String) : Option PipelineConfig :=
  (m.getStream id).map Instance.pipeline

/-! ## Registered settings -/

theorem getStream_eq_some
    {m : Manager}
    {id : String}
    {p : Nat}
    (present : m.streams[id]? = some p) :
    ∃ st, m.heap[p]? = some st ∧ m.getStream id = some st ∧ st.id = id := by
  obtain ⟨st, stored, named⟩ := m.valid id p present
  exact ⟨st, stored, by rw [getStream, present, Option.bind_some, stored], named⟩

theorem running_eq_none
    {m : Manager}
    {id : String}
    (absent : m.streams[id]? = none) :
    m.running id = none := by
  rw [running, getStream, absent]
  rfl

@[simp] theorem running_register_self
    (m : Manager)
    (id : String)
    (cfg : PipelineConfig) :
    (m.register id cfg).running id = some cfg := by
  simp [running, getStream, register, newStream]

theorem running_register_of_ne
    (m : Manager)
    {id other : String}
    (different : id ≠ other)
    (cfg : PipelineConfig) :
    (m.register id cfg).running other = m.running other := by
  have sameEntry : (m.register id cfg).streams[other]? = m.streams[other]? := by
    simp [register, Std.ExtTreeMap.getElem?_insert, different]
  cases entry : m.streams[other]? with
  | none =>
      rw [running_eq_none entry, running_eq_none (sameEntry.trans entry)]
  | some p =>
      obtain ⟨st, stored, _⟩ := m.valid other p entry
      have bound := (List.getElem?_eq_some_iff.mp stored).1
      simp only [running, getStream, sameEntry, entry, Option.bind_some]
      simp only [register, List.getElem?_append_left bound]

@[simp] theorem running_unregister_self (m : Manager) (id : String) :
    (m.unregister id).running id = none :=
  running_eq_none (by simp [unregister])

theorem running_unregister_of_ne
    (m : Manager)
    {id other : String}
    (different : id ≠ other) :
    (m.unregister id).running other = m.running other := by
  simp [running, getStream, unregister, Std.ExtTreeMap.getElem?_erase, different]

/-- A registered stream runs with the settings for which `runs` answers. -/
theorem running_of_runs
    {m : Manager}
    {id : String}
    {p : Nat}
    {cfg : PipelineConfig}
    (present : m.streams[id]? = some p)
    (matching : m.runs p cfg = true) :
    m.running id = some cfg := by
  obtain ⟨st, stored, found, _⟩ := getStream_eq_some present
  rw [runs, stored, Option.any_some, Instance.matchesPipelineConfig_iff]
    at matching
  rw [running, found, Option.map_some, matching]

/-- After an upsert the camera runs with the given settings, or not at all if
it is disabled; the other cameras are left alone. -/
theorem running_upsertStream
    (m : Manager)
    (id : String)
    (cfg : PipelineConfig)
    (disabled : Bool)
    (other : String) :
    (m.upsertStream id cfg disabled).1.running other =
      if id = other then (if disabled then none else some cfg)
      else m.running other := by
  unfold upsertStream
  split
  · by_cases same : id = other
    · subst same
      simp
    · simp [same, running_unregister_of_ne m same]
  · rename_i absent
    by_cases same : id = other
    · subst same
      simp [running_eq_none absent]
    · simp [same]
  · rename_i p present
    by_cases same : id = other
    · subst same
      cases matching : m.runs p cfg with
      | false => simp
      | true => simp [running_of_runs present matching]
    · cases m.runs p cfg <;> simp [same, running_register_of_ne m same]
  · by_cases same : id = other
    · subst same
      simp
    · simp [same, running_register_of_ne m same]

/-- After a removal the camera does not run; the others are left alone. -/
theorem running_removeStream
    (m : Manager)
    (id other : String) :
    (m.removeStream id).1.running other =
      if id = other then none else m.running other := by
  unfold removeStream
  split
  · rename_i absent
    by_cases same : id = other
    · subst same
      simp [running_eq_none absent]
    · simp [same]
  · rename_i p present
    obtain ⟨st, stored, _⟩ := m.valid id p present
    rw [stored]
    change (m.unregister id).running other = _
    by_cases same : id = other
    · subst same
      simp
    · simp [same, running_unregister_of_ne m same]

/-! ## Registered instances -/

/-- The instance is registered. -/
def registered (m : Manager) (p : Nat) : Bool :=
  m.heap[p]?.any fun st => m.streams[st.id]? == some p

theorem registered_iff {m : Manager} {p : Nat} :
    m.registered p = true ↔ ∃ id : String, m.streams[id]? = some p := by
  constructor
  · intro registered
    obtain ⟨st, _, present⟩ := (Option.any_eq_true _ _).mp registered
    exact ⟨st.id, beq_iff_eq.mp present⟩
  · rintro ⟨id, present⟩
    obtain ⟨st, stored, named⟩ := m.valid id p present
    simp [registered, stored, named, present]

theorem lt_length_of_registered
    {m : Manager}
    {p : Nat}
    (registered : m.registered p = true) :
    p < m.heap.length := by
  obtain ⟨id, present⟩ := registered_iff.mp registered
  obtain ⟨st, stored, _⟩ := m.valid id p present
  exact (List.getElem?_eq_some_iff.mp stored).1

/-- An instance is registered under one identifier. -/
theorem streams_injective
    {m : Manager}
    {id other : String}
    {p : Nat}
    (present : m.streams[id]? = some p)
    (again : m.streams[other]? = some p) :
    id = other := by
  obtain ⟨st, stored, named⟩ := m.valid id p present
  obtain ⟨same, storedAgain, namedAgain⟩ := m.valid other p again
  rw [stored, Option.some.injEq] at storedAgain
  rw [← named, ← namedAgain, storedAgain]

/-- The registry lists each instance once. -/
theorem nodup_registered (m : Manager) :
    (m.streams.toList.map Prod.snd).Nodup := by
  rw [List.Nodup, List.pairwise_map]
  refine List.Pairwise.imp_of_mem ?_ (Store.toList_keys_ne m.streams)
  intro first second memberFirst memberSecond different same
  rw [Std.ExtTreeMap.mem_toList_iff_getElem?_eq_some] at memberFirst memberSecond
  rw [same] at memberFirst
  exact different (streams_injective memberFirst memberSecond)

/-- Unregistering a stream leaves the others registered. -/
theorem registered_unregister
    {m : Manager}
    {id : String}
    {p : Nat}
    (present : m.streams[id]? = some p)
    (q : Nat) :
    (m.unregister id).registered q = (m.registered q && q != p) := by
  rw [Bool.eq_iff_iff, Bool.and_eq_true, bne_iff_ne, registered_iff, registered_iff]
  constructor
  · rintro ⟨other, found⟩
    rw [unregister, Std.ExtTreeMap.getElem?_erase] at found
    split at found
    · cases found
    · rename_i different
      refine ⟨⟨other, found⟩, ?_⟩
      rintro rfl
      rw [streams_injective present found] at different
      simp at different
  · rintro ⟨⟨other, found⟩, different⟩
    have apart : id ≠ other := by
      rintro rfl
      rw [present] at found
      exact different (Option.some.inj found).symm
    exact ⟨other, by simp [unregister, Std.ExtTreeMap.getElem?_erase, apart, found]⟩

/-! ## Replacement of instances -/

/-- Streams may have been created, replaced and unregistered: existing objects
are unchanged, and what is registered now was registered under the same
identifier before or is new. -/
structure Evolves (m next : Manager) : Prop where
  created : m.heap <+: next.heap
  registered : ∀ (id : String) (p : Nat), next.streams[id]? = some p →
    m.streams[id]? = some p ∨ m.heap.length ≤ p

namespace Evolves

theorem refl (m : Manager) : Evolves m m where
  created := List.prefix_refl _
  registered := fun _ _ present => .inl present

theorem trans
    {m middle next : Manager}
    (first : Evolves m middle)
    (second : Evolves middle next) :
    Evolves m next where
  created := first.created.trans second.created
  registered := by
    intro id p present
    have longer := first.created.length_le
    rcases second.registered id p present with before | new
    · exact first.registered id p before
    · exact .inr (longer.trans new)

theorem register (m : Manager) (id : String) (cfg : PipelineConfig) :
    Evolves m (m.register id cfg) where
  created := List.prefix_append _ _
  registered := by
    intro other p present
    simp only [Manager.register, Std.ExtTreeMap.getElem?_insert] at present
    split at present
    · exact .inr (Option.some.inj present).le
    · exact .inl present

theorem addStream
    {m next : Manager}
    {id : String}
    {cfg : PipelineConfig}
    (added : m.addStream id cfg = .ok next) :
    Evolves m next := by
  unfold Manager.addStream at added
  split at added
  · cases added
  · rw [← Except.ok.inj added]
    exact register m id cfg

theorem unregister (m : Manager) (id : String) :
    Evolves m (m.unregister id) where
  created := List.prefix_refl _
  registered := by
    intro other p present
    simp only [Manager.unregister, Std.ExtTreeMap.getElem?_erase] at present
    split at present
    · simp at present
    · exact .inl present

theorem retain (m : Manager) (active : String → Bool) :
    Evolves m (m.retain active) where
  created := List.prefix_refl _
  registered := by
    intro id p present
    simp only [Manager.retain, Std.ExtTreeMap.getElem?_filter'] at present
    exact .inl (Option.filter_eq_some_iff.mp present).1

theorem upsertStream
    (m : Manager)
    (id : String)
    (cfg : PipelineConfig)
    (disabled : Bool) :
    Evolves m (m.upsertStream id cfg disabled).1 := by
  unfold Manager.upsertStream
  split
  · exact unregister m id
  · exact refl m
  · split
    · exact register m id cfg
    · exact refl m
  · exact register m id cfg

theorem removeStream (m : Manager) (id : String) :
    Evolves m (m.removeStream id).1 := by
  unfold Manager.removeStream
  split
  · exact refl m
  · split
    · exact unregister m id
    · exact ⟨(unregister m id).created, (unregister m id).registered⟩

theorem syncCamera (state : Manager × List Nat) (cam : CameraConfig) :
    Evolves state.1 (Manager.syncCamera state cam).1 := by
  unfold Manager.syncCamera
  split
  · split
    · split
      · exact register state.1 cam.id _
      · exact refl state.1
    · exact register state.1 cam.id _
  · exact refl state.1

theorem foldl_syncCamera (cams : List CameraConfig) (state : Manager × List Nat) :
    Evolves state.1 (cams.foldl Manager.syncCamera state).1 := by
  induction cams generalizing state with
  | nil => exact refl state.1
  | cons cam rest inductionHypothesis =>
      exact (syncCamera state cam).trans (inductionHypothesis _)

theorem syncWithStorage (m : Manager) (cams : Option (List CameraConfig)) :
    Evolves m (m.syncWithStorage cams).1 := by
  cases cams with
  | none => exact refl m
  | some cams => exact (foldl_syncCamera cams (m, [])).trans (retain _ _)

end Evolves

/-! ## Cameras that are in order -/

/-- One camera of the loop leaves a stream registered that it matches. -/
theorem streams_syncCamera
    {id : String}
    {p : Nat}
    {state : Manager × List Nat}
    (present : state.1.streams[id]? = some p)
    {cam : CameraConfig}
    (matching : cam.disabled = false → cam.id = id →
      state.1.runs p (pipelineOf cam) = true) :
    (syncCamera state cam).1.streams[id]? = some p := by
  by_cases same : cam.id = id
  · cases enabled : cam.disabled with
    | true => simp [syncCamera, enabled, present]
    | false => simp [syncCamera, enabled, same, present, matching enabled same]
  · unfold syncCamera
    split
    · split
      · split
        · simp [register, Std.ExtTreeMap.getElem?_insert, same, present]
        · exact present
      · simp [register, Std.ExtTreeMap.getElem?_insert, same, present]
    · exact present

/-- The loop over the cameras leaves a stream registered that they match. -/
theorem streams_foldl_syncCamera
    {id : String}
    {p : Nat}
    (cams : List CameraConfig)
    {state : Manager × List Nat}
    (present : state.1.streams[id]? = some p)
    (matching : ∀ cam ∈ cams, cam.disabled = false → cam.id = id →
      state.1.runs p (pipelineOf cam) = true) :
    (cams.foldl syncCamera state).1.streams[id]? = some p := by
  induction cams generalizing state with
  | nil => exact present
  | cons cam rest inductionHypothesis =>
      have kept := streams_syncCamera present (matching cam List.mem_cons_self)
      refine inductionHypothesis kept fun other member enabled same => ?_
      have before := matching other (List.mem_cons_of_mem cam member) enabled same
      obtain ⟨st, stored, _⟩ := state.1.valid id p present
      have bound := (List.getElem?_eq_some_iff.mp stored).1
      obtain ⟨more, heap⟩ := (Evolves.syncCamera state cam).created
      rw [runs, ← heap, List.getElem?_append_left bound]
      exact before

end Manager
end Streaming
end RuseonCore
