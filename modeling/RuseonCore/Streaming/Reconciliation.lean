import RuseonCore.Streaming.Lifecycle

/-!
# Reconciliation with the store

`SyncWithStorage` brings an arbitrary registry in line with an arbitrary camera
list.  The first loop creates and replaces streams, camera by camera; the
second removes those that have no enabled camera.  With distinct identifiers in
the list each camera is decided by its own iteration, and the result is a fixed
point of the whole procedure.
-/

namespace RuseonCore
namespace Streaming

open Storage

namespace Manager

/-- Some enabled camera of the list has the identifier. -/
def Wanted (cams : List CameraConfig) (id : String) : Prop :=
  ∃ cam ∈ cams, cam.disabled = false ∧ cam.id = id

/-- An identifier is registered exactly if it has a running stream. -/
theorem mem_streams_iff_running {m : Manager} {id : String} :
    id ∈ m.streams ↔ ∃ cfg, m.running id = some cfg := by
  rw [Std.ExtTreeMap.mem_iff_isSome_getElem?, Option.isSome_iff_exists]
  constructor
  · rintro ⟨p, present⟩
    obtain ⟨st, _, found, _⟩ := getStream_eq_some present
    exact ⟨st.pipeline, by rw [running, found, Option.map_some]⟩
  · rintro ⟨cfg, runs⟩
    cases present : m.streams[id]? with
    | none =>
        rw [running_eq_none present] at runs
        cases runs
    | some p => exact ⟨p, rfl⟩

/-- A registered stream is found to run with its settings. -/
theorem runs_of_running
    {m : Manager}
    {id : String}
    {p : Nat}
    {cfg : PipelineConfig}
    (present : m.streams[id]? = some p)
    (running : m.running id = some cfg) :
    m.runs p cfg = true := by
  obtain ⟨st, stored, found, _⟩ := getStream_eq_some present
  rw [Manager.running, found, Option.map_some, Option.some.injEq] at running
  rw [runs, stored, Option.any_some, Instance.matchesPipelineConfig_iff]
  exact running

/-- An iteration of the first loop settles its own camera. -/
theorem running_syncCamera_self
    (state : Manager × List Nat)
    {cam : CameraConfig}
    (enabled : cam.disabled = false) :
    (syncCamera state cam).1.running cam.id = some (pipelineOf cam) := by
  simp only [syncCamera, enabled, Bool.not_false, if_true]
  cases present : state.1.streams[cam.id]? with
  | none => simp
  | some p =>
      cases matching : state.1.runs p (pipelineOf cam) with
      | false => simp [matching]
      | true => simp [matching, running_of_runs present matching]

/-- An iteration of the first loop leaves the other cameras alone. -/
theorem running_syncCamera_of_ne
    (state : Manager × List Nat)
    {cam : CameraConfig}
    {id : String}
    (other : cam.disabled = false → cam.id ≠ id) :
    (syncCamera state cam).1.running id = state.1.running id := by
  unfold syncCamera
  split
  · rename_i enabled
    have different := other (by simpa using enabled)
    split
    · split
      · exact running_register_of_ne state.1 different _
      · rfl
    · exact running_register_of_ne state.1 different _
  · rfl

/-- The first loop does not touch an identifier that no enabled camera has. -/
theorem running_foldl_syncCamera_of_not_wanted
    {id : String}
    {cams : List CameraConfig}
    (unwanted : ¬ Wanted cams id)
    (state : Manager × List Nat) :
    (cams.foldl syncCamera state).1.running id = state.1.running id := by
  induction cams generalizing state with
  | nil => rfl
  | cons cam cams inductionHypothesis =>
      have later : ¬ Wanted cams id := fun ⟨wanted, member, rest⟩ =>
        unwanted ⟨wanted, List.mem_cons_of_mem cam member, rest⟩
      have other : cam.disabled = false → cam.id ≠ id := fun enabled same =>
        unwanted ⟨cam, List.mem_cons_self, enabled, same⟩
      rw [List.foldl_cons, inductionHypothesis later,
        running_syncCamera_of_ne state other]

/-- After the first loop every enabled camera runs with its own settings. -/
theorem running_foldl_syncCamera
    {cams : List CameraConfig}
    (distinct : (cams.map CameraConfig.id).Nodup)
    {cam : CameraConfig}
    (member : cam ∈ cams)
    (enabled : cam.disabled = false)
    (state : Manager × List Nat) :
    (cams.foldl syncCamera state).1.running cam.id = some (pipelineOf cam) := by
  induction cams generalizing state with
  | nil => cases member
  | cons first cams inductionHypothesis =>
      rw [List.map_cons, List.nodup_cons] at distinct
      rw [List.foldl_cons]
      rcases List.mem_cons.mp member with rfl | later
      · have unwanted : ¬ Wanted cams cam.id := fun ⟨same, again, _, named⟩ =>
          distinct.1 (List.mem_map.mpr ⟨same, again, named⟩)
        rw [running_foldl_syncCamera_of_not_wanted unwanted]
        exact running_syncCamera_self state enabled
      · exact inductionHypothesis distinct.2 later _

/-- The identifiers that the second loop keeps. -/
theorem contains_active_iff (cams : List CameraConfig) (id : String) :
    ((cams.filter fun cam => !cam.disabled).map CameraConfig.id).contains id = true ↔
      Wanted cams id := by
  rw [List.contains_iff_mem, List.mem_map]
  constructor
  · rintro ⟨cam, member, named⟩
    rw [List.mem_filter] at member
    exact ⟨cam, member.1, by simpa using member.2, named⟩
  · rintro ⟨cam, member, enabled, named⟩
    exact ⟨cam, List.mem_filter.mpr ⟨member, by simp [enabled]⟩, named⟩

/-- The second loop keeps the streams of the wanted identifiers. -/
theorem running_retain
    (m : Manager)
    (active : String → Bool)
    (id : String) :
    (m.retain active).running id = if active id then m.running id else none := by
  simp only [running, getStream, retain, Std.ExtTreeMap.getElem?_filter']
  cases present : m.streams[id]? with
  | none => simp
  | some p => cases active id <;> simp [Option.filter_some]

/-- Running streams after `SyncWithStorage`. -/
theorem running_syncWithStorage
    (m : Manager)
    {cams : List CameraConfig}
    (distinct : (cams.map CameraConfig.id).Nodup)
    {cam : CameraConfig}
    (member : cam ∈ cams)
    (enabled : cam.disabled = false) :
    (m.syncWithStorage (some cams)).1.running cam.id = some (pipelineOf cam) := by
  have active := (contains_active_iff cams cam.id).mpr ⟨cam, member, enabled, rfl⟩
  have synced := running_foldl_syncCamera distinct member enabled (m, [])
  rw [syncWithStorage]
  simp only [running_retain, active, if_true]
  exact synced

/-- Only wanted identifiers stay registered. -/
theorem wanted_of_mem_streams
    {m : Manager}
    {cams : List CameraConfig}
    {id : String}
    (present : id ∈ (m.syncWithStorage (some cams)).1.streams) :
    Wanted cams id := by
  obtain ⟨cfg, runs⟩ := mem_streams_iff_running.mp present
  rw [syncWithStorage] at runs
  simp only [running_retain, Option.ite_none_right_eq_some] at runs
  exact (contains_active_iff cams id).mp runs.1

/-- Retaining what is registered changes nothing. -/
theorem retain_eq_self
    {m : Manager}
    {active : String → Bool}
    (all : ∀ id ∈ m.streams, active id = true) :
    m.retain active = m := by
  have same : m.streams.filter (fun id _ => active id) = m.streams := by
    refine Std.ExtTreeMap.ext_getElem? fun id => ?_
    rw [Std.ExtTreeMap.getElem?_filter']
    cases present : m.streams[id]? with
    | none => rfl
    | some p =>
        have member : id ∈ m.streams := by
          rw [Std.ExtTreeMap.mem_iff_isSome_getElem?, present]
          rfl
        simp [all id member]
  cases m
  simp only [retain, Manager.mk.injEq, true_and, and_true] at same ⊢
  exact same

/-- The first loop changes nothing when every enabled camera runs as it
should. -/
theorem foldl_syncCamera_eq_self
    {m : Manager}
    {cams : List CameraConfig}
    (settled : ∀ cam ∈ cams, cam.disabled = false →
      m.running cam.id = some (pipelineOf cam))
    (toStop : List Nat) :
    cams.foldl syncCamera (m, toStop) = (m, toStop) := by
  induction cams with
  | nil => rfl
  | cons cam cams inductionHypothesis =>
      have first : syncCamera (m, toStop) cam = (m, toStop) := by
        cases enabled : cam.disabled with
        | true => simp [syncCamera, enabled]
        | false =>
            have running := settled cam List.mem_cons_self enabled
            obtain ⟨p, present⟩ := Option.isSome_iff_exists.mp
              (Std.ExtTreeMap.mem_iff_isSome_getElem?.mp
                (mem_streams_iff_running.mpr ⟨_, running⟩))
            simp [syncCamera, enabled, present, runs_of_running present running]
      rw [List.foldl_cons, first]
      exact inductionHypothesis fun other member =>
        settled other (List.mem_cons_of_mem cam member)

/-- A registry in line with the list is left as it is. -/
theorem syncWithStorage_eq_self
    {m : Manager}
    {cams : List CameraConfig}
    (settled : ∀ cam ∈ cams, cam.disabled = false →
      m.running cam.id = some (pipelineOf cam))
    (wanted : ∀ id ∈ m.streams, Wanted cams id) :
    m.syncWithStorage (some cams) = (m, []) := by
  have active : ∀ id ∈ m.streams,
      ((cams.filter fun cam => !cam.disabled).map CameraConfig.id).contains id =
        true :=
    fun id member => (contains_active_iff cams id).mpr (wanted id member)
  have nothing : (m.streams.toList.filter fun entry =>
      !((cams.filter fun cam => !cam.disabled).map
        CameraConfig.id).contains entry.1) = [] := by
    rw [List.filter_eq_nil_iff]
    rintro ⟨id, p⟩ member
    rw [Std.ExtTreeMap.mem_toList_iff_getElem?_eq_some] at member
    have registered : id ∈ m.streams := by
      rw [Std.ExtTreeMap.mem_iff_isSome_getElem?, member]
      rfl
    rw [active id registered]
    simp
  simp only [syncWithStorage, foldl_syncCamera_eq_self settled, nothing,
    retain_eq_self active, List.map_nil, List.append_nil]

/-- A stream that already matches its camera is kept: same object, not among
those to stop. -/
theorem syncWithStorage_keeps
    {m : Manager}
    {cams : List CameraConfig}
    (distinct : (cams.map CameraConfig.id).Nodup)
    {cam : CameraConfig}
    (member : cam ∈ cams)
    (enabled : cam.disabled = false)
    {p : Nat}
    (present : m.streams[cam.id]? = some p)
    (running : m.running cam.id = some (pipelineOf cam)) :
    (m.syncWithStorage (some cams)).1.streams[cam.id]? = some p ∧
      (m.syncWithStorage (some cams)).1.heap[p]? = m.heap[p]? ∧
      p ∉ (m.syncWithStorage (some cams)).2 := by
  have matching : ∀ other ∈ cams, other.disabled = false → other.id = cam.id →
      m.runs p (pipelineOf other) = true := by
    intro other again _ named
    rw [List.inj_on_of_nodup_map distinct again member named]
    exact runs_of_running present running
  have synced : (cams.foldl syncCamera (m, [])).1.streams[cam.id]? = some p :=
    streams_foldl_syncCamera cams present matching
  have active := (contains_active_iff cams cam.id).mpr ⟨cam, member, enabled, rfl⟩
  have kept : (m.syncWithStorage (some cams)).1.streams[cam.id]? = some p := by
    simp only [syncWithStorage, retain, Std.ExtTreeMap.getElem?_filter', synced,
      Option.filter_some, active, if_true]
  have before := registered_iff.mpr ⟨cam.id, present⟩
  have after := registered_iff.mpr ⟨cam.id, kept⟩
  have bound := lt_length_of_registered before
  refine ⟨kept, ?_, ?_⟩
  · obtain ⟨more, heap⟩ := (Evolves.syncWithStorage m (some cams)).created
    rw [← heap, List.getElem?_append_left bound]
  · have balance := (Retires.syncWithStorage m (some cams)).balance p
    have old : ¬ (m.heap.length ≤ p ∧
        p < (m.syncWithStorage (some cams)).1.heap.length) := by omega
    rw [live, live, before, after, if_neg old] at balance
    refine List.count_eq_zero.mp ?_
    simpa using balance

/-- From any registry, `SyncWithStorage` with a list of cameras of distinct
identifiers leaves streams for exactly the enabled cameras, each running with
the settings of its camera.  A stream that did so before is the same object and
is not stopped, a second call with the same list changes and stops nothing, and
nothing happens when the list cannot be read. -/
theorem syncWithStorage_reconciles
    (m : Manager)
    (cams : List CameraConfig)
    (distinct : (cams.map CameraConfig.id).Nodup) :
    let next := (m.syncWithStorage (some cams)).1
    (∀ id : String, id ∈ next.streams ↔
      ∃ cam ∈ cams, cam.disabled = false ∧ cam.id = id) ∧
    (∀ cam ∈ cams, cam.disabled = false →
      next.running cam.id = some (pipelineOf cam)) ∧
    (∀ cam ∈ cams, cam.disabled = false →
      ∀ p, m.streams[cam.id]? = some p →
        m.running cam.id = some (pipelineOf cam) →
        next.streams[cam.id]? = some p ∧ next.heap[p]? = m.heap[p]? ∧
          p ∉ (m.syncWithStorage (some cams)).2) ∧
    next.syncWithStorage (some cams) = (next, []) ∧
    m.syncWithStorage none = (m, []) := by
  intro next
  have settled : ∀ cam ∈ cams, cam.disabled = false →
      next.running cam.id = some (pipelineOf cam) :=
    fun cam member enabled => running_syncWithStorage m distinct member enabled
  have wanted : ∀ id ∈ next.streams, Wanted cams id :=
    fun id present => wanted_of_mem_streams present
  refine ⟨fun id => ⟨wanted id, ?_⟩, settled, ?_, ?_, rfl⟩
  · rintro ⟨cam, member, enabled, rfl⟩
    exact mem_streams_iff_running.mpr ⟨_, settled cam member enabled⟩
  · intro cam member enabled p present running
    exact syncWithStorage_keeps distinct member enabled present running
  · exact syncWithStorage_eq_self settled wanted

/-- A disabled camera, one whose stream runs as it should, and a new one. -/
def oneKept : List CameraConfig :=
  [{ id := "a", url := "rtsp://a", disabled := true },
    { id := "b", url := "rtsp://b" }, { id := "c", url := "rtsp://c" }]

theorem syncWithStorage_reconciles_kept :
    let m := (empty.register "a" (pipelineOf { id := "a" })).register "b"
      (pipelineOf { id := "b", url := "rtsp://b" })
    let next := (m.syncWithStorage (some oneKept)).1
    "a" ∉ next.streams ∧ next.streams["b"]? = some 1 ∧
      next.syncWithStorage (some oneKept) = (next, []) := by
  intro m next
  have before : m.streams["b"]? = some 1 := by decide
  have running : m.running "b" =
      some (pipelineOf { id := "b", url := "rtsp://b" }) := by
    decide
  obtain ⟨registered, _, kept, again, _⟩ :=
    syncWithStorage_reconciles m oneKept (by decide)
  refine ⟨?_, ?_, again⟩
  · rw [registered]
    decide
  · exact (kept { id := "b", url := "rtsp://b" } (by decide) rfl 1 before
      running).1

end Manager
end Streaming
end RuseonCore
