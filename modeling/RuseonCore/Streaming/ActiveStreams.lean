import RuseonCore.Streaming.Ingest

/-!
# The gauge of active streams

The gauge `ActiveStreams` has one value for each camera, and all streams of the
camera share it: a stream that replaces another one is created before the other
is stopped, and both raise and lower the gauge until the older one has ended.
Deleting a camera deletes its value (`DeleteCameraMetrics`), whatever streams of
that camera are doing; a later change starts again from zero.
-/

namespace RuseonCore
namespace Streaming

open Transition

/-- All streams ever created, and the gauge `ActiveStreams` by camera. -/
structure Ingests where
  activeStreams : String → Int
  streams : List Ingest

/-- A new stream, a step of a stream, or the deletion of a camera's metrics. -/
inductive IngestsStep
  | newStream (id url : String)
  | ofStream (i : Nat) (label : IngestStep)
  | deleteCameraMetrics (id : String)

namespace Ingests

/-- Nothing has happened yet. -/
def start : Ingests where
  activeStreams := fun _ => 0
  streams := []

/-- Effect of one step. -/
def step (all : Ingests) : IngestsStep → Option Ingests
  | .newStream id url => some { all with streams := all.streams ++ [Ingest.new id url] }
  | .ofStream i label => do
      let s ← all.streams[i]?
      let (next, change, _) ← s.step label
      some
        { activeStreams :=
            Function.update all.activeStreams s.id (all.activeStreams s.id + change)
          streams := all.streams.set i next }
  | .deleteCameraMetrics id =>
      some { all with activeStreams := Function.update all.activeStreams id 0 }

/-- What a stream contributes to the gauge of a camera. -/
def share (id : String) (s : Ingest) : Int := if s.id = id then s.counted else 0

/-- What all streams contribute to the gauge of a camera. -/
def shares (all : Ingests) (id : String) : Int := Census.total (share id) all.streams

/-- The gauges are what the streams contribute. -/
def Exact (all : Ingests) : Prop := ∀ id, all.activeStreams id = all.shares id

/-- Metrics of a camera are deleted while none of its streams is counted. -/
def Spared (all : Ingests) : IngestsStep → Prop
  | .deleteCameraMetrics id => all.shares id = 0
  | .newStream _ _ | .ofStream _ _ => True

instance (all : Ingests) : (label : IngestsStep) → Decidable (all.Spared label)
  | .deleteCameraMetrics id => inferInstanceAs (Decidable (all.shares id = 0))
  | .newStream _ _ | .ofStream _ _ => isTrue trivial

/-- Every stream is in order. -/
def Ordered (all : Ingests) : Prop := ∀ s ∈ all.streams, s.Invariant

section Steps

variable {all next : Ingests} {label : IngestsStep}

theorem ordered_step (ordered : all.Ordered) (taken : all.step label = some next) :
    next.Ordered := by
  cases label with
  | newStream id url =>
      rw [← Option.some.inj taken]
      intro s member
      rcases List.mem_append.mp member with old | new
      · exact ordered s old
      · rw [List.mem_singleton.mp new]
        exact Ingest.invariant_new id url
  | ofStream i label =>
      simp only [step, Option.bind_eq_bind, Option.bind_eq_some_iff, Option.some.injEq] at taken
      obtain ⟨s, found, ⟨after, change, signals⟩, stepped, rfl⟩ := taken
      intro other member
      rcases List.mem_or_eq_of_mem_set member with old | rfl
      · exact ordered other old
      · exact ((ordered s (List.mem_of_getElem? found)).step (Ingest.effect_of_step stepped)).1
  | deleteCameraMetrics id =>
      rw [← Option.some.inj taken]
      exact ordered

/-- A stream that has just been created is not counted. -/
theorem share_new (camera id url : String) : share camera (Ingest.new id url) = 0 := by
  unfold share Ingest.counted Ingest.departing Ingest.new
  cases isSynthetic url <;> simp [Ingest.online, Ingest.arriving]

/-- A step leaves the gauges exact unless it deletes one that counts. -/
theorem exact_step
    (ordered : all.Ordered)
    (exactly : all.Exact)
    (taken : all.step label = some next) :
    next.Exact ↔ all.Spared label := by
  cases label with
  | newStream id url =>
      rw [← Option.some.inj taken]
      refine iff_of_true (fun camera => ?_) trivial
      rw [shares, Census.total_append, Census.total_cons, share_new]
      simpa [shares] using exactly camera
  | ofStream i label =>
      simp only [step, Option.bind_eq_bind, Option.bind_eq_some_iff, Option.some.injEq] at taken
      obtain ⟨s, found, ⟨after, change, signals⟩, stepped, rfl⟩ := taken
      have effect := Ingest.effect_of_step stepped
      have balance := ((ordered s (List.mem_of_getElem? found)).step effect).2
      have named := effect.id_eq
      refine iff_of_true (fun camera => ?_) trivial
      rw [shares, Census.total_set _ found, ← shares, ← exactly]
      by_cases same : s.id = camera
      · subst same
        simp only [share, named, Function.update_self, if_true]
        omega
      · simp [share, named, same, Function.update_of_ne (Ne.symm same)]
  | deleteCameraMetrics id =>
      rw [← Option.some.inj taken]
      constructor
      · intro after
        have here : Function.update all.activeStreams id 0 id = all.shares id := after id
        rw [Function.update_self] at here
        exact here.symm
      · intro spared camera
        by_cases same : camera = id
        · subst same
          exact (Function.update_self ..).trans spared.symm
        · exact (Function.update_of_ne same ..).trans (exactly camera)

end Steps

/-- What the gauge of a camera tells about its streams. -/
structure Gauges (all : Ingests) (id : String) : Prop where
  nonneg : 0 ≤ all.activeStreams id
  settled : (∀ s ∈ all.streams, s.id = id → s.arriving = 0 ∧ s.departing = 0) →
    all.activeStreams id = all.streams.countP fun s => s.id = id ∧ s.state = .online
  exited : (∀ s ∈ all.streams, s.id = id → s.phase = .exited) → all.activeStreams id = 0

section Shares

variable {all : Ingests} {id : String}

theorem shares_nonneg (ordered : all.Ordered) : 0 ≤ all.shares id := by
  refine List.sum_nonneg fun value listed => ?_
  obtain ⟨s, member, rfl⟩ := List.mem_map.mp listed
  unfold share
  split
  · exact Ingest.counted_nonneg (ordered s member)
  · exact le_rfl

theorem shares_settled
    (settled : ∀ s ∈ all.streams, s.id = id → s.arriving = 0 ∧ s.departing = 0) :
    all.shares id = all.streams.countP fun s => s.id = id ∧ s.state = .online := by
  refine Census.total_eq_countP fun s member => ?_
  by_cases same : s.id = id
  · obtain ⟨arriving, departing⟩ := settled s member same
    simp [share, Ingest.counted, arriving, departing, same, Ingest.online]
  · simp [share, same]

/-- Streams that have ended without a panic are not counted. -/
theorem shares_exited
    (ordered : all.Ordered)
    (exited : ∀ s ∈ all.streams, s.id = id → s.phase = .exited) :
    all.shares id = 0 := by
  refine Census.total_eq_zero fun s member => ?_
  unfold share
  split
  · rename_i same
    have phase := exited s member same
    have invariant := ordered s member
    have stage := invariant.stage
    have quiet := Ingest.quiet_of_returned (invariant.done (by simp [phase]))
    simp only [Ingest.Stage, phase] at stage
    simp [Ingest.counted, quiet.2, Ingest.online, stage, Ingest.departing, phase]
  · rfl

end Shares

/-- In every run the gauges are exact all the time if and only if no deletion
hits a camera while a stream of it is counted; then they are never negative,
count the streams that are online whenever no stream is between its swap of the
state and its change of the gauge, and are zero once the streams of a camera
have ended. -/
theorem activeStreams_exact
    {labels : List IngestsStep}
    {all : Ingests}
    (reached : run step start labels = some all) :
    (Always step Exact start labels ↔ Meets step Spared start labels) ∧
      (Meets step Spared start labels → ∀ id, all.Gauges id) := by
  have ordered : start.Ordered := by simp [Ordered, start]
  have exactly : start.Exact := fun _ => rfl
  refine ⟨always_iff_meets (fun _ _ _ => ordered_step) (fun _ _ _ => exact_step) ordered exactly
    reached, fun spared id => ?_⟩
  have preserved : ∀ (all : Ingests) label next, all.Ordered ∧ all.Exact → all.Spared label →
      all.step label = some next → next.Ordered ∧ next.Exact := fun _ _ _ both met taken =>
    ⟨ordered_step both.1 taken, (exact_step both.1 both.2 taken).mpr met⟩
  obtain ⟨nowOrdered, nowExact⟩ := spared.invariant preserved ⟨ordered, exactly⟩ reached
  exact
    { nonneg := nowExact id ▸ shares_nonneg nowOrdered
      settled := fun settled => (nowExact id).trans (shares_settled settled)
      exited := fun exited => (nowExact id).trans (shares_exited nowOrdered exited) }

/-- A stream is replaced by another one of its camera while it is online, and
the metrics are deleted when both have ended. -/
theorem activeStreams_exact_replaced :
    let frame : Buffer.Frame := ⟨0, true, [[0x65]]⟩
    let connects (i : Nat) : List IngestsStep :=
      (.check :: .frame frame :: List.replicate 9 (.callback 0)).map (IngestsStep.ofStream i)
    let ends (i : Nat) : List IngestsStep :=
      [.cancel, .ended none, .proceed 7, .proceed 7, .proceed 7, .proceed 7, .proceed 7].map
        (.ofStream i)
    let labels := [.newStream "door" "rtsp://a"] ++ connects 0 ++ [.newStream "door" "rtsp://b"] ++
      connects 1
    let later := labels ++ ends 0 ++ ends 1 ++ [.deleteCameraMetrics "door"]
    (run step start labels).map (·.activeStreams "door") = some 2 ∧
      ∃ all, run step start later = some all ∧ all.Gauges "door" := by
  intro frame connects ends labels later
  have enabled : (run step start later).isSome := by decide
  have reached := (Option.some_get enabled).symm
  exact ⟨by decide, _, reached, (activeStreams_exact reached).2 (by decide) "door"⟩

end Ingests
end Streaming
end RuseonCore
