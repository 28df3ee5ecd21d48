import RuseonCore.Hls.Loop
import RuseonCore.Hls.References
import RuseonCore.Hls.Window

/-!
# The loop among the other goroutines

Every step of the muxing loop is a run of steps on the shared state, so what
holds of the shared state under any interleaving of the goroutines holds along
the runs of the loop: index, playlists and window agree, and every reference to a
segment is counted.
-/

namespace RuseonCore
namespace Hls

open Buffer Rtsp Transition

/-- Only `Stop` stops the muxer. -/
theorem Serving.stopped_step
    {format : SecondsFormat}
    {serving next : Serving}
    {action : ServingStep}
    (others : action ≠ .stop)
    (taken : serving.step format action = some next) :
    next.stopped = serving.stopped := by
  cases action with
  | storeFrameTime now => rw [← Option.some.inj taken]
  | flagDiscontinuity => rw [← Option.some.inj taken]
  | publish duration content vttData =>
      obtain ⟨_, rfl⟩ := Serving.publish_cases taken
      rfl
  | checkWatchdog seen now => rw [← Option.some.inj taken]
  | acquireSegment name =>
      rcases Serving.acquireSegment_cases taken with rfl | ⟨_, _, rfl⟩ <;> rfl
  | release p =>
      obtain ⟨_, rfl⟩ := Serving.release_cases taken
      rfl
  | getPlaylist => rw [← Option.some.inj taken]
  | getSubsPlaylist => rw [← Option.some.inj taken]
  | stop => exact absurd rfl others

namespace Loop

def receiveSteps (l : Loop) (f : Frame) (now : Int64) : List ServingStep :=
  if f.isKeyFrame || decide (l.frameCount + 1 ≥ 25) then [.storeFrameTime now] else []

def refreshSteps (l : Loop) (f : Frame) : List ServingStep :=
  if (l.newParams f).isSome then [.flagDiscontinuity] else []

def closeSteps (l : Loop) (f : Frame) : List ServingStep :=
  match l.currentBuf with
  | some content =>
      if l.due f then
        [.publish (timestamp f - l.segmentStart) content
          (webVTT l.segmentStart l.currentMeta)]
      else []
  | none => []

/-- Steps on the shared state that make up a step of the loop. -/
def servingSteps (l : Loop) : LoopStep → List ServingStep
  | .frame f now =>
      l.receiveSteps f now ++ (l.receive f now).refreshSteps f ++
        ((l.receive f now).refresh f).closeSteps f
  | .serve action => [action]
  | _ => []

section Phases

variable (format : SecondsFormat) (l : Loop) (f : Frame)

theorem run_receiveSteps (now : Int64) :
    run (Serving.step format) l.serving (l.receiveSteps f now) =
      some (l.receive f now).serving := by
  unfold receiveSteps receive
  split <;> rfl

theorem run_refreshSteps :
    run (Serving.step format) l.serving (l.refreshSteps f) =
      some (l.refresh f).serving := by
  unfold refreshSteps refresh
  cases l.newParams f with
  | none => rfl
  | some found => rfl

theorem run_closeSteps (running : l.serving.stopped = false) :
    run (Serving.step format) l.serving (l.closeSteps f) =
      some (l.close format f).serving := by
  unfold closeSteps close
  cases l.currentBuf with
  | none => rfl
  | some content =>
      cases l.due f with
      | false => rfl
      | true => simp [Serving.step, running, withMuxer]

theorem stopped_refresh_receive (now : Int64) :
    ((l.receive f now).refresh f).serving.stopped = l.serving.stopped := by
  obtain ⟨frameCount, lastFrameTime, ready⟩ := l.refresh_receive f now
  rw [ready]
  rfl

/-- Handling a frame is a run of steps on the shared state. -/
theorem run_handle
    (now : Int64)
    (running : l.serving.stopped = false) :
    run (Serving.step format) l.serving (l.servingSteps (.frame f now)) =
      some (l.handle format f now).serving := by
  have unstopped := (l.stopped_refresh_receive f now).trans running
  rw [servingSteps, run_append, run_append, run_receiveSteps, Option.bind_some,
    run_refreshSteps, Option.bind_some, run_closeSteps format _ f unstopped, handle,
    serving_mux]

@[simp] theorem stopped_handle (now : Int64) :
    (l.handle format f now).serving.stopped = l.serving.stopped := by
  rw [handle, serving_mux, ← l.stopped_refresh_receive f now]
  unfold close
  split
  · split <;> rfl
  · rfl

end Phases

/-- The window is released after the end of the loop. -/
def StopsLast (l : Loop) : Prop :=
  l.ended = false → l.serving.stopped = false

/-- Every step of the loop is a run of steps on the shared state. -/
theorem run_servingSteps
    {format : SecondsFormat}
    {l next : Loop}
    {label : LoopStep}
    (ordered : l.StopsLast)
    (taken : l.step format label = some next) :
    run (Serving.step format) l.serving (l.servingSteps label) = some next.serving ∧
      next.StopsLast := by
  rcases idle_cases taken with ⟨f, now, rfl⟩ | ⟨action, rfl⟩ | ⟨idle, idles⟩
  · obtain ⟨running, rfl⟩ := frame_cases taken
    refine ⟨run_handle format l f now (ordered running), fun _ => ?_⟩
    exact (stopped_handle format l f now).trans (ordered running)
  · obtain ⟨_, last, serving, served, rfl⟩ := serve_cases taken
    refine ⟨by simp [servingSteps, served], fun running => ?_⟩
    have others : action ≠ .stop := by
      intro stops
      rw [last stops] at running
      cases running
    rw [Serving.stopped_step others served]
    exact ordered running
  · have none : l.servingSteps label = [] := by
      cases label <;> first | rfl | cases idle
    rw [none, StopsLast, idles.serving]
    exact ⟨rfl, fun running => ordered (idles.ended running)⟩

/-- The shared state after a run of the loop is reached by the steps of the
goroutines that share it. -/
theorem run_serving
    {format : SecondsFormat}
    {m : Muxer}
    {codecParams : Option CodecParams}
    {labels : List LoopStep}
    {finish : Loop}
    (reached : run (Loop.step format) (start m codecParams) labels = some finish) :
    ∃ actions,
      run (Serving.step format) (Serving.start m) actions = some finish.serving := by
  have preserved : ∀ (l : Loop) label next,
      (l.StopsLast ∧ ∃ actions,
        run (Serving.step format) (Serving.start m) actions = some l.serving) →
      l.step format label = some next →
      (next.StopsLast ∧ ∃ actions,
        run (Serving.step format) (Serving.start m) actions = some next.serving) := by
    rintro l label next ⟨ordered, actions, before⟩ taken
    obtain ⟨steps, after⟩ := run_servingSteps ordered taken
    refine ⟨after, actions ++ l.servingSteps label, ?_⟩
    rw [run_append, before, Option.bind_some, steps]
  exact (run_invariant preserved ⟨fun _ => rfl, [], rfl⟩ reached).2

end Loop
end Hls
end RuseonCore
