import RuseonCore.Foundation.Transition
import RuseonCore.Hls.Cues

/-!
# Keyframes of WebRTC viewers

Model of `pumpFrames` of `internal/webrtc/muxer.go`.  A viewer's goroutine reads
the codec parameters when it starts and again only while one of them is missing,
whereas the gRPC stream reads them for every frame.  For H.264 streams the two
payloads of a keyframe agree as long as the parameters do not change once the
viewer holds both sets.
-/

namespace RuseonCore
namespace Webrtc

open Buffer Rtsp Grpc Transition

/-! ## The pump -/

def defaultFrameDuration : Int64 := 40000000

def minFrameDuration : Int64 := 1000000

def maxFrameDuration : Int64 := 1000000000

/-- Duration of a frame from the distance to the last one, with the new last
timestamp and the flag that there is one. -/
def calculateFrameDuration (currentPTS lastPTS : Int64) (hasLastPTS : Bool) :
    Int64 × Int64 × Bool :=
  if !hasLastPTS then (defaultFrameDuration, currentPTS, true)
  else
    let delta := currentPTS - lastPTS
    if delta ≤ 0 || delta > maxFrameDuration then (defaultFrameDuration, currentPTS, true)
    else if delta < minFrameDuration then (minFrameDuration, currentPTS, true)
    else (delta, currentPTS, true)

/-- Variables of `pumpFrames`. -/
structure Pump where
  sps : Option (List UInt8)
  pps : Option (List UInt8)
  lastPTS : Int64
  hasLastPTS : Bool
  deriving DecidableEq

/-- A sample written to the track. -/
structure Sample where
  data : List UInt8
  duration : Int64
  deriving DecidableEq

/-- A viewer starts with the parameters that are set then. -/
def newPump (params : Option CodecParams) : Pump where
  sps := params.bind CodecParams.sps
  pps := params.bind CodecParams.pps
  lastPTS := 0
  hasLastPTS := false

/-- Parameters are read again while a set is missing. -/
def Pump.refresh (pump : Pump) (params : Option CodecParams) : Pump :=
  if pump.sps.isNone || pump.pps.isNone then
    match params with
    | some found => { pump with sps := found.sps, pps := found.pps }
    | none => pump
  else pump

/-- Append a parameter set that is not nil. -/
def appendSet (annexB : List UInt8) (set : Option (List UInt8)) : List UInt8 :=
  match set with
  | some bytes => appendNalu annexB bytes
  | none => annexB

/-- Iteration of `pumpFrames` for a frame. -/
def Pump.pumpFrame (pump : Pump) (params : Option CodecParams) (f : Frame) : Pump × Sample :=
  let (duration, lastPTS, hasLastPTS) :=
    calculateFrameDuration (timestamp f) pump.lastPTS pump.hasLastPTS
  let pump := if f.isKeyFrame then pump.refresh params else pump
  let annexB := if f.isKeyFrame then appendSet (appendSet [] pump.sps) pump.pps else []
  ({ pump with lastPTS := lastPTS, hasLastPTS := hasLastPTS },
    ⟨f.nalus.foldl appendNalu annexB, duration⟩)

/-! ## A stream with one viewer -/

/-- Parameters of an H.264 stream: no VPS, and SPS and PPS are not empty once they
are set. -/
structure H264Params where
  sps : Option (List UInt8)
  pps : Option (List UInt8)
  spsNonempty : sps ≠ some []
  ppsNonempty : pps ≠ some []

/-- The parameters as the ring buffer keeps them. -/
def H264Params.codecParams (params : H264Params) : CodecParams where
  vps := none
  sps := params.sps
  pps := params.pps

/-- Parameters in force and the variables of the viewer. -/
structure Viewer where
  params : Option H264Params
  pump : Pump

/-- A viewer that connects to a stream. -/
def connect (params : Option H264Params) : Viewer where
  params := params
  pump := newPump (params.map H264Params.codecParams)

/-- A parameter change, or a frame that is consumed before the next event. -/
inductive Event where
  | setParams (params : H264Params)
  | frame (f : Frame)

/-- Sample that the viewer's pump writes for a frame. -/
def Viewer.sample (viewer : Viewer) (f : Frame) : Sample :=
  (viewer.pump.pumpFrame (viewer.params.map H264Params.codecParams) f).2

/-- Message that a gRPC stream sends for the same frame. -/
def Viewer.response (viewer : Viewer) (f : Frame) : FrameResponse :=
  frameResponse (viewer.params.map H264Params.codecParams) f

def step (viewer : Viewer) : Event → Option Viewer
  | .setParams params => some { viewer with params := some params }
  | .frame f =>
      some { viewer with
        pump := (viewer.pump.pumpFrame (viewer.params.map H264Params.codecParams) f).1 }

/-- NAL units in Annex B form. -/
def payloadOf (nalus : List (List UInt8)) : List UInt8 :=
  nalus.foldl appendNalu []

/-- Both payloads of a keyframe are equal. -/
def SamePayload (viewer : Viewer) : Event → Prop
  | .setParams _ => True
  | .frame f => f.isKeyFrame = true → (viewer.sample f).data = (viewer.response f).payload

instance (viewer : Viewer) : (event : Event) → Decidable (SamePayload viewer event)
  | .setParams _ => inferInstanceAs (Decidable True)
  | .frame _ => inferInstanceAs (Decidable (_ → _))

/-- The parameters in force do not change while the viewer holds both sets. -/
def Settled (viewer : Viewer) : Event → Prop
  | .setParams params =>
      (viewer.pump.sps.isSome && viewer.pump.pps.isSome) = true →
        viewer.params.map H264Params.codecParams = some params.codecParams
  | .frame _ => True

instance (viewer : Viewer) : (event : Event) → Decidable (Settled viewer event)
  | .setParams _ => inferInstanceAs (Decidable (_ → _))
  | .frame _ => inferInstanceAs (Decidable True)

/-! ## Payloads of a keyframe -/

theorem foldl_appendNalu (payload : List UInt8) (nalus : List (List UInt8)) :
    nalus.foldl appendNalu payload = payload ++ payloadOf nalus := by
  unfold payloadOf
  induction nalus generalizing payload with
  | nil => simp
  | cons nalu nalus inductionHypothesis =>
      rw [List.foldl_cons, List.foldl_cons, inductionHypothesis,
        inductionHypothesis (appendNalu [] nalu)]
      simp [appendNalu]

theorem appendSet_eq (annexB : List UInt8) (set : Option (List UInt8)) :
    appendSet annexB set = set.toList.foldl appendNalu annexB := by
  cases set <;> rfl

/-- A set that is not empty is treated alike by both packagers. -/
theorem appendParam_eq
    (payload : List UInt8)
    {set : Option (List UInt8)}
    (nonempty : set ≠ some []) :
    appendParam payload set = set.toList.foldl appendNalu payload := by
  match set with
  | none => rfl
  | some [] => exact absurd rfl nonempty
  | some (_ :: _) => rfl

/-- Parameter sets that the ring buffer has. -/
def setsOf : Option CodecParams → List (List UInt8)
  | some params => params.sps.toList ++ params.pps.toList
  | none => []

/-- Parameter sets that the pump holds. -/
def Pump.sets (pump : Pump) : List (List UInt8) :=
  pump.sps.toList ++ pump.pps.toList

/-- gRPC prepends the sets in force. -/
theorem response_payload
    (viewer : Viewer)
    {f : Frame}
    (key : f.isKeyFrame = true) :
    (viewer.response f).payload =
      payloadOf (setsOf (viewer.params.map H264Params.codecParams)) ++
        payloadOf f.nalus := by
  rw [← foldl_appendNalu]
  cases found : viewer.params with
  | none =>
      simp only [Viewer.response, setsOf, found, Option.map_none, frameResponse]
      rfl
  | some params =>
      have sets : appendParam (appendParam (appendParam [] none) params.sps) params.pps =
          payloadOf (params.sps.toList ++ params.pps.toList) := by
        rw [appendParam_eq _ params.ppsNonempty, appendParam_eq _ params.spsNonempty,
          payloadOf, List.foldl_append]
        rfl
      simp only [Viewer.response, setsOf, found, Option.map_some, frameResponse, key,
        if_true, H264Params.codecParams, sets]

/-- WebRTC prepends the sets that the pump holds once it has looked for missing
ones. -/
theorem sample_data
    (viewer : Viewer)
    {f : Frame}
    (key : f.isKeyFrame = true) :
    (viewer.sample f).data =
      payloadOf (viewer.pump.refresh (viewer.params.map H264Params.codecParams)).sets ++
        payloadOf f.nalus := by
  have sets : ∀ pump : Pump, appendSet (appendSet [] pump.sps) pump.pps =
      payloadOf pump.sets := by
    intro pump
    rw [appendSet_eq, appendSet_eq, payloadOf, Pump.sets, List.foldl_append]
  rw [← foldl_appendNalu, ← sets]
  simp only [Viewer.sample, Pump.pumpFrame, key, if_true]

/-! ## Runs -/

/-- The viewer is about to prepend the sets in force. -/
def Viewer.Current (viewer : Viewer) : Prop :=
  (viewer.pump.refresh (viewer.params.map H264Params.codecParams)).sets =
    setsOf (viewer.params.map H264Params.codecParams)

/-- A pump that lacks a set takes the sets that are there. -/
theorem refresh_of_missing
    {pump : Pump}
    (missing : (pump.sps.isSome && pump.pps.isSome) = false)
    (params : CodecParams) :
    (pump.refresh (some params)).sets = setsOf (some params) := by
  have lacks : (pump.sps.isNone || pump.pps.isNone) = true := by
    simpa only [← Option.not_isSome, ← Bool.not_and, Bool.not_eq_true'] using missing
  simp [Pump.refresh, lacks, Pump.sets, setsOf]

/-- Looking for the same parameters again changes nothing. -/
theorem refresh_refresh (pump : Pump) (params : Option CodecParams) :
    (pump.refresh params).refresh params = pump.refresh params := by
  unfold Pump.refresh
  cases params with
  | none => split <;> rfl
  | some found =>
      split
      · dsimp only
        split <;> rfl
      · rfl

/-- The clock of the pump does not matter for its sets. -/
theorem sets_refresh
    (pump : Pump)
    (lastPTS : Int64)
    (hasLastPTS : Bool)
    (params : Option CodecParams) :
    ({ pump with lastPTS := lastPTS, hasLastPTS := hasLastPTS }.refresh params).sets =
      (pump.refresh params).sets := by
  unfold Pump.refresh
  dsimp only
  split
  · cases params <;> rfl
  · rfl

theorem connect_current (params : Option H264Params) : (connect params).Current := by
  cases params with
  | none => rfl
  | some params =>
      unfold Viewer.Current connect newPump Pump.refresh
      dsimp only [Option.map_some]
      split <;> rfl

/-- The viewer remains about to prepend the sets in force. -/
theorem Viewer.Current.step
    {viewer next : Viewer}
    {event : Event}
    (current : viewer.Current)
    (settled : Settled viewer event)
    (taken : step viewer event = some next) :
    next.Current := by
  cases event with
  | setParams params =>
      cases taken
      cases held : viewer.pump.sps.isSome && viewer.pump.pps.isSome with
      | true =>
          unfold Viewer.Current at current ⊢
          rw [settled held] at current
          exact current
      | false => exact refresh_of_missing held params.codecParams
  | frame f =>
      cases taken
      unfold Viewer.Current at current ⊢
      dsimp only [Pump.pumpFrame]
      rw [sets_refresh]
      split
      · rw [refresh_refresh]
        exact current
      · exact current

/-- Both payloads begin with the sets in force. -/
theorem Viewer.Current.samePayload
    {viewer : Viewer}
    (current : viewer.Current)
    (event : Event) :
    SamePayload viewer event := by
  cases event with
  | setParams _ => trivial
  | frame f =>
      intro key
      rw [sample_data viewer key, response_payload viewer key, current]

/-- For every interleaving of parameter changes and frames of an H.264 stream, the
WebRTC and gRPC payloads of all keyframes agree if the parameters do not change once
the viewer holds both sets. -/
theorem samePayload_of_settled
    (params : Option H264Params)
    (events : List Event)
    (settled : Meets step Settled (connect params) events) :
    Meets step SamePayload (connect params) events := by
  have preserved : ∀ (viewer : Viewer) event next, viewer.Current →
      Settled viewer event → step viewer event = some next → next.Current :=
    fun _ _ _ current met taken => current.step met taken
  have always := settled.always preserved (fun _ current => current)
    (connect_current params)
  exact always.meets fun viewer event current => current.samePayload event

/-- Parameter sets before and after a camera changes its resolution. -/
def lowResolution : H264Params where
  sps := some [0x67, 0x42]
  pps := some [0x68, 0xce]
  spsNonempty := by simp
  ppsNonempty := by simp

def highResolution : H264Params where
  sps := some [0x67, 0x64]
  pps := some [0x68, 0xee]
  spsNonempty := by simp
  ppsNonempty := by simp

/-- A keyframe. -/
def keyframe (timestamp : Int) : Frame where
  timestamp := timestamp
  isKeyFrame := true
  nalus := [[0x65, 0x88]]

/-- After a parameter change the viewer still receives the old sets with every
keyframe. -/
theorem samePayload_fails :
    ¬ Meets step SamePayload (connect (some lowResolution))
      [.frame (keyframe 0), .setParams highResolution, .frame (keyframe 40000000)] := by
  decide

/-- Parameters that change while the viewer lacks a set, and are then set again
unchanged. -/
theorem samePayload_of_settled_unchanged :
    Meets step SamePayload (connect none)
      [.setParams lowResolution, .setParams highResolution, .frame (keyframe 0),
        .setParams highResolution, .frame (keyframe 40000000)] :=
  samePayload_of_settled none _ (by decide)

end Webrtc
end RuseonCore
