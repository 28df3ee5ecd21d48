import RuseonCore.Hls.Segmentation

/-!
# Cues of frames

A gRPC client receives frames with their timestamps and sends metadata back that
carries the timestamp of the frame it belongs to.  The muxer renders the metadata
as cues of the segment.  `StreamFrames` sends milliseconds, while `Muxer.run`
takes the timestamp for ticks of the 90 kHz clock, so a cue is on time only at
the very start of a segment.
-/

namespace RuseonCore
namespace Grpc

open Buffer Rtsp

/-- A frame as it is sent to gRPC clients. -/
structure FrameResponse where
  codec : String
  isKeyframe : Bool
  pts : Int64
  payload : List UInt8
  deriving DecidableEq

/-- Append a NAL unit after a start code. -/
def appendNalu (payload nalu : List UInt8) : List UInt8 :=
  payload ++ [0, 0, 0, 1] ++ nalu

/-- Append a parameter set unless it is missing. -/
def appendParam (payload : List UInt8) (param : Option (List UInt8)) : List UInt8 :=
  match param with
  | none | some [] => payload
  | some bytes => appendNalu payload bytes

/-- Response of `StreamFrames` for a frame; keyframes are preceded by the codec
parameters. -/
def frameResponse (params : Option CodecParams) (f : Frame) : FrameResponse where
  codec :=
    match params with
    | some ⟨some (_ :: _), _, _⟩ => "H265"
    | _ => "H264"
  isKeyframe := f.isKeyFrame
  pts := milliseconds (timestamp f)
  payload :=
    let sets :=
      match params with
      | some found =>
          if f.isKeyFrame then
            appendParam (appendParam (appendParam [] found.vps) found.sps) found.pps
          else []
      | none => []
    f.nalus.foldl appendNalu sets

end Grpc

namespace Hls

open Buffer Rtsp Transition

/-! ## Position of a cue -/

namespace Loop

/-- The subtitles of a published segment are relative to its start. -/
def Rendered (l : Loop) : Prop :=
  ∀ seg ∈ l.published, ∃ start requests,
    startOf seg.muxed = some start ∧ seg.vttData = some (webVTT start requests)

theorem Rendered.step
    {format : SecondsFormat}
    {input : List Frame}
    {l next : Loop}
    {label : LoopStep}
    (segmented : l.Segmented input)
    (rendered : l.Rendered)
    (taken : l.step format label = some next) :
    next.Rendered := by
  unfold Rendered
  rcases step_cases taken with ⟨f, now, rfl, handles⟩ | ⟨_, quiet⟩
  · cases handles with
    | skipped _ _ quiet =>
        rw [quiet.published]
        exact rendered
    | opened _ _ _ _ published =>
        rw [published]
        exact rendered
    | extended _ _ _ _ _ published =>
        rw [published]
        exact rendered
    | closed content active _ _ _ published =>
        rw [published]
        intro seg member
        rcases List.mem_append.mp member with old | new
        · exact rendered seg old
        · rw [List.mem_singleton] at new
          subst new
          exact ⟨l.segmentStart, l.currentMeta, segmented.started content active, rfl⟩
  · rw [quiet.published]
    exact rendered

end Loop

end Hls
end RuseonCore
