import RuseonCore.Rtsp.Timestamp

/-!
# Metadata cues

The WebVTT text that `Muxer.run` renders for the metadata of a segment.  A cue
starts where the timestamp of its request lies after the start of the segment,
in ticks of the 90 kHz clock, and lasts 300 milliseconds.  The JSON text of a
request is part of the request.
-/

namespace RuseonCore
namespace Hls

open Rtsp

/-- Metadata of a frame, with its JSON text. -/
structure MetadataRequest where
  pts : Int64
  json : String
  deriving DecidableEq

/-- Position of a cue. -/
structure CueTime where
  hr : Int64
  minutes : Int64
  sec : Int64
  ms : Int64
  deriving DecidableEq

/-- A rendered request. -/
structure Cue where
  start : CueTime
  stop : CueTime
  json : String
  deriving DecidableEq

/-- Subtitles of a segment. -/
inductive WebVTT
  | empty
  | mapped (segmentStartPts : Int64) (cues : List Cue)
  deriving DecidableEq

namespace CueTime

/-- Split a number of 90 kHz ticks. -/
def ofTicks (localPts : Int64) : CueTime :=
  let total := localPts / 90
  let sec := total / 1000
  let minutes := sec / 60
  { hr := minutes / 60
    minutes := minutes % 60
    sec := sec % 60
    ms := total % 1000 }

/-- The position 300 milliseconds later. -/
def plus300 (time : CueTime) : CueTime :=
  let msEnd := time.ms + 300
  let (msEnd, secEnd) :=
    if msEnd ≥ 1000 then (msEnd - 1000, time.sec + 1) else (msEnd, time.sec)
  let (secEnd, minEnd) :=
    if secEnd ≥ 60 then (secEnd - 60, time.minutes + 1) else (secEnd, time.minutes)
  let (minEnd, hrEnd) :=
    if minEnd ≥ 60 then (minEnd - 60, time.hr + 1) else (minEnd, time.hr)
  { hr := hrEnd, minutes := minEnd, sec := secEnd, ms := msEnd }

/-- Decimal digits, with leading zeros up to a width. -/
def padded (width : Nat) (n : Int64) : String :=
  let digits := toString n.toInt
  "".pushn '0' (width - digits.length) ++ digits

def text (time : CueTime) : String :=
  padded 2 time.hr ++ ":" ++ padded 2 time.minutes ++ ":" ++ padded 2 time.sec ++
    "." ++ padded 3 time.ms

end CueTime

/-- Render one request of a segment. -/
def cue (segmentStartPts : Int64) (req : MetadataRequest) : Cue :=
  let localPts := if req.pts > segmentStartPts then req.pts - segmentStartPts else 0
  let start := CueTime.ofTicks localPts
  { start := start, stop := start.plus300, json := req.json }

/-- Subtitles of a segment that starts at the given timestamp. -/
def webVTT (segmentStart : Int64) (requests : List MetadataRequest) : WebVTT :=
  if requests.isEmpty then .empty
  else
    let segmentStartPts := durationTo90k segmentStart
    .mapped segmentStartPts (requests.map (cue segmentStartPts))

namespace WebVTT

/-- Cues of the subtitles. -/
def cues : WebVTT → List Cue
  | .empty => []
  | .mapped _ cues => cues

/-- The bytes that are served. -/
def text : WebVTT → String
  | .empty => "WEBVTT\n\n"
  | .mapped segmentStartPts cues =>
      "WEBVTT\nX-TIMESTAMP-MAP=MPEGTS:" ++ toString segmentStartPts.toInt ++
        ",LOCAL:00:00:00.000\n\n" ++
        String.join (cues.map fun cue =>
          cue.start.text ++ " --> " ++ cue.stop.text ++ "\n" ++ cue.json ++ "\n\n")

@[simp] theorem cues_webVTT (segmentStart : Int64) (requests : List MetadataRequest) :
    (webVTT segmentStart requests).cues =
      requests.map (cue (durationTo90k segmentStart)) := by
  cases requests <;> rfl

end WebVTT

end Hls
end RuseonCore
