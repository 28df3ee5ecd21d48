import RuseonCore.Foundation.Transition
import RuseonCore.Hls.WebVTT

/-!
# The HLS muxer

State of `internal/hls/muxer.go` that the muxing goroutine, the watchdog and the
HTTP handlers share.  Segments are heap objects: they are numbered in the order
of their creation and never leave `heap`, while the window `segments` and the
index `segIndex` hold numbers.  Every section under the muxer's mutex is one
step, and so is a `Release`, which runs outside of it.

The muxed transport stream is represented by the frames that are handed to its
writer, whose errors the source ignores.  The reference count and the segment
counter do not overflow here, which agrees with the 32-bit and 64-bit counters of
the source for fewer than `2 ^ 31` references to one segment and fewer than
`2 ^ 64` segments.  How a number of seconds is rounded and printed is a
parameter, as it involves floating-point numbers.
-/

namespace RuseonCore
namespace Hls

open Buffer

/-- A frame as it is handed to the transport stream writer, and the codec
parameters in force. -/
structure MuxedFrame where
  frame : Frame
  params : CodecParams
  pts : Int64
  nalus : List (List UInt8)
  deriving DecidableEq

/-- What a playlist shows of a segment. -/
structure Listing where
  name : String
  duration : Int64
  isDiscontinuity : Bool
  deriving DecidableEq

/-- A media segment; `none` is a nil slice or pointer.  The last three fields are
not in the source: what was muxed, whether the watchdog made the segment as a
copy, and how often the buffer was put back into the pool. -/
structure Segment extends Listing where
  data : Option (List MuxedFrame)
  buf : Option (List MuxedFrame)
  refCount : Int
  vttData : Option WebVTT
  muxed : List MuxedFrame
  copied : Bool
  puts : Nat
  deriving DecidableEq

namespace Segment

def retain (s : Segment) : Segment :=
  { s with refCount := s.refCount + 1 }

/-- Give up a reference; the last one puts the buffer back into the pool. -/
def release (s : Segment) : Segment :=
  if s.refCount - 1 = 0 then
    match s.buf with
    | some _ =>
        { s with refCount := s.refCount - 1, buf := none, data := none, puts := s.puts + 1 }
    | none => { s with refCount := s.refCount - 1 }
  else { s with refCount := s.refCount - 1 }

end Segment

/-- A duration in seconds: its integer part, and its text with three decimals. -/
structure SecondsFormat where
  whole : Int64 → Int
  text : Int64 → String

/-- Whole seconds only. -/
def wholeSeconds : SecondsFormat where
  whole := fun duration => duration.toInt / 1000000000
  text := fun duration => toString (duration.toInt / 1000000000) ++ ".000"

/-- Name of a segment. -/
def segmentName (seq : Nat) : String :=
  "stream_" ++ toString seq ++ ".ts"

/-- Name of the subtitles of a segment. -/
def vttName (name : String) : String :=
  (if 3 < name.toList.length then
      String.ofList (name.toList.take (name.toList.length - 3))
    else "") ++ ".vtt"

/-- The name asks for subtitles. -/
def isVTT (name : String) : Bool :=
  decide (4 < name.toList.length) &&
    name.toList.drop (name.toList.length - 4) == ".vtt".toList

/-- Name of the segment that a name asks for. -/
def tsName (name : String) : String :=
  if isVTT name then
    String.ofList (name.toList.take (name.toList.length - 4)) ++ ".ts"
  else name

/-! ## Playlists -/

section Playlists

variable (format : SecondsFormat)

/-- Longest segment in whole seconds, at least two. -/
def maxDuration (listings : List Listing) : Int :=
  listings.foldl
    (fun longest seg =>
      if format.whole seg.duration > longest then format.whole seg.duration
      else longest)
    2

/-- Lines before the segments. -/
def playlistHeader (seq : Nat) (listings : List Listing) : String :=
  "#EXTM3U\n#EXT-X-VERSION:3\n#EXT-X-TARGETDURATION:" ++
    toString (maxDuration format listings + 1) ++ "\n" ++
    "#EXT-X-MEDIA-SEQUENCE:" ++ toString seq ++ "\n"

/-- Lines of one segment, which is listed under the given name. -/
def playlistEntry (seg : Listing) (name : String) : String :=
  (if seg.isDiscontinuity then "#EXT-X-DISCONTINUITY\n" else "") ++
    "#EXTINF:" ++ format.text seg.duration ++ ",\n" ++ name ++ "\n"

/-- Playlist of the media segments. -/
def renderPlaylist (seq : Nat) (listings : List Listing) : String :=
  playlistHeader format seq listings ++
    String.join (listings.map fun seg => playlistEntry format seg seg.name)

/-- Playlist of the subtitles. -/
def renderSubsPlaylist (seq : Nat) (listings : List Listing) : String :=
  playlistHeader format seq listings ++
    String.join (listings.map fun seg => playlistEntry format seg (vttName seg.name))

end Playlists

/-! ## The muxer -/

/-- Shared state of a muxer, with all segments it ever created. -/
structure Muxer where
  targetDuration : Int64
  maxSegments : Nat
  heap : List Segment
  segments : List Nat
  segIndex : Std.ExtTreeMap String Nat compare
  seqCount : Nat
  lastFrameTime : Int64
  needsDiscontinuity : Bool
  firstSegReady : Bool
  cachedPlaylist : Option String
  cachedSubsPlaylist : Option String
  atLeastThree : 3 ≤ maxSegments

/-- A new muxer; a window of fewer than three segments becomes three. -/
def newMuxer (maxSegments : Option Int) (now : Int64) : Muxer where
  targetDuration := 2 * Rtsp.second
  maxSegments :=
    match maxSegments with
    | some given => if 3 ≤ given then given.toNat else 3
    | none => 3
  heap := []
  segments := []
  segIndex := ∅
  seqCount := 0
  lastFrameTime := now
  needsDiscontinuity := false
  firstSegReady := false
  cachedPlaylist := none
  cachedSubsPlaylist := none
  atLeastThree := by
    split
    · split
      · omega
      · exact le_rfl
    · exact le_rfl

namespace Muxer

/-- The segments in the window, as the playlists show them. -/
def listings (m : Muxer) : List Listing :=
  m.segments.filterMap fun p => m.heap[p]?.map Segment.toListing

/-- Iteration of the loop that rebuilds the index. -/
def indexSegment
    (heap : List Segment)
    (index : Std.ExtTreeMap String Nat compare)
    (p : Nat) : Std.ExtTreeMap String Nat compare :=
  match heap[p]? with
  | some seg => index.insert seg.name p
  | none => index

/-- Render both playlists and rebuild the index. -/
def rebuildPlaylistsLocked (format : SecondsFormat) (m : Muxer) : Muxer :=
  if m.segments.isEmpty then { m with segIndex := ∅ }
  else
    let seq := m.seqCount - m.segments.length + 1
    { m with
      segIndex := m.segments.foldl (indexSegment m.heap) ∅
      cachedPlaylist := some (renderPlaylist format seq m.listings)
      cachedSubsPlaylist := some (renderSubsPlaylist format seq m.listings) }

/-- Drop the oldest segment of a window that is too long. -/
def evict (m : Muxer) : Muxer :=
  if m.maxSegments < m.segments.length then
    match m.segments with
    | oldSeg :: rest =>
        { m with heap := m.heap.modify oldSeg Segment.release, segments := rest }
    | [] => m
  else m

/-- Add a segment to the window. -/
def appendSegment (m : Muxer) (seg : Segment) : Muxer :=
  evict
    { m with
      heap := m.heap ++ [seg]
      segments := m.segments ++ [m.heap.length]
      firstSegReady := true }

/-- Publish the segment that the muxing goroutine has closed. -/
def publish
    (format : SecondsFormat)
    (m : Muxer)
    (duration : Int64)
    (content : List MuxedFrame)
    (vttData : WebVTT) : Muxer :=
  let seqCount := m.seqCount + 1
  let seg : Segment :=
    { name := segmentName seqCount
      duration := duration
      isDiscontinuity := m.needsDiscontinuity
      data := some content
      buf := some content
      refCount := 1
      vttData := some vttData
      muxed := content
      copied := false
      puts := 0 }
  rebuildPlaylistsLocked format
    (appendSegment { m with seqCount := seqCount, needsDiscontinuity := false } seg)

/-- No frame has arrived for more than five seconds. -/
def stalled (lastTime now : Int64) : Bool :=
  decide (now.toInt - lastTime.toInt > 5000000000)

/-- The watchdog repeats the last segment.  `seen` is the time of the last frame
that it has loaded before it takes the mutex. -/
def watchdogFires (m : Muxer) (seen now : Int64) : Bool :=
  seen != 0 && stalled seen now &&
    decide (m.lastFrameTime > 0) && stalled m.lastFrameTime now &&
    !m.segments.isEmpty

/-- Copy of a segment under the next name. -/
def copyOf (lastSeg : Segment) (seqCount : Nat) : Segment where
  name := segmentName seqCount
  duration := lastSeg.duration
  isDiscontinuity := true
  data := some (lastSeg.data.getD [])
  buf := none
  refCount := 1
  vttData := none
  muxed := lastSeg.data.getD []
  copied := true
  puts := 0

/-- Repeat the last segment if no frame has arrived for a while. -/
def checkWatchdog (format : SecondsFormat) (m : Muxer) (seen now : Int64) : Muxer :=
  if m.watchdogFires seen now then
    match m.segments.getLast?.bind fun p => m.heap[p]? with
    | none => m
    | some lastSeg =>
        let seqCount := m.seqCount + 1
        let rebuilt := rebuildPlaylistsLocked format
          (appendSegment { m with seqCount := seqCount } (copyOf lastSeg seqCount))
        { rebuilt with lastFrameTime := now, needsDiscontinuity := true }
  else m

/-- Segment that a name asks for. -/
def lookup (m : Muxer) (name : String) : Option Nat :=
  match m.segIndex[tsName name]? with
  | some p => some p
  | none =>
      m.segments.find? fun p => m.heap[p]?.any fun seg => seg.name == tsName name

/-- Hand out a reference to a segment, with its media type. -/
def acquireSegment (m : Muxer) (name : String) : Muxer × Option (Nat × String) :=
  match m.lookup name with
  | none => (m, none)
  | some p =>
      ({ m with heap := m.heap.modify p Segment.retain },
        some (p, if isVTT name then "text/vtt" else "video/mp2t"))

/-- Release a reference that was handed out. -/
def releaseSegment (m : Muxer) (p : Nat) : Muxer :=
  { m with heap := m.heap.modify p Segment.release }

/-- Playlist of the media segments, rendered if there is none although the
window has segments. -/
def getPlaylist (format : SecondsFormat) (m : Muxer) : Muxer × Option String :=
  match m.cachedPlaylist with
  | some p => (m, some p)
  | none =>
      if m.segments.isEmpty then (m, none)
      else
        let rebuilt := m.rebuildPlaylistsLocked format
        (rebuilt, rebuilt.cachedPlaylist)

/-- Playlist of the subtitles, likewise. -/
def getSubsPlaylist (format : SecondsFormat) (m : Muxer) : Muxer × Option String :=
  match m.cachedSubsPlaylist with
  | some p => (m, some p)
  | none =>
      if m.segments.isEmpty then (m, none)
      else
        let rebuilt := m.rebuildPlaylistsLocked format
        (rebuilt, rebuilt.cachedSubsPlaylist)

/-- Release the window, after the muxing goroutine has ended. -/
def stop (m : Muxer) : Muxer :=
  { m with
    heap := m.segments.foldl (fun heap p => heap.modify p Segment.release) m.heap
    segments := []
    segIndex := ∅
    firstSegReady := true }

/-- The watchdog does nothing, or repeats the last segment of the window. -/
theorem checkWatchdog_cases
    (format : SecondsFormat)
    (m : Muxer)
    (seen now : Int64) :
    m.checkWatchdog format seen now = m ∨
      ∃ lastSeg,
        m.watchdogFires seen now = true ∧
        (m.segments.getLast?.bind fun p => m.heap[p]?) = some lastSeg ∧
        m.checkWatchdog format seen now =
          { rebuildPlaylistsLocked format
              (appendSegment { m with seqCount := m.seqCount + 1 }
                (copyOf lastSeg (m.seqCount + 1))) with
            lastFrameTime := now
            needsDiscontinuity := true } := by
  unfold checkWatchdog
  split
  · rename_i fires
    split
    · exact .inl rfl
    · rename_i lastSeg last
      exact .inr ⟨lastSeg, fires, last, rfl⟩
  · exact .inl rfl

/-- Reading a playlist at most renders it. -/
theorem getPlaylist_cases (format : SecondsFormat) (m : Muxer) :
    (m.getPlaylist format).1 = m ∨
      (m.getPlaylist format).1 = m.rebuildPlaylistsLocked format := by
  unfold getPlaylist
  split
  · exact .inl rfl
  · split
    · exact .inl rfl
    · exact .inr rfl

theorem getSubsPlaylist_cases (format : SecondsFormat) (m : Muxer) :
    (m.getSubsPlaylist format).1 = m ∨
      (m.getSubsPlaylist format).1 = m.rebuildPlaylistsLocked format := by
  unfold getSubsPlaylist
  split
  · exact .inl rfl
  · split
    · exact .inl rfl
    · exact .inr rfl

end Muxer

/-! ## Readers, watchdog and publications -/

/-- The muxer with the references that HTTP handlers have not released yet. -/
structure Serving where
  muxer : Muxer
  handles : List Nat
  stopped : Bool

/-- Steps of the goroutines that share a muxer.  The first three are those of the
muxing goroutine. -/
inductive ServingStep
  | storeFrameTime (now : Int64)
  | flagDiscontinuity
  | publish (duration : Int64) (content : List MuxedFrame) (vttData : WebVTT)
  | checkWatchdog (seen now : Int64)
  | acquireSegment (name : String)
  | release (p : Nat)
  | getPlaylist
  | getSubsPlaylist
  | stop

namespace Serving

/-- Nothing has been served yet. -/
def start (m : Muxer) : Serving where
  muxer := m
  handles := []
  stopped := false

/-- Effect of one step.  Only references that were handed out can be released,
and the muxing goroutine has ended when the window is released. -/
def step (format : SecondsFormat) (serving : Serving) : ServingStep → Option Serving
  | .storeFrameTime now =>
      some { serving with muxer := { serving.muxer with lastFrameTime := now } }
  | .flagDiscontinuity =>
      some { serving with muxer := { serving.muxer with needsDiscontinuity := true } }
  | .publish duration content vttData =>
      if serving.stopped then none
      else
        some { serving with
          muxer := serving.muxer.publish format duration content vttData }
  | .checkWatchdog seen now =>
      some { serving with muxer := serving.muxer.checkWatchdog format seen now }
  | .acquireSegment name =>
      match serving.muxer.acquireSegment name with
      | (_, none) => some serving
      | (m, some (p, _)) =>
          some { serving with muxer := m, handles := p :: serving.handles }
  | .release p =>
      if p ∈ serving.handles then
        some { serving with
          muxer := serving.muxer.releaseSegment p
          handles := serving.handles.erase p }
      else none
  | .getPlaylist =>
      some { serving with muxer := (serving.muxer.getPlaylist format).1 }
  | .getSubsPlaylist =>
      some { serving with muxer := (serving.muxer.getSubsPlaylist format).1 }
  | .stop => some { serving with muxer := serving.muxer.stop, stopped := true }

/-! What the steps with a condition can do. -/

theorem publish_cases
    {format : SecondsFormat}
    {serving next : Serving}
    {duration : Int64}
    {content : List MuxedFrame}
    {vttData : WebVTT}
    (taken : serving.step format (.publish duration content vttData) = some next) :
    serving.stopped = false ∧
      { serving with muxer := serving.muxer.publish format duration content vttData } =
        next := by
  simp only [step] at taken
  split at taken
  · cases taken
  · rename_i running
    exact ⟨Bool.eq_false_iff.mpr running, Option.some.inj taken⟩

theorem acquireSegment_cases
    {format : SecondsFormat}
    {serving next : Serving}
    {name : String}
    (taken : serving.step format (.acquireSegment name) = some next) :
    serving = next ∨
      ∃ p, serving.muxer.lookup name = some p ∧
        { serving with
          muxer := { serving.muxer with
            heap := serving.muxer.heap.modify p Segment.retain }
          handles := p :: serving.handles } = next := by
  simp only [step, Muxer.acquireSegment] at taken
  cases found : serving.muxer.lookup name with
  | none =>
      rw [found] at taken
      exact .inl (Option.some.inj taken)
  | some p =>
      rw [found] at taken
      exact .inr ⟨p, rfl, Option.some.inj taken⟩

theorem release_cases
    {format : SecondsFormat}
    {serving next : Serving}
    {p : Nat}
    (taken : serving.step format (.release p) = some next) :
    p ∈ serving.handles ∧
      { serving with
        muxer := serving.muxer.releaseSegment p
        handles := serving.handles.erase p } = next := by
  simp only [step] at taken
  split at taken
  · rename_i held
    exact ⟨held, Option.some.inj taken⟩
  · cases taken

theorem getPlaylist_cases
    {format : SecondsFormat}
    {serving next : Serving}
    (taken : serving.step format .getPlaylist = some next) :
    serving = next ∨
      { serving with muxer := serving.muxer.rebuildPlaylistsLocked format } = next := by
  rw [← Option.some.inj taken]
  rcases serving.muxer.getPlaylist_cases format with same | rebuilt
  · exact .inl (by rw [same])
  · exact .inr (by rw [rebuilt])

theorem getSubsPlaylist_cases
    {format : SecondsFormat}
    {serving next : Serving}
    (taken : serving.step format .getSubsPlaylist = some next) :
    serving = next ∨
      { serving with muxer := serving.muxer.rebuildPlaylistsLocked format } = next := by
  rw [← Option.some.inj taken]
  rcases serving.muxer.getSubsPlaylist_cases format with same | rebuilt
  · exact .inl (by rw [same])
  · exact .inr (by rw [rebuilt])

end Serving

end Hls
end RuseonCore
