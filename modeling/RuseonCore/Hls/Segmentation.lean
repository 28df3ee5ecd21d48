import RuseonCore.Foundation.Cutting
import RuseonCore.Hls.Loop

/-!
# Segmentation

How `Muxer.run` cuts the frames into segments.  The segments hold exactly the
frames from the first keyframe on; each begins with a keyframe, and lasts until
the keyframe that begins the next one.  A keyframe closes the open segment when
the target duration has passed since the start of that segment, which presumes
that the timestamps have not gone back behind it.
-/

namespace RuseonCore
namespace Hls

open Buffer Rtsp Transition

/-! ## Keyframes and the open segment -/

namespace Loop

/-- A segment is open that the frame lies in. -/
def Covers (l : Loop) (f : Frame) : Prop :=
  l.currentBuf.isSome = true ∧ 0 ≤ timestamp f - l.segmentStart ∧
    timestamp f - l.segmentStart < l.serving.muxer.targetDuration

/-- The frame does not lie before the start of the open segment. -/
def Forward (l : Loop) (f : Frame) : Prop :=
  l.currentBuf.isSome = true → 0 ≤ timestamp f - l.segmentStart

/-- A keyframe lies in the segment that it leaves open exactly if it does not lie
before the segment that it finds open. -/
theorem covers_iff_forward
    {l next : Loop}
    {f : Frame}
    (positive : 0 < l.serving.muxer.targetDuration)
    (fixed : next.serving.muxer.targetDuration = l.serving.muxer.targetDuration)
    (key : f.isKeyFrame = true)
    (handles : l.Handles f next) :
    next.Covers f ↔ l.Forward f := by
  unfold Covers Forward
  rw [fixed]
  cases handles with
  | skipped _ delta =>
      rw [delta] at key
      cases key
  | opened idle _ currentBuf segmentStart =>
      rw [idle, currentBuf, segmentStart, Int64.sub_self]
      exact ⟨fun _ active => absurd active Bool.false_ne_true,
        fun _ => ⟨rfl, Int64.le_refl 0, positive⟩⟩
  | extended content active early currentBuf segmentStart =>
      have below : timestamp f - l.segmentStart < l.serving.muxer.targetDuration := by
        simpa [due, active, key] using early
      rw [active, currentBuf, segmentStart]
      exact ⟨fun covers _ => covers.2.1, fun forward => ⟨rfl, forward rfl, below⟩⟩
  | closed content active late currentBuf segmentStart =>
      have reached : l.serving.muxer.targetDuration ≤ timestamp f - l.segmentStart := by
        simpa [due, active, key] using late
      rw [active, currentBuf, segmentStart, Int64.sub_self]
      exact ⟨fun _ _ => Int64.le_trans (Int64.le_of_lt positive) reached,
        fun _ => ⟨rfl, Int64.le_refl 0, positive⟩⟩

theorem targetDuration_run
    {format : SecondsFormat}
    {maxSegments : Option Int}
    {now : Int64}
    {codecParams : Option CodecParams}
    {labels : List LoopStep}
    {l : Loop}
    (reached : run (Loop.step format)
      (start (newMuxer maxSegments now) codecParams) labels = some l) :
    l.serving.muxer.targetDuration = 2 * second := by
  have preserved : ∀ (l : Loop) label next,
      l.serving.muxer.targetDuration = 2 * second → l.step format label = some next →
      next.serving.muxer.targetDuration = 2 * second :=
    fun _ _ _ fixed taken => (targetDuration_step taken).trans fixed
  exact run_invariant preserved rfl reached

end Loop

/-- After any run, the next keyframe leaves a segment open that it lies in,
exactly if it does not lie before the start of the segment that is open when it
arrives. -/
theorem keyframe_covered_iff
    (format : SecondsFormat)
    (maxSegments : Option Int)
    (created : Int64)
    (codecParams : Option CodecParams)
    (labels : List LoopStep)
    {l next : Loop}
    {f : Frame}
    {now : Int64}
    (reached : run (Loop.step format)
      (Loop.start (newMuxer maxSegments created) codecParams) labels = some l)
    (taken : l.step format (.frame f now) = some next)
    (key : f.isKeyFrame = true) :
    next.Covers f ↔ l.Forward f := by
  have target := Loop.targetDuration_run reached
  have positive : 0 < l.serving.muxer.targetDuration := by
    rw [target]
    decide
  rcases Loop.step_cases taken with ⟨_, _, same, handles⟩ | ⟨none, _⟩
  · obtain ⟨rfl, rfl⟩ := LoopStep.frame.inj same
    exact Loop.covers_iff_forward positive (Loop.targetDuration_step taken) key handles
  · cases none

/-- A keyframe at the given tick of a session. -/
def keyframeAt (ticks : UInt32) : Frame where
  timestamp := (rtp90kToDuration (newTimestampUnwrapper.unwrap ticks).2).toInt
  isKeyFrame := true
  nalus := [[0x65]]

theorem keyframe_covered_iff_second :
    ∃ l next,
      run (Loop.step wholeSeconds) (Loop.start (newMuxer none 1) none)
        [.poll, .frame (keyframeAt 0) 1, .poll] = some l ∧
      l.step wholeSeconds (.frame (keyframeAt 90000) 2) = some next ∧
      (next.Covers (keyframeAt 90000) ↔ l.Forward (keyframeAt 90000)) :=
  ⟨_, _, rfl, rfl,
    keyframe_covered_iff wholeSeconds none 1 none
      [.poll, .frame (keyframeAt 0) 1, .poll] rfl rfl rfl⟩

/-- A session ends ten seconds after its start, and the keyframes of the next
session start at zero: the segment opened by the first session stays open, and
eight seconds later nothing has been published. -/
theorem segment_open_after_reconnect :
    ∃ finish,
      run (Loop.step wholeSeconds) (Loop.start (newMuxer none 1) none)
        [.poll, .frame (keyframeAt 900000) 1, .poll, .frame (keyframeAt 0) 2,
          .poll, .frame (keyframeAt 360000) 3, .poll, .frame (keyframeAt 720000) 4] =
        some finish ∧
      finish.published = [] ∧ ¬ finish.Covers (keyframeAt 720000) := by
  refine ⟨_, rfl, ?_, ?_⟩
  · decide
  · unfold Loop.Covers
    decide

/-! ## Contents of the segments -/

/-- Timestamp of the first frame of a segment. -/
def startOf (content : List MuxedFrame) : Option Int64 :=
  content.head?.map fun muxed => timestamp muxed.frame

theorem startOf_append
    {content : List MuxedFrame}
    {start : Int64}
    (started : startOf content = some start)
    (later : List MuxedFrame) :
    startOf (content ++ later) = some start := by
  cases content with
  | nil => cases started
  | cons first rest => exact started

namespace Loop

/-- Frames of the published segments and of the open one. -/
def contents (l : Loop) : List (List MuxedFrame) :=
  l.published.map Publication.muxed ++ l.currentBuf.toList

/-- Starts of the published segments and of the open one. -/
def starts (l : Loop) : List (Option Int64) :=
  l.contents.map startOf

/-- The segments as groups of frames. -/
def cutting (l : Loop) : Cutting Frame where
  done := l.published.map fun seg => seg.muxed.map MuxedFrame.frame
  current := l.currentBuf.map fun content => content.map MuxedFrame.frame

theorem groups_cutting (l : Loop) :
    l.cutting.groups = l.contents.map fun content => content.map MuxedFrame.frame := by
  unfold Cutting.groups cutting contents
  cases l.currentBuf <;> simp

/-- The duration of the segment at a position leads from its start to the start
of the next one. -/
def Lasts (l : Loop) (i : Nat) (seg : Publication) : Prop :=
  ∃ own following,
    l.starts[i]? = some (some own) ∧ l.starts[i + 1]? = some (some following) ∧
    seg.duration = following - own ∧ l.serving.muxer.targetDuration ≤ seg.duration

/-- The segments are cut from the frames delivered so far. -/
structure Segmented (input : List Frame) (l : Loop) : Prop where
  follows : l.cutting.Follows Frame.isKeyFrame input
  started : ∀ content, l.currentBuf = some content → startOf content = some l.segmentStart
  lasts : ∀ i seg, l.published[i]? = some seg → l.Lasts i seg

/-- Cutter steps of the loop. -/
theorem takes_handles
    {l next : Loop}
    {f : Frame}
    (handles : l.Handles f next) :
    Cutting.Takes Frame.isKeyFrame l.cutting f next.cutting := by
  unfold cutting
  cases handles with
  | skipped idle delta quiet =>
      rw [quiet.published, quiet.currentBuf, idle]
      exact .skip f delta _
  | opened idle key currentBuf segmentStart published =>
      rw [published, currentBuf, idle]
      exact .start f key _
  | extended content active early currentBuf segmentStart published =>
      rw [published, currentBuf, active, Option.map_some, Option.map_some,
        List.map_append]
      exact .extend f _ _
  | closed content active late currentBuf segmentStart published =>
      rw [published, currentBuf, active, List.map_append]
      exact .cut f (key_of_due late) _ _

/-- Starts that were reached remain when later ones follow. -/
theorem Lasts.extend
    {l next : Loop}
    {later : List (Option Int64)}
    (starts : next.starts = l.starts ++ later)
    (fixed : next.serving.muxer.targetDuration = l.serving.muxer.targetDuration)
    {i : Nat}
    {seg : Publication}
    (lasts : l.Lasts i seg) :
    next.Lasts i seg := by
  have remains : ∀ (j : Nat) start, l.starts[j]? = some start →
      next.starts[j]? = some start := by
    intro j start found
    rw [starts, List.getElem?_append_left (List.getElem?_eq_some_iff.mp found).1]
    exact found
  obtain ⟨own, following, first, second, duration, long⟩ := lasts
  exact ⟨own, following, remains i _ first, remains (i + 1) _ second, duration,
    fixed ▸ long⟩

theorem Segmented.quiet
    {input : List Frame}
    {l next : Loop}
    (segmented : l.Segmented input)
    (quiet : l.Quiet next) :
    next.Segmented input := by
  refine ⟨?_, ?_, ?_⟩
  · have cutting : next.cutting = l.cutting := by
      rw [Loop.cutting, Loop.cutting, quiet.published, quiet.currentBuf]
    rw [cutting]
    exact segmented.follows
  · rw [quiet.currentBuf, quiet.segmentStart]
    exact segmented.started
  · have starts : next.starts = l.starts ++ [] := by
      rw [List.append_nil, Loop.starts, Loop.starts, contents, contents,
        quiet.published, quiet.currentBuf]
    rw [quiet.published]
    exact fun i seg found => (segmented.lasts i seg found).extend starts quiet.targetDuration

/-- Every segment begins with a keyframe. -/
theorem Segmented.headed
    {input : List Frame}
    {l : Loop}
    (segmented : l.Segmented input)
    {content : List MuxedFrame}
    (member : content ∈ l.contents) :
    ∃ first rest, content = first :: rest ∧ first.frame.isKeyFrame = true := by
  have grouped : content.map MuxedFrame.frame ∈ l.cutting.groups := by
    rw [groups_cutting]
    exact List.mem_map_of_mem member
  obtain ⟨item, rest, begins, key⟩ := segmented.follows.headed _ grouped
  obtain ⟨first, later, rfl, rfl, _⟩ := List.map_eq_cons_iff.mp begins
  exact ⟨first, later, rfl, key⟩

theorem Segmented.headed_open
    {input : List Frame}
    {l : Loop}
    (segmented : l.Segmented input)
    {content : List MuxedFrame}
    (active : l.currentBuf = some content) :
    ∃ first rest, content = first :: rest ∧ first.frame.isKeyFrame = true :=
  segmented.headed (by simp [contents, active])

/-- Nothing is published before a segment is open. -/
theorem Segmented.published_idle
    {input : List Frame}
    {l : Loop}
    (segmented : l.Segmented input)
    (idle : l.currentBuf = none) :
    l.published = [] := by
  have none : l.cutting.done = [] :=
    segmented.follows.begun (by simp [cutting, idle])
  exact List.map_eq_nil_iff.mp none

/-- A segment that is closed lasts until the frame that closes it. -/
theorem Segmented.lasts_closed
    {input : List Frame}
    {l next : Loop}
    {f : Frame}
    (segmented : l.Segmented input)
    (fixed : next.serving.muxer.targetDuration = l.serving.muxer.targetDuration)
    {content : List MuxedFrame}
    (active : l.currentBuf = some content)
    (late : l.due f = true)
    (currentBuf : next.currentBuf = some [muxedFrame (l.forced f) f])
    {seg : Publication}
    (muxed : seg.muxed = content)
    (duration : seg.duration = timestamp f - l.segmentStart)
    (published : next.published = l.published ++ [seg]) :
    ∀ i found, next.published[i]? = some found → next.Lasts i found := by
  have before : l.starts =
      l.published.map (fun seg => startOf seg.muxed) ++ [some l.segmentStart] := by
    simp [Loop.starts, contents, active, segmented.started content active,
      Function.comp_def]
  have starts : next.starts = l.starts ++ [some (timestamp f)] := by
    simp [Loop.starts, contents, active, published, currentBuf, muxed, startOf,
      muxedFrame]
  intro i found found'
  rw [published] at found'
  by_cases old : i < l.published.length
  · rw [List.getElem?_append_left old] at found'
    exact (segmented.lasts i found found').extend starts fixed
  · have last : i = l.published.length := by
      have bound := (List.getElem?_eq_some_iff.mp found').1
      rw [List.length_append, List.length_singleton] at bound
      omega
    subst last
    rw [List.getElem?_concat_length, Option.some.injEq] at found'
    subst found'
    refine ⟨l.segmentStart, timestamp f, ?_, ?_, duration, ?_⟩
    · simp [starts, before]
    · simp [starts, before]
    · rw [fixed, duration]
      simpa [due, active, key_of_due late] using late

theorem Segmented.handles
    {input : List Frame}
    {l next : Loop}
    {f : Frame}
    (segmented : l.Segmented input)
    (fixed : next.serving.muxer.targetDuration = l.serving.muxer.targetDuration)
    (handles : l.Handles f next) :
    next.Segmented (input ++ [f]) := by
  have follows := segmented.follows.takes (takes_handles handles)
  cases handles with
  | skipped idle delta quiet =>
      exact ⟨follows, (segmented.quiet quiet).started, (segmented.quiet quiet).lasts⟩
  | opened idle key currentBuf segmentStart published =>
      refine ⟨follows, ?_, ?_⟩
      · rw [currentBuf, segmentStart]
        rintro _ ⟨⟩
        rfl
      · rw [published, segmented.published_idle idle]
        intro i seg found
        cases found
  | extended content active early currentBuf segmentStart published =>
      have start := segmented.started content active
      refine ⟨follows, ?_, ?_⟩
      · rw [currentBuf, segmentStart]
        rintro _ ⟨⟩
        exact startOf_append start _
      · have starts : next.starts = l.starts ++ [] := by
          simp [Loop.starts, contents, active, currentBuf, published, start,
            startOf_append start]
        rw [published]
        exact fun i seg found => (segmented.lasts i seg found).extend starts fixed
  | closed content active late currentBuf segmentStart published =>
      refine ⟨follows, ?_, ?_⟩
      · rw [currentBuf, segmentStart]
        rintro _ ⟨⟩
        rfl
      · exact segmented.lasts_closed fixed active late currentBuf rfl rfl published

/-- Every step keeps the segments cut from the frames delivered so far. -/
theorem Segmented.step
    {format : SecondsFormat}
    {input : List Frame}
    {l next : Loop}
    {label : LoopStep}
    (segmented : l.Segmented input)
    (taken : l.step format label = some next) :
    next.Segmented (input ++ label.delivered.toList) := by
  rcases step_cases taken with ⟨f, now, rfl, handles⟩ | ⟨none, quiet⟩
  · exact segmented.handles (targetDuration_step taken) handles
  · rw [none, Option.toList_none, List.append_nil]
    exact segmented.quiet quiet

theorem segmented_start
    (maxSegments : Option Int)
    (now : Int64)
    (codecParams : Option CodecParams) :
    (start (newMuxer maxSegments now) codecParams).Segmented [] where
  follows := Cutting.follows_empty
  started := by
    rintro _ ⟨⟩
  lasts := by
    intro i seg found
    cases found

end Loop

/-- After any run, the published segments followed by the open one hold the
delivered frames from the first keyframe on; every segment begins with a
keyframe; and every published segment lasts from its start to the start of the
next one, which is at least the target duration. -/
theorem segments_hold_frames
    (format : SecondsFormat)
    (maxSegments : Option Int)
    (now : Int64)
    (codecParams : Option CodecParams)
    (labels : List LoopStep)
    {finish : Loop}
    (reached : run (Loop.step format)
      (Loop.start (newMuxer maxSegments now) codecParams) labels = some finish) :
    finish.contents.flatten.map MuxedFrame.frame =
        (labels.filterMap LoopStep.delivered).dropWhile (fun f => !f.isKeyFrame) ∧
      (∀ content ∈ finish.contents, ∃ first rest,
        content = first :: rest ∧ first.frame.isKeyFrame = true) ∧
      ∀ i seg, finish.published[i]? = some seg →
        ∃ own following,
          finish.starts[i]? = some (some own) ∧
          finish.starts[i + 1]? = some (some following) ∧
          seg.duration = following - own ∧
          (newMuxer maxSegments now).targetDuration ≤ seg.duration := by
  have preserved : ∀ input (l : Loop) label next, l.Segmented input → True →
      l.step format label = some next →
      next.Segmented (input ++ label.delivered.toList) :=
    fun _ _ _ _ segmented _ taken => segmented.step taken
  have segmented := run_invariant_input preserved
    (Loop.segmented_start maxSegments now codecParams) (fun _ _ => trivial) reached
  have target : (newMuxer maxSegments now).targetDuration =
      finish.serving.muxer.targetDuration := (Loop.targetDuration_run reached).symm
  refine ⟨?_, ?_, ?_⟩
  · rw [← segmented.follows.items, Loop.groups_cutting, List.map_flatten]
  · exact fun content member => segmented.headed member
  · rw [target]
    exact segmented.lasts

/-- Two keyframes two seconds apart, after a frame that is skipped. -/
theorem segments_hold_frames_two :
    ∃ finish,
      run (Loop.step wholeSeconds) (Loop.start (newMuxer none 1) none)
        [.poll, .frame ⟨0, false, [[0x41]]⟩ 1, .poll, .frame (keyframeAt 0) 1,
          .poll, .frame (keyframeAt 180000) 2] = some finish ∧
      finish.published.length = 1 ∧
      finish.contents.flatten.map MuxedFrame.frame =
        ([.poll, .frame ⟨0, false, [[0x41]]⟩ 1, .poll, .frame (keyframeAt 0) 1,
          .poll, .frame (keyframeAt 180000) 2].filterMap
            LoopStep.delivered).dropWhile (fun f => !f.isKeyFrame) := by
  refine ⟨_, rfl, ?_, ?_⟩
  · decide
  · exact (segments_hold_frames wholeSeconds none 1 none
      [.poll, .frame ⟨0, false, [[0x41]]⟩ 1, .poll, .frame (keyframeAt 0) 1,
        .poll, .frame (keyframeAt 180000) 2] rfl).1

end Hls
end RuseonCore
