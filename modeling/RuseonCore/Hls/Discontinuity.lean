import RuseonCore.Hls.Segmentation

/-!
# Changes of the codec parameters

A change of the codec parameters should be announced by the segment whose first
frame is muxed under the new ones.  `Muxer.run` notes a change while the previous
segment is still open, and hands the note to the segment that is closed next.
-/

namespace RuseonCore
namespace Hls

open Buffer Rtsp Transition

/-- A muxed keyframe: the parameters in force, whether it is the first frame of
its segment, and whether the segment was published as a discontinuity; `none`
while the segment is open. -/
structure KeyMark where
  params : CodecParams
  first : Bool
  flag : Option Bool
  deriving DecidableEq

/-- A keyframe inside of a segment. -/
def innerMark (flag : Option Bool) (muxed : MuxedFrame) : KeyMark where
  params := muxed.params
  first := false
  flag := flag

/-- The keyframe that opens a segment. -/
def openMark (params : CodecParams) : KeyMark where
  params := params
  first := true
  flag := none

/-- The keyframes of a segment. -/
def marksOf (flag : Option Bool) : List MuxedFrame → List KeyMark
  | [] => []
  | head :: rest =>
      (if head.frame.isKeyFrame then [⟨head.params, true, flag⟩] else []) ++
        (rest.filter fun muxed => muxed.frame.isKeyFrame).map (innerMark flag)

/-- Between successive keyframes, other parameters begin with a segment that is
not published without announcing them. -/
def Announces (earlier later : KeyMark) : Prop :=
  sameParams earlier.params later.params = false →
    later.first = true ∧ later.flag ≠ some false

instance (earlier later : KeyMark) : Decidable (Announces earlier later) := by
  unfold Announces
  infer_instance

namespace Loop

/-- Keyframes of the published segments. -/
def publishedMarks (l : Loop) : List KeyMark :=
  l.published.flatMap fun seg => marksOf (some seg.isDiscontinuity) seg.muxed

/-- Keyframes of the open segment. -/
def openMarks (l : Loop) : List KeyMark :=
  (l.currentBuf.map (marksOf none)).getD []

/-- All muxed keyframes. -/
def marks (l : Loop) : List KeyMark :=
  l.publishedMarks ++ l.openMarks

/-- All changes of the parameters are announced. -/
def Announced (l : Loop) : Prop :=
  l.marks.IsChain Announces

instance (l : Loop) : Decidable l.Announced := by
  unfold Announced
  infer_instance

/-- The open segment began with other parameters than the keyframe before it. -/
def owes (l : Loop) : Bool :=
  l.publishedMarks.getLast?.any fun earlier =>
    l.openMarks.head?.any fun later => !sameParams earlier.params later.params

/-- The parameters for the frame are those of the keyframe before it. -/
def settled (l : Loop) (f : Frame) : Bool :=
  l.marks.getLast?.all fun earlier => sameParams earlier.params (l.forced f)

/-- A keyframe that finds other parameters closes the open segment; and one that
closes a segment which began with other parameters finds a discontinuity
pending. -/
def AllowsChange (l : Loop) : LoopStep → Prop
  | .frame f _ =>
      f.isKeyFrame = true →
        if l.due f then l.owes = true → l.flagged f = true
        else l.settled f = true
  | _ => True

instance (l : Loop) (label : LoopStep) : Decidable (l.AllowsChange label) := by
  cases label <;> unfold AllowsChange <;> infer_instance

end Loop

/-! ## Keyframes of a segment -/

section Marks

variable {flag : Option Bool} {content : List MuxedFrame} {muxed : MuxedFrame}

theorem marksOf_append_delta
    (nonempty : content ≠ [])
    (delta : muxed.frame.isKeyFrame = false) :
    marksOf flag (content ++ [muxed]) = marksOf flag content := by
  cases content with
  | nil => exact absurd rfl nonempty
  | cons head rest => simp [marksOf, delta]

theorem marksOf_append_key
    (nonempty : content ≠ [])
    (key : muxed.frame.isKeyFrame = true) :
    marksOf flag (content ++ [muxed]) =
      marksOf flag content ++ [innerMark flag muxed] := by
  cases content with
  | nil => exact absurd rfl nonempty
  | cons head rest => simp [marksOf, key]

/-- Inside of a segment, only unchanged parameters are announced. -/
theorem isChain_innerMark
    (head : KeyMark)
    (rest : List MuxedFrame) :
    (head :: rest.map (innerMark flag)).IsChain Announces ↔
      (head.params :: rest.map MuxedFrame.params).IsChain
        fun earlier later => sameParams earlier later = true := by
  induction rest generalizing head with
  | nil => simp
  | cons next rest inductionHypothesis =>
      simp only [List.map_cons, List.isChain_cons_cons, inductionHypothesis]
      refine and_congr_left fun _ => ?_
      simp [Announces, innerMark]

/-- The chain inside of a segment does not depend on how it is published. -/
theorem isChain_marksOf
    (flag other : Option Bool)
    {first : MuxedFrame}
    {rest : List MuxedFrame}
    (key : first.frame.isKeyFrame = true) :
    (marksOf flag (first :: rest)).IsChain Announces ↔
      (marksOf other (first :: rest)).IsChain Announces := by
  simp only [marksOf, key, if_true, List.singleton_append, isChain_innerMark]

end Marks

namespace Loop

/-! ## Steps -/

/-- Publishing the open segment, followed by the keyframe that closes it. -/
theorem isChain_closed
    {earlier : List KeyMark}
    {first : MuxedFrame}
    {rest : List MuxedFrame}
    (key : first.frame.isKeyFrame = true)
    (chain : (earlier ++ marksOf none (first :: rest)).IsChain Announces)
    (flag : Bool)
    (params : CodecParams) :
    (earlier ++ marksOf (some flag) (first :: rest) ++
        [openMark params]).IsChain Announces ↔
      ∀ last ∈ earlier.getLast?,
        sameParams last.params first.params = false → flag = true := by
  have closing : ∀ mark : KeyMark, Announces mark (openMark params) :=
    fun _ _ => ⟨rfl, by simp [openMark]⟩
  rw [List.isChain_append] at chain
  have inner := (isChain_marksOf none (some flag) key).mp chain.2.1
  have begins : (marksOf (some flag) (first :: rest)).head? =
      some ⟨first.params, true, some flag⟩ := by
    simp [marksOf, key]
  have last : ∀ y ∈ ([openMark params] : List KeyMark).head?, y = openMark params := by
    simp
  rw [List.isChain_append, List.isChain_append, begins]
  constructor
  · rintro ⟨⟨_, _, linked⟩, _⟩ mark member differs
    have announces := (linked mark member _ rfl differs).2
    simpa using announces
  · intro pending
    refine ⟨⟨chain.1, inner, ?_⟩, by simp, fun x _ y member => ?_⟩
    · rintro mark member _ ⟨⟩ differs
      exact ⟨rfl, by simp [pending mark member differs]⟩
    · rw [last y member]
      exact closing x

theorem announced_quiet
    {l next : Loop}
    (quiet : l.Quiet next) :
    next.Announced ↔ l.Announced := by
  unfold Announced marks publishedMarks openMarks
  rw [quiet.published, quiet.currentBuf]

section Condition

variable {l : Loop} {f : Frame} {now : Int64}

theorem allowsChange_delta (delta : f.isKeyFrame = false) :
    l.AllowsChange (.frame f now) :=
  fun key => absurd (delta.symm.trans key) Bool.false_ne_true

theorem allowsChange_early
    (key : f.isKeyFrame = true)
    (early : l.due f = false) :
    l.AllowsChange (.frame f now) ↔ l.settled f = true := by
  simp [AllowsChange, key, early]

theorem allowsChange_late (late : l.due f = true) :
    l.AllowsChange (.frame f now) ↔ (l.owes = true → l.flagged f = true) := by
  simp [AllowsChange, key_of_due late, late]

/-- What an open segment owes depends on its first frame. -/
theorem owes_iff
    {first : MuxedFrame}
    {rest : List MuxedFrame}
    (active : l.currentBuf = some (first :: rest))
    (key : first.frame.isKeyFrame = true) :
    l.owes = true ↔ ∃ last ∈ l.publishedMarks.getLast?,
      sameParams last.params first.params = false := by
  have begins : l.openMarks.head? = some (openMark first.params) := by
    simp [openMarks, active, marksOf, key, openMark]
  rw [owes, begins]
  cases l.publishedMarks.getLast? with
  | none => simp
  | some last => simp [openMark]

end Condition

section Frame

variable {l next : Loop} {f : Frame} {now : Int64}
variable {first : MuxedFrame} {rest : List MuxedFrame}

/-- A frame that joins the open segment, which began with a keyframe. -/
theorem announced_extended
    (announced : l.Announced)
    (active : l.currentBuf = some (first :: rest))
    (early : l.due f = false)
    (currentBuf : next.currentBuf = some (first :: rest ++ [muxedFrame (l.forced f) f]))
    (published : next.published = l.published) :
    next.Announced ↔ l.AllowsChange (.frame f now) := by
  unfold Announced at announced ⊢
  cases key : f.isKeyFrame with
  | false =>
      have after : next.marks = l.marks := by
        simp only [marks, publishedMarks, openMarks, published, currentBuf, active,
          Option.map_some, Option.getD_some]
        rw [marksOf_append_delta (List.cons_ne_nil first rest) key]
      rw [after]
      exact iff_of_true announced (allowsChange_delta key)
  | true =>
      have after : next.marks =
          l.marks ++ [innerMark none (muxedFrame (l.forced f) f)] := by
        simp only [marks, publishedMarks, openMarks, published, currentBuf, active,
          Option.map_some, Option.getD_some]
        rw [marksOf_append_key (List.cons_ne_nil first rest) key, List.append_assoc]
      rw [allowsChange_early key early, after, List.isChain_append, settled]
      cases l.marks.getLast? with
      | none => simp [announced]
      | some last => simp [announced, Announces, innerMark, muxedFrame]

/-- A keyframe that closes the open segment, which began with a keyframe. -/
theorem announced_closed
    (announced : l.Announced)
    (active : l.currentBuf = some (first :: rest))
    (begins : first.frame.isKeyFrame = true)
    (late : l.due f = true)
    (currentBuf : next.currentBuf = some [muxedFrame (l.forced f) f])
    {seg : Publication}
    (muxed : seg.muxed = first :: rest)
    (flag : seg.isDiscontinuity = l.flagged f)
    (published : next.published = l.published ++ [seg]) :
    next.Announced ↔ l.AllowsChange (.frame f now) := by
  have before : l.marks = l.publishedMarks ++ marksOf none (first :: rest) := by
    simp [marks, openMarks, active]
  have after : next.marks =
      l.publishedMarks ++ marksOf (some (l.flagged f)) (first :: rest) ++
        [openMark (l.forced f)] := by
    simp [marks, publishedMarks, openMarks, published, currentBuf, marksOf, muxed, flag,
      muxedFrame, key_of_due late, openMark]
  rw [Announced, before] at announced
  rw [allowsChange_late late, owes_iff active begins, Announced, after,
    isChain_closed begins announced]
  simp only [forall_exists_index, and_imp]

end Frame

/-- A frame keeps all changes announced exactly if it is allowed. -/
theorem announced_handles
    {input : List Frame}
    {l next : Loop}
    {f : Frame}
    {now : Int64}
    (segmented : l.Segmented input)
    (announced : l.Announced)
    (handles : l.Handles f next) :
    next.Announced ↔ l.AllowsChange (.frame f now) := by
  cases handles with
  | skipped idle delta quiet =>
      exact iff_of_true ((announced_quiet quiet).mpr announced) (allowsChange_delta delta)
  | opened idle key currentBuf segmentStart published =>
      have none := segmented.published_idle idle
      have before : l.marks = [] := by
        simp [marks, publishedMarks, openMarks, none, idle]
      have after : next.marks = [openMark (l.forced f)] := by
        simp [marks, publishedMarks, openMarks, published, none, currentBuf, marksOf,
          muxedFrame, key, openMark]
      rw [allowsChange_early key (due_idle idle), Announced, after, settled, before]
      simp
  | extended content active early currentBuf segmentStart published =>
      obtain ⟨first, rest, rfl, _⟩ := segmented.headed_open active
      exact announced_extended announced active early currentBuf published
  | closed content active late currentBuf segmentStart published =>
      obtain ⟨first, rest, rfl, begins⟩ := segmented.headed_open active
      exact announced_closed announced active begins late currentBuf rfl rfl published

/-- A step keeps all changes announced exactly if it is allowed. -/
theorem announced_step
    {format : SecondsFormat}
    {input : List Frame}
    {l next : Loop}
    {label : LoopStep}
    (segmented : l.Segmented input)
    (announced : l.Announced)
    (taken : l.step format label = some next) :
    next.Announced ↔ l.AllowsChange label := by
  rcases step_cases taken with ⟨f, now, rfl, handles⟩ | ⟨none, quiet⟩
  · exact announced_handles segmented announced handles
  · refine iff_of_true ((announced_quiet quiet).mpr announced) ?_
    cases label with
    | frame f now => cases none
    | _ => trivial

end Loop

/-- All along a run, every change of the parameters between successive keyframes
is announced by the segment that begins with the later one, exactly if every
keyframe that finds other parameters closes the open segment, and every keyframe
that closes a segment which began with other parameters finds a discontinuity
pending. -/
theorem changes_announced_iff
    (format : SecondsFormat)
    (maxSegments : Option Int)
    (now : Int64)
    (codecParams : Option CodecParams)
    (labels : List LoopStep)
    {finish : Loop}
    (reached : run (Loop.step format)
      (Loop.start (newMuxer maxSegments now) codecParams) labels = some finish) :
    Always (Loop.step format) Loop.Announced
        (Loop.start (newMuxer maxSegments now) codecParams) labels ↔
      Meets (Loop.step format) Loop.AllowsChange
        (Loop.start (newMuxer maxSegments now) codecParams) labels := by
  have invariantStep : ∀ (l : Loop) label next, (∃ input, l.Segmented input) →
      l.step format label = some next → ∃ input, next.Segmented input :=
    fun _ _ _ ⟨_, segmented⟩ taken => ⟨_, segmented.step taken⟩
  have exactStep : ∀ (l : Loop) label next, (∃ input, l.Segmented input) →
      l.Announced → l.step format label = some next →
      (next.Announced ↔ l.AllowsChange label) :=
    fun _ _ _ ⟨_, segmented⟩ announced taken =>
      Loop.announced_step segmented announced taken
  exact always_iff_meets invariantStep exactStep
    ⟨[], Loop.segmented_start maxSegments now codecParams⟩ List.IsChain.nil reached

/-- The parameters change before the second and before the third of four keyframes,
and the fourth one finds the first ones again. -/
def reconfigured : List LoopStep :=
  [.poll, .frame (keyframeAt 0) 1, .setParams none (some [103, 1]) (some [104]),
    .poll, .frame (keyframeAt 180000) 2, .setParams none (some [103, 2]) (some [104]),
    .poll, .frame (keyframeAt 360000) 3, .setParams none (some [103]) (some [104]),
    .poll, .frame (keyframeAt 540000) 4]

theorem changes_announced_iff_reconfigured :
    ∃ finish,
      run (Loop.step wholeSeconds)
        (Loop.start (newMuxer none 1) (some ⟨none, some [103], some [104]⟩)) reconfigured =
          some finish ∧
      finish.published.map Publication.isDiscontinuity = [true, true, true] ∧
      Always (Loop.step wholeSeconds) Loop.Announced
        (Loop.start (newMuxer none 1) (some ⟨none, some [103], some [104]⟩))
        reconfigured := by
  refine ⟨_, rfl, by decide, ?_⟩
  refine (changes_announced_iff wholeSeconds none 1 (some ⟨none, some [103], some [104]⟩)
    reconfigured rfl).mpr ?_
  decide

/-- The parameters change before the second of three keyframes, each two seconds
after the other: the segment before the change is published as a discontinuity,
and the one that begins with it is not. -/
theorem change_not_announced :
    ∃ finish,
      run (Loop.step wholeSeconds)
        (Loop.start (newMuxer none 1) (some ⟨none, some [103], some [104]⟩))
        [.poll, .frame (keyframeAt 0) 1, .setParams none (some [103, 1]) (some [104]),
          .poll, .frame (keyframeAt 180000) 2, .poll, .frame (keyframeAt 360000) 3] =
          some finish ∧
      finish.published.map Publication.isDiscontinuity = [true, false] ∧
      ¬ finish.Announced := by
  refine ⟨_, rfl, ?_, ?_⟩
  · decide
  · decide

end Hls
end RuseonCore
