import RuseonCore.Hls.Segmentation

/-!
# Parameter sets in front of keyframes

`Muxer.run` puts the parameter sets in force in front of a keyframe, so that a
player can set up its decoder at every segment.  It leaves them out if the access
unit brings a parameter set of its own, whichever it is: an access unit with some
of the sets only is written without the others.
-/

namespace RuseonCore
namespace Hls

open Buffer Transition

/-! ## Types of NAL units -/

/-- Type of a NAL unit, for the codec that the parameters tell. -/
def nalType (params : CodecParams) : List UInt8 → Option UInt8
  | [] => none
  | head :: _ => some (if params.vps.isSome then (head >>> 1) &&& 0x3F else head &&& 0x1F)

/-- Types of the parameter sets: VPS, SPS and PPS for H.265, and SPS and PPS for
H.264. -/
def setTypes (params : CodecParams) : List UInt8 :=
  if params.vps.isSome then [32, 33, 34] else [7, 8]

/-- The NAL units hold one of the type. -/
def Holds (params : CodecParams) (nalus : List (List UInt8)) (typ : UInt8) : Prop :=
  ∃ nalu ∈ nalus, nalType params nalu = some typ

/-- All parameter sets are there. -/
def Initialises (params : CodecParams) (nalus : List (List UInt8)) : Prop :=
  ∀ typ ∈ setTypes params, Holds params nalus typ

/-- No parameter set is there. -/
def Bare (params : CodecParams) (nalus : List (List UInt8)) : Prop :=
  ∀ typ ∈ setTypes params, ¬ Holds params nalus typ

/-- The parameter sets in the order in which they are put in front. -/
def storedSets (params : CodecParams) : List (List UInt8) :=
  params.vps.toList ++ params.sps.toList ++ params.pps.toList

/-- SPS and PPS are known, and the stored sets have their types. -/
def Stored (params : CodecParams) : Prop :=
  params.sps.isSome ∧ params.pps.isSome ∧
    (storedSets params).map (nalType params) = (setTypes params).map some

instance (params : CodecParams) : Decidable (Stored params) :=
  inferInstanceAs (Decidable (_ ∧ _ ∧ _))

instance (params : CodecParams) (nalus : List (List UInt8)) (typ : UInt8) :
    Decidable (Holds params nalus typ) :=
  List.decidableBEx (fun nalu => nalType params nalu = some typ) nalus

instance (params : CodecParams) (nalus : List (List UInt8)) :
    Decidable (Initialises params nalus) :=
  List.decidableBAll (Holds params nalus) (setTypes params)

instance (params : CodecParams) (nalus : List (List UInt8)) :
    Decidable (Bare params nalus) :=
  List.decidableBAll (fun typ => ¬ Holds params nalus typ) (setTypes params)

/-- The scan of the access unit finds a parameter set exactly if there is one. -/
theorem hasParams_eq_true_iff (params : CodecParams) (nalus : List (List UInt8)) :
    hasParams params nalus = true ↔ ∃ typ ∈ setTypes params, Holds params nalus typ := by
  have each : ∀ nalu : List UInt8,
      (match nalu with
        | [] => false
        | head :: _ =>
            if params.vps.isSome then
              let typ := (head >>> 1) &&& 0x3F
              typ == 32 || typ == 33 || typ == 34
            else
              let typ := head &&& 0x1F
              typ == 7 || typ == 8) = true ↔
        ∃ typ ∈ setTypes params, nalType params nalu = some typ := by
    intro nalu
    cases nalu with
    | nil => simp [nalType]
    | cons head rest =>
        cases isH265 : params.vps.isSome <;> simp [nalType, setTypes, isH265, or_assoc]
  rw [hasParams, List.any_eq_true]
  constructor
  · rintro ⟨nalu, member, isSet⟩
    obtain ⟨typ, isTyp, same⟩ := (each nalu).mp isSet
    exact ⟨typ, isTyp, nalu, member, same⟩
  · rintro ⟨typ, isTyp, nalu, member, same⟩
    exact ⟨nalu, member, (each nalu).mpr ⟨typ, isTyp, same⟩⟩

/-- The sets that are put in front are complete. -/
theorem initialises_of_stored
    {params : CodecParams}
    (stored : Stored params)
    (nalus : List (List UInt8)) :
    Initialises params (storedSets params ++ nalus) := by
  intro typ member
  have listed : some typ ∈ (storedSets params).map (nalType params) := by
    rw [stored.2.2]
    exact List.mem_map_of_mem member
  obtain ⟨nalu, within, isType⟩ := List.mem_map.mp listed
  exact ⟨nalu, List.mem_append_left nalus within, isType⟩

/-- What is written for a keyframe. -/
theorem muxedNalus_of_stored
    {params : CodecParams}
    (stored : Stored params)
    {f : Frame}
    (key : f.isKeyFrame = true) :
    muxedNalus params f =
      if hasParams params f.nalus then f.nalus else storedSets params ++ f.nalus := by
  obtain ⟨sps, isSps⟩ := Option.isSome_iff_exists.mp stored.1
  obtain ⟨pps, isPps⟩ := Option.isSome_iff_exists.mp stored.2.1
  rw [muxedNalus, storedSets, isSps, isPps]
  cases hasParams params f.nalus <;> simp [key]

/-- A keyframe is written with all parameter sets exactly if its access unit
brings all of them or none. -/
theorem initialises_muxedNalus_iff
    {params : CodecParams}
    (stored : Stored params)
    {f : Frame}
    (key : f.isKeyFrame = true) :
    Initialises params (muxedNalus params f) ↔
      Bare params f.nalus ∨ Initialises params f.nalus := by
  rw [muxedNalus_of_stored stored key]
  by_cases found : hasParams params f.nalus = true
  · have notBare : ¬ Bare params f.nalus := by
      obtain ⟨typ, isTyp, held⟩ := (hasParams_eq_true_iff params f.nalus).mp found
      intro bare
      exact bare typ isTyp held
    rw [if_pos found, or_iff_right notBare]
  · have bare : Bare params f.nalus := by
      intro typ isTyp held
      exact found ((hasParams_eq_true_iff params f.nalus).mpr ⟨typ, isTyp, held⟩)
    rw [if_neg found]
    exact iff_of_true (initialises_of_stored stored f.nalus) (.inl bare)

/-! ## Runs -/

/-- A player can set up its decoder at the frame, if it is a keyframe that was
muxed with stored parameter sets. -/
def MuxedFrame.Starts (m : MuxedFrame) : Prop :=
  m.frame.isKeyFrame = true → Stored m.params → Initialises m.params m.nalus

namespace Loop

/-- A player can set up its decoder at every keyframe that was muxed. -/
def Joinable (l : Loop) : Prop :=
  ∀ m ∈ l.contents.flatten, m.Starts

/-- A keyframe that is muxed with stored parameter sets brings all of them or
none. -/
def BringsWhole (l : Loop) : LoopStep → Prop
  | .frame f _ =>
      f.isKeyFrame = true → Stored (l.forced f) →
        Bare (l.forced f) f.nalus ∨ Initialises (l.forced f) f.nalus
  | _ => True

theorem starts_muxedFrame_iff
    (params : CodecParams)
    (f : Frame) :
    (muxedFrame params f).Starts ↔
      (f.isKeyFrame = true → Stored params →
        Bare params f.nalus ∨ Initialises params f.nalus) := by
  change (f.isKeyFrame = true → Stored params → Initialises params (muxedNalus params f)) ↔ _
  apply imp_congr_right
  intro key
  apply imp_congr_right
  intro stored
  exact initialises_muxedNalus_iff stored key

/-- A frame is muxed behind those before it; only a delta frame may be skipped. -/
theorem contents_handles
    {l next : Loop}
    {f : Frame}
    (handles : l.Handles f next) :
    next.contents.flatten = l.contents.flatten ++ [muxedFrame (l.forced f) f] ∨
      (f.isKeyFrame = false ∧ next.contents.flatten = l.contents.flatten) := by
  cases handles with
  | skipped idle delta quiet =>
      right
      rw [contents, contents, quiet.published, quiet.currentBuf]
      exact ⟨delta, rfl⟩
  | opened idle key currentBuf segmentStart published =>
      left
      simp [contents, published, currentBuf, idle]
  | extended content active early currentBuf segmentStart published =>
      left
      simp [contents, published, currentBuf, active]
  | closed content active late currentBuf segmentStart published =>
      left
      simp [contents, published, currentBuf, active]

/-- A step leaves every keyframe joinable exactly if the frame that it muxes brings
all parameter sets or none. -/
theorem joinable_step
    {format : SecondsFormat}
    {l next : Loop}
    {label : LoopStep}
    (joinable : l.Joinable)
    (taken : l.step format label = some next) :
    next.Joinable ↔ l.BringsWhole label := by
  rcases step_cases taken with ⟨f, now, rfl, handles⟩ | ⟨none, quiet⟩
  · rw [Joinable]
    rcases contents_handles handles with muxed | ⟨delta, same⟩
    · rw [muxed, List.forall_mem_append, List.forall_mem_singleton, starts_muxedFrame_iff]
      exact and_iff_right joinable
    · rw [same]
      refine iff_of_true joinable ?_
      intro key
      rw [delta] at key
      cases key
  · have same : next.contents = l.contents := by
      rw [contents, contents, quiet.published, quiet.currentBuf]
    rw [Joinable, same]
    refine iff_of_true joinable ?_
    cases label with
    | frame f now => cases none
    | _ => trivial

instance (l : Loop) (label : LoopStep) : Decidable (l.BringsWhole label) :=
  match label with
  | .frame _ _ => inferInstanceAs (Decidable (_ → _ → _ ∨ _))
  | .setParams _ _ _ => inferInstanceAs (Decidable True)
  | .poll => inferInstanceAs (Decidable True)
  | .metadata _ => inferInstanceAs (Decidable True)
  | .metadataClosed => inferInstanceAs (Decidable True)
  | .halt => inferInstanceAs (Decidable True)
  | .serve _ => inferInstanceAs (Decidable True)

instance (l : Loop) : Decidable l.Joinable :=
  inferInstanceAs (Decidable (∀ m ∈ l.contents.flatten, _ → _ → _))

end Loop

/-- All along a run, every keyframe that was muxed with stored parameter sets is
written with all of them, exactly if every such keyframe brings all of them itself
or none. -/
theorem keyframes_initialise_iff
    (format : SecondsFormat)
    (maxSegments : Option Int)
    (now : Int64)
    (codecParams : Option CodecParams)
    (labels : List LoopStep)
    {finish : Loop}
    (reached : run (Loop.step format)
      (Loop.start (newMuxer maxSegments now) codecParams) labels = some finish) :
    Always (Loop.step format) Loop.Joinable
        (Loop.start (newMuxer maxSegments now) codecParams) labels ↔
      Meets (Loop.step format) Loop.BringsWhole
        (Loop.start (newMuxer maxSegments now) codecParams) labels := by
  have exactStep : ∀ (l : Loop) label next, l.Joinable →
      l.step format label = some next → (next.Joinable ↔ l.BringsWhole label) :=
    fun _ _ _ joinable taken => Loop.joinable_step joinable taken
  apply always_iff_meets_of_exact exactStep _ reached
  intro content member
  cases member

/-- An H.264 camera that sends both parameter sets with its first keyframe, and none
with the second. -/
def wholeSets : List LoopStep :=
  [.poll, .frame ⟨0, true, [[0x67, 1], [0x68, 2], [0x65, 3]]⟩ 1,
    .poll, .frame ⟨2000000000, true, [[0x65, 4]]⟩ 2]

theorem keyframes_initialise_iff_whole :
    ∃ finish,
      run (Loop.step wholeSeconds)
        (Loop.start (newMuxer none 1) (some ⟨none, some [0x67, 1], some [0x68, 2]⟩))
        wholeSets = some finish ∧
      Always (Loop.step wholeSeconds) Loop.Joinable
        (Loop.start (newMuxer none 1) (some ⟨none, some [0x67, 1], some [0x68, 2]⟩))
        wholeSets := by
  refine ⟨_, rfl, ?_⟩
  refine (keyframes_initialise_iff wholeSeconds none 1
    (some ⟨none, some [0x67, 1], some [0x68, 2]⟩) wholeSets rfl).mpr ?_
  decide

/-- The keyframe brings its SPS but not its PPS, and is written without one. -/
theorem keyframe_without_pps :
    ∃ finish,
      run (Loop.step wholeSeconds)
        (Loop.start (newMuxer none 1) (some ⟨none, some [0x67, 1], some [0x68, 2]⟩))
        [.poll, .frame ⟨0, true, [[0x67, 1], [0x65, 3]]⟩ 1] = some finish ∧
      Stored ⟨none, some [0x67, 1], some [0x68, 2]⟩ ∧
      finish.contents.flatten.map MuxedFrame.nalus = [[[0x67, 1], [0x65, 3]]] ∧
      ¬ finish.Joinable := by
  refine ⟨_, rfl, ?_, ?_, ?_⟩
  · decide
  · decide
  · decide

end Hls
end RuseonCore
