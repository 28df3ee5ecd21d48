import RuseonCore.Foundation.Cohorts
import RuseonCore.Web.Detection

/-!
# Smoothed detections

Model of `applyEmaSmoothing` in `web/src/v2/ai/inference.ts`.  The detector remembers
tracks.  Every detection of a frame absorbs the track of its class that it overlaps
with most, if any is left, and becomes a track of age zero; a track that no detection
absorbs grows older by one, up to a limit.

Nothing here depends on the laws of arithmetic: the numbers are of any type with the
operations that are used, such as the doubles of the language.
-/

namespace RuseonCore
namespace Detector

/-- A track: the smoothed box and score of a detection, and the number of frames since
it was last seen. -/
structure SmoothedDetection (K : Type*) where
  bbox : K × K × K × K
  score : K
  classId : Nat
  age : Nat
  deriving DecidableEq

/-- The options that the detector uses behind the network. -/
structure Options (K : Type*) where
  nmsThreshold : K
  emaAlpha : K
  maxAge : Nat

section Tracks

variable {K : Type*}

/-- A track as `calculateIou` reads it. -/
def SmoothedDetection.raw (old : SmoothedDetection K) : RawDetection K where
  x1 := old.bbox.1
  y1 := old.bbox.2.1
  x2 := old.bbox.2.2.1
  y2 := old.bbox.2.2.2
  score := old.score
  classId := old.classId

/-- Track of a detection without a match. -/
def fresh (det : RawDetection K) : SmoothedDetection K where
  bbox := (det.x1, det.y1, det.x2, det.y2)
  score := det.score
  classId := det.classId
  age := 0

/-- Tracks that were not absorbed, a frame older. -/
def unmatched
    (maxAge : Nat)
    (tracks : List (SmoothedDetection K))
    (matchedOld : List Nat) : List (SmoothedDetection K) :=
  tracks.zipIdx.filterMap fun (old, i) =>
    if i ∉ matchedOld then
      if old.age + 1 ≤ maxAge then some { old with age := old.age + 1 } else none
    else none

/-- Those that are absorbed or too old are missing, the others keep their order. -/
theorem unmatched_eq
    (maxAge : Nat)
    (tracks : List (SmoothedDetection K))
    (matchedOld : List Nat) :
    unmatched maxAge tracks matchedOld =
      (tracks.zipIdx.filter fun (old, i) =>
        i ∉ matchedOld ∧ old.age + 1 ≤ maxAge).map fun (old, _) =>
          { old with age := old.age + 1 } := by
  rw [unmatched, ← List.filterMap_eq_map, ← List.filterMap_eq_filter, List.filterMap_filterMap]
  congr 1
  funext entry
  by_cases free : entry.2 ∈ matchedOld <;> by_cases young : entry.1.age + 1 ≤ maxAge <;>
    simp [Option.guard, free, young]

theorem ages_unmatched_sublist
    (maxAge : Nat)
    (tracks : List (SmoothedDetection K))
    (matchedOld : List Nat) :
    ((unmatched maxAge tracks matchedOld).map SmoothedDetection.age).Sublist
      ((tracks.map SmoothedDetection.age).map Nat.succ) := by
  have all : (tracks.map SmoothedDetection.age).map Nat.succ =
      tracks.zipIdx.map fun entry => entry.1.age + 1 := by
    conv_lhs => rw [← List.zipIdx_map_fst 0 tracks]
    rw [List.map_map, List.map_map]
    rfl
  rw [unmatched_eq, List.map_map, all]
  exact List.filter_sublist.map _

theorem age_of_mem_unmatched
    {maxAge : Nat}
    {tracks : List (SmoothedDetection K)}
    {matchedOld : List Nat}
    {track : SmoothedDetection K}
    (member : track ∈ unmatched maxAge tracks matchedOld) :
    track.age ≠ 0 ∧ track.age ≤ maxAge := by
  rw [unmatched_eq] at member
  obtain ⟨entry, kept, rfl⟩ := List.mem_map.mp member
  have young := (List.mem_filter.mp kept).2
  simp only [decide_eq_true_eq] at young
  exact ⟨Nat.succ_ne_zero _, young.2⟩

end Tracks

/-! ## Matching -/

section Matching

variable {K : Type*} [Add K] [Sub K] [Mul K] [Div K] [Max K] [Min K] [BEq K] [LT K]
variable [DecidableLT K] [OfNat K 0] [OfScientific K]

/-- The best match so far, as an index with its track, and its overlap. -/
abbrev Best (K : Type*) := Option (Nat × SmoothedDetection K) × K

/-- Compare one track with the best match so far. -/
def compareTrack
    (matchedOld : List Nat)
    (det : RawDetection K)
    (best : Best K)
    (entry : SmoothedDetection K × Nat) : Best K :=
  let (old, i) := entry
  if i ∈ matchedOld then best
  else if old.classId ≠ det.classId then best
  else
    let iou := calculateIou det old.raw
    if iou > best.2 then (some (i, old), iou) else best

/-- The track that a detection absorbs. -/
def bestMatch
    (tracks : List (SmoothedDetection K))
    (matchedOld : List Nat)
    (det : RawDetection K) : Option (Nat × SmoothedDetection K) :=
  (tracks.zipIdx.foldl (compareTrack matchedOld det) (none, 0.3)).1

/-- The best match is a free track of the class of the detection. -/
def Suitable
    (tracks : List (SmoothedDetection K))
    (matchedOld : List Nat)
    (det : RawDetection K)
    (best : Best K) : Prop :=
  ∀ i old, best.1 = some (i, old) →
    tracks[i]? = some old ∧ i ∉ matchedOld ∧ old.classId = det.classId

theorem suitable_bestMatch
    (tracks : List (SmoothedDetection K))
    (matchedOld : List Nat)
    (det : RawDetection K) :
    Suitable tracks matchedOld det
      (tracks.zipIdx.foldl (compareTrack matchedOld det) (none, 0.3)) := by
  have initial : Suitable tracks matchedOld det (none, 0.3) := by
    intro i old isBest
    cases isBest
  apply List.foldlRecOn _ _ initial
  rintro best before ⟨track, position⟩ member
  unfold compareTrack
  dsimp only
  split
  · exact before
  · rename_i free
    split
    · exact before
    · rename_i sameClass
      split
      · intro i old isBest
        obtain ⟨rfl, rfl⟩ := Prod.mk.inj (Option.some.inj isBest)
        exact ⟨List.mem_zipIdx_iff_getElem?.mp member, free, not_not.mp sameClass⟩
      · exact before

end Matching

/-! ## Calls -/

section Calls

variable {K : Type*} [Add K] [Sub K] [Mul K] [OfNat K 1]

/-- Track of a detection that absorbs an old one. -/
def blend (alpha : K) (old : SmoothedDetection K) (det : RawDetection K) :
    SmoothedDetection K where
  bbox :=
    (old.bbox.1 * (1 - alpha) + det.x1 * alpha,
      old.bbox.2.1 * (1 - alpha) + det.y1 * alpha,
      old.bbox.2.2.1 * (1 - alpha) + det.x2 * alpha,
      old.bbox.2.2.2 * (1 - alpha) + det.y2 * alpha)
  score := old.score * (1 - alpha) + det.score * alpha
  classId := det.classId
  age := 0

/-- What a detection comes to: the index of the track that it absorbs, if any, and its
new track. -/
def Absorbs
    (alpha : K)
    (tracks : List (SmoothedDetection K))
    (det : RawDetection K)
    (outcome : Option Nat × SmoothedDetection K) : Prop :=
  match outcome.1 with
  | none => outcome.2 = fresh det
  | some i =>
      ∃ old, tracks[i]? = some old ∧ old.classId = det.classId ∧
        outcome.2 = blend alpha old det

/-- Indices of the tracks that are absorbed. -/
def absorbed (outcomes : List (Option Nat × SmoothedDetection K)) : List Nat :=
  outcomes.filterMap Prod.fst

/-- The new tracks are of age zero. -/
theorem ages_outcomes
    {alpha : K}
    {tracks : List (SmoothedDetection K)}
    {detections : List (RawDetection K)}
    {outcomes : List (Option Nat × SmoothedDetection K)}
    (matched : List.Forall₂ (Absorbs alpha tracks) detections outcomes) :
    (outcomes.map Prod.snd).map SmoothedDetection.age =
      List.replicate detections.length 0 := by
  induction matched with
  | nil => rfl
  | @cons det outcome detections outcomes absorbs matched inductionHypothesis =>
      have zero : outcome.2.age = 0 := by
        obtain ⟨_ | i, track⟩ := outcome
        · exact congrArg SmoothedDetection.age absorbs
        · obtain ⟨old, -, -, rfl⟩ := absorbs
          rfl
      rw [List.map_cons, List.map_cons, inductionHypothesis, zero, List.length_cons,
        List.replicate_succ]

variable [Div K] [Max K] [Min K] [BEq K] [LT K] [DecidableLT K] [OfNat K 0] [OfScientific K]

/-- One detection; the state holds the indices of the absorbed tracks and the new
tracks. -/
def absorb
    (alpha : K)
    (tracks : List (SmoothedDetection K))
    (state : List Nat × List (SmoothedDetection K))
    (det : RawDetection K) : List Nat × List (SmoothedDetection K) :=
  match bestMatch tracks state.1 det with
  | some (i, old) => (state.1 ++ [i], state.2 ++ [blend alpha old det])
  | none => (state.1, state.2 ++ [fresh det])

def applyEmaSmoothing
    (options : Options K)
    (tracks : List (SmoothedDetection K))
    (detections : List (RawDetection K)) : List (SmoothedDetection K) :=
  let (matchedOld, newSmoothed) :=
    detections.foldl (absorb options.emaAlpha tracks) ([], [])
  newSmoothed ++ unmatched options.maxAge tracks matchedOld

/-- Tracks after calls with the given detections. -/
def tracksAfter (options : Options K) (calls : List (List (RawDetection K))) :
    List (SmoothedDetection K) :=
  calls.foldl (applyEmaSmoothing options) []

/-- A call in terms of the outcomes of its detections. -/
structure Smooths
    (options : Options K)
    (tracks : List (SmoothedDetection K))
    (detections : List (RawDetection K))
    (outcomes : List (Option Nat × SmoothedDetection K))
    (next : List (SmoothedDetection K)) : Prop where
  matched : List.Forall₂ (Absorbs options.emaAlpha tracks) detections outcomes
  once : (absorbed outcomes).Nodup
  newest : (next.filter fun track => track.age = 0) = outcomes.map Prod.snd
  older : (next.filter fun track => track.age ≠ 0) =
    (tracks.zipIdx.filter fun (old, i) =>
      i ∉ absorbed outcomes ∧ old.age + 1 ≤ options.maxAge).map fun (old, _) =>
        { old with age := old.age + 1 }
  order : next = (next.filter fun track => track.age = 0) ++
    next.filter fun track => track.age ≠ 0

/-- The loop over the detections. -/
theorem exists_outcomes
    (alpha : K)
    (tracks : List (SmoothedDetection K))
    (detections : List (RawDetection K)) :
    ∃ outcomes, List.Forall₂ (Absorbs alpha tracks) detections outcomes ∧
      (absorbed outcomes).Nodup ∧
      detections.foldl (absorb alpha tracks) ([], []) =
        (absorbed outcomes, outcomes.map Prod.snd) := by
  induction detections using List.reverseRecOn with
  | nil => exact ⟨[], List.Forall₂.nil, List.nodup_nil, rfl⟩
  | append_singleton detections det inductionHypothesis =>
      obtain ⟨outcomes, matched, once, folded⟩ := inductionHypothesis
      rw [List.foldl_append, folded, List.foldl_cons, List.foldl_nil, absorb]
      cases found : bestMatch tracks (absorbed outcomes) det with
      | none =>
          refine ⟨outcomes ++ [(none, fresh det)], ?_, ?_, ?_⟩
          · exact List.rel_append matched (.cons rfl .nil)
          · simpa [absorbed] using once
          · simp [absorbed]
      | some best =>
          obtain ⟨i, old⟩ := best
          obtain ⟨present, free, sameClass⟩ := suitable_bestMatch tracks _ det i old found
          refine ⟨outcomes ++ [(some i, blend alpha old det)], ?_, ?_, ?_⟩
          · exact List.rel_append matched (.cons ⟨old, present, sameClass, rfl⟩ .nil)
          · have all : absorbed (outcomes ++ [(some i, blend alpha old det)]) =
                absorbed outcomes ++ [i] := by
              simp [absorbed]
            rw [all]
            exact List.nodup_append_comm.mp (List.nodup_cons.mpr ⟨free, once⟩)
          · simp [absorbed]

/-- A call consists of the outcomes of its detections and the tracks that are left. -/
theorem applyEmaSmoothing_eq
    (options : Options K)
    (tracks : List (SmoothedDetection K))
    (detections : List (RawDetection K)) :
    ∃ outcomes, List.Forall₂ (Absorbs options.emaAlpha tracks) detections outcomes ∧
      (absorbed outcomes).Nodup ∧
      applyEmaSmoothing options tracks detections =
        outcomes.map Prod.snd ++ unmatched options.maxAge tracks (absorbed outcomes) := by
  obtain ⟨outcomes, matched, once, folded⟩ :=
    exists_outcomes options.emaAlpha tracks detections
  refine ⟨outcomes, matched, once, ?_⟩
  rw [applyEmaSmoothing, folded]

theorem smooths_applyEmaSmoothing
    (options : Options K)
    (tracks : List (SmoothedDetection K))
    (detections : List (RawDetection K)) :
    ∃ outcomes, Smooths options tracks detections outcomes
      (applyEmaSmoothing options tracks detections) := by
  obtain ⟨outcomes, matched, once, result⟩ := applyEmaSmoothing_eq options tracks detections
  have zero : ∀ track ∈ outcomes.map Prod.snd, track.age = 0 := by
    intro track member
    have inAges : track.age ∈ _ := List.mem_map_of_mem member
    rw [ages_outcomes matched] at inAges
    exact List.eq_of_mem_replicate inAges
  have positive : ∀ track ∈ unmatched options.maxAge tracks (absorbed outcomes),
      track.age ≠ 0 := fun track member => (age_of_mem_unmatched member).1
  have newest : ((applyEmaSmoothing options tracks detections).filter
      fun track => track.age = 0) = outcomes.map Prod.snd := by
    rw [result, List.filter_append, List.filter_eq_self.mpr (by simpa using zero),
      List.filter_eq_nil_iff.mpr (by simpa using positive), List.append_nil]
  have older : ((applyEmaSmoothing options tracks detections).filter
      fun track => track.age ≠ 0) =
        unmatched options.maxAge tracks (absorbed outcomes) := by
    rw [result, List.filter_append, List.filter_eq_nil_iff.mpr (by simpa using zero),
      List.filter_eq_self.mpr (by simpa using positive), List.nil_append]
  refine ⟨outcomes, matched, once, newest, ?_, ?_⟩
  · rw [older, unmatched_eq]
  · rw [newest, older]
    exact result

/-! ## Sequences of calls -/

/-- At most fifteen tracks of each age up to the limit. -/
def AgesBounded (options : Options K) (tracks : List (SmoothedDetection K)) : Prop :=
  Cohorts.Bounded maxDetections options.maxAge (tracks.map SmoothedDetection.age)

theorem AgesBounded.applyEmaSmoothing
    {options : Options K}
    {tracks : List (SmoothedDetection K)}
    (bounded : AgesBounded options tracks)
    {detections : List (RawDetection K)}
    (few : detections.length ≤ maxDetections) :
    AgesBounded options (applyEmaSmoothing options tracks detections) := by
  obtain ⟨outcomes, matched, -, result⟩ := applyEmaSmoothing_eq options tracks detections
  rw [AgesBounded, result, List.map_append, ages_outcomes matched]
  apply Cohorts.Bounded.step bounded few (ages_unmatched_sublist _ _ _)
  intro age member
  obtain ⟨track, isUnmatched, rfl⟩ := List.mem_map.mp member
  exact (age_of_mem_unmatched isUnmatched).2

theorem length_tracksAfter_le
    (options : Options K)
    {calls : List (List (RawDetection K))}
    (few : ∀ detections ∈ calls, detections.length ≤ maxDetections) :
    (tracksAfter options calls).length ≤ maxDetections * (options.maxAge + 1) := by
  have bounded : AgesBounded options (tracksAfter options calls) := by
    refine List.foldlRecOn (motive := AgesBounded options) calls _ Cohorts.bounded_nil ?_
    intro tracks before detections member
    exact before.applyEmaSmoothing (few detections member)
  have length := Cohorts.Bounded.length_le bounded
  rwa [List.length_map] at length

end Calls

/-- In every sequence of calls with at most fifteen detections each, every call matches
its detections with tracks of their class, each at most once; its tracks of age zero
are those of the detections in their order, and the others are those that were not
absorbed and not too old.  There are never more than fifteen tracks for each age. -/
theorem emaSmoothing_tracks
    {K : Type*}
    [Add K] [Sub K] [Mul K] [Div K] [Max K] [Min K] [BEq K] [LT K] [DecidableLT K]
    [OfNat K 0] [OfNat K 1] [OfScientific K]
    (options : Options K)
    (calls : List (List (RawDetection K)))
    (few : ∀ detections ∈ calls, detections.length ≤ 15) :
    (∀ done, done <+: calls →
      (tracksAfter options done).length ≤ 15 * (options.maxAge + 1)) ∧
    (∀ done detections, done ++ [detections] <+: calls →
      ∃ outcomes, Smooths options (tracksAfter options done) detections outcomes
        (tracksAfter options (done ++ [detections]))) := by
  constructor
  · intro done isPrefix
    apply length_tracksAfter_le
    intro detections member
    exact few detections (isPrefix.subset member)
  · intro done detections _
    rw [tracksAfter, tracksAfter, List.foldl_append, List.foldl_cons, List.foldl_nil]
    exact smooths_applyEmaSmoothing options _ detections

/-- A car that moves to the right by a tenth of its width. -/
def movingCar (x : ℚ) : RawDetection ℚ where
  x1 := x
  y1 := 0
  x2 := x + 1
  y2 := 1
  score := 0.9
  classId := 2

/-- The defaults of the detector. -/
def defaultOptions : Options ℚ where
  nmsThreshold := 0.35
  emaAlpha := 0.35
  maxAge := 10

theorem emaSmoothing_tracks_movingCar :
    (tracksAfter defaultOptions [[movingCar 0], [movingCar 0.1], []]).map
        SmoothedDetection.age = [1] ∧
    (tracksAfter defaultOptions [[movingCar 0], [movingCar 0.1], []]).length ≤
      15 * (defaultOptions.maxAge + 1) ∧
    ∃ outcomes, Smooths defaultOptions (tracksAfter defaultOptions [[movingCar 0]])
      [movingCar 0.1] outcomes
      (tracksAfter defaultOptions [[movingCar 0], [movingCar 0.1]]) := by
  obtain ⟨bounded, smooths⟩ := emaSmoothing_tracks defaultOptions
    [[movingCar 0], [movingCar 0.1], []] (by decide)
  refine ⟨by decide +kernel, bounded _ List.prefix_rfl, ?_⟩
  exact smooths [[movingCar 0]] [movingCar 0.1] (by simp)

/-! ## Frames -/

/-- Tracks after a frame in which the network has found any number of boxes. -/
def detect {K : Type*} [Field K] [LinearOrder K]
    (options : Options K)
    (tracks : List (SmoothedDetection K))
    (rawDetections : List (RawDetection K)) : List (SmoothedDetection K) :=
  applyEmaSmoothing options tracks
    (applyNms RawDetection.score calculateIou options.nmsThreshold rawDetections)

/-- Whatever the network finds, the detector remembers a bounded number of tracks. -/
theorem length_detect_le {K : Type*} [Field K] [LinearOrder K]
    (options : Options K)
    (frames : List (List (RawDetection K))) :
    (frames.foldl (detect options) []).length ≤ maxDetections * (options.maxAge + 1) := by
  let suppressed := frames.map
    (applyNms RawDetection.score calculateIou options.nmsThreshold)
  have few : ∀ detections ∈ suppressed, detections.length ≤ maxDetections := by
    intro detections member
    obtain ⟨frame, -, rfl⟩ := List.mem_map.mp member
    exact length_applyNms_le frame
  have same : tracksAfter options suppressed = frames.foldl (detect options) [] := by
    rw [tracksAfter, List.foldl_map]
    rfl
  rw [← same]
  exact length_tracksAfter_le options few

end Detector
end RuseonCore
