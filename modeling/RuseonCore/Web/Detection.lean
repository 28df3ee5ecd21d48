import RuseonCore.Foundation.Greedy
import Mathlib.Data.List.Sort

/-!
# Suppression of overlapping detections

Model of `applyNms` and `calculateIou` in `web/src/v2/ai/inference.ts`.  Detections are
sorted by descending score, by the stable sort of the language, and then taken
greedily: each one that is taken removes those behind it that overlap with it too
much, and at most fifteen are taken.

The overlap is a parameter of the suppression, with values in any order.  The message
on the console is left out.
-/

namespace RuseonCore
namespace Detector

/-- A box with the coordinates of two corners, its score, and its class. -/
structure RawDetection (K : Type*) where
  x1 : K
  y1 : K
  x2 : K
  y2 : K
  score : K
  classId : Nat
  deriving DecidableEq

/-- Limit on the detections of a frame. -/
def maxDetections : Nat := 15

/-- Intersection over union of two boxes, with whatever arithmetic. -/
def calculateIou {K : Type*} [Add K] [Sub K] [Mul K] [Div K] [Max K] [Min K] [BEq K]
    [OfNat K 0] (a b : RawDetection K) : K :=
  let interX1 := max a.x1 b.x1
  let interY1 := max a.y1 b.y1
  let interX2 := min a.x2 b.x2
  let interY2 := min a.y2 b.y2
  let interW := max 0 (interX2 - interX1)
  let interH := max 0 (interY2 - interY1)
  let interArea := interW * interH
  let areaA := (a.x2 - a.x1) * (a.y2 - a.y1)
  let areaB := (b.x2 - b.x1) * (b.y2 - b.y1)
  if areaA == 0 || areaB == 0 then 0
  else interArea / (areaA + areaB - interArea)

section

variable {Det Score Overlap : Type*} [LinearOrder Score] [LinearOrder Overlap]
variable (score : Det → Score) (iou : Det → Det → Overlap) (nmsThreshold : Overlap)

/-- Detections that do not overlap with the best one beyond the threshold. -/
def remaining (best : Det) (others : List Det) : List Det :=
  others.filter fun det => iou best det ≤ nmsThreshold

/-- The loop: the sorted detections that remain, and those that are kept. -/
def suppress (sorted kept : List Det) : List Det :=
  match sorted with
  | [] => kept
  | best :: others =>
      if kept.length < maxDetections then
        suppress (remaining iou nmsThreshold best others) (kept ++ [best])
      else kept
termination_by sorted.length
decreasing_by
  rw [List.length_cons]
  exact Nat.lt_succ_of_le (List.length_filter_le _ _)

def applyNms (detections : List Det) : List Det :=
  if detections.isEmpty then []
  else
    let sorted := detections.mergeSort fun a b => score b ≤ score a
    suppress iou nmsThreshold sorted []

variable {score iou nmsThreshold}

/-- The loop selects greedily up to the limit. -/
theorem suppress_eq_select
    (sorted kept : List Det)
    {room : Nat}
    (free : kept.length + room = maxDetections) :
    suppress iou nmsThreshold sorted kept =
      kept ++ Greedy.select (fun best det => iou best det ≤ nmsThreshold) room sorted := by
  induction room generalizing sorted kept with
  | zero =>
      rw [Greedy.select, List.append_nil, suppress.eq_def]
      split
      · rfl
      · rw [if_neg (by omega)]
  | succ room inductionHypothesis =>
      rw [suppress.eq_def]
      split
      · rw [Greedy.select_nil, List.append_nil]
      · rename_i best others
        have later := inductionHypothesis (remaining iou nmsThreshold best others)
          (kept ++ [best]) (by rw [List.length_append, List.length_singleton]; omega)
        rw [if_pos (by omega), Greedy.select, later, List.append_assoc]
        rfl

theorem applyNms_eq_select (detections : List Det) :
    applyNms score iou nmsThreshold detections =
      Greedy.select (fun best det => iou best det ≤ nmsThreshold) maxDetections
        (detections.mergeSort fun a b => score b ≤ score a) := by
  unfold applyNms
  split
  · rename_i empty
    rw [List.isEmpty_iff.mp empty, List.mergeSort_nil, Greedy.select_nil]
  · exact suppress_eq_select _ [] rfl

theorem pairwise_sorted (detections : List Det) :
    (detections.mergeSort fun a b => score b ≤ score a).Pairwise fun a b =>
      score b ≤ score a := by
  have transitive : IsTrans Det fun a b => score b ≤ score a :=
    ⟨fun a b c first second => second.trans first⟩
  have total : Std.Total fun a b : Det => score b ≤ score a :=
    ⟨fun a b => le_total (score b) (score a)⟩
  exact List.pairwise_mergeSort' _ detections

theorem length_applyNms_le (detections : List Det) :
    (applyNms score iou nmsThreshold detections).length ≤ maxDetections := by
  rw [applyNms_eq_select]
  exact Greedy.length_select_le _ _

/-- No detection overlaps beyond the threshold with one that is kept before it. -/
theorem pairwise_applyNms (detections : List Det) :
    (applyNms score iou nmsThreshold detections).Pairwise fun a b =>
      iou a b ≤ nmsThreshold := by
  rw [applyNms_eq_select]
  exact (Greedy.pairwise_select _ _).imp of_decide_eq_true

variable (score iou nmsThreshold)

/-- The detections are split into those that are kept and those that are left out.  The
former are at most fifteen, in descending order, and do not overlap beyond the
threshold.  The latter overlap with one that is kept and scores at least as high, or
there are fifteen such ones. -/
structure Selects (detections kept : List Det) : Prop where
  ordered : kept.Pairwise fun a b => score b ≤ score a
  few : kept.length ≤ 15
  apart : kept.Pairwise fun a b => iou a b ≤ nmsThreshold
  apartEitherWay : (∀ a b, iou a b = iou b a) →
    kept.Pairwise fun a b => iou a b ≤ nmsThreshold ∧ iou b a ≤ nmsThreshold
  leavesOut : ∃ leftOut, detections.Perm (kept ++ leftOut) ∧
    ∀ det ∈ leftOut,
      (∃ best ∈ kept, nmsThreshold < iou best det ∧ score det ≤ score best) ∨
      (kept.length = 15 ∧ ∀ best ∈ kept, score det ≤ score best)

end

/-- The suppression keeps the best detections that do not overlap. -/
theorem applyNms_selects
    {Det Score Overlap : Type*}
    [LinearOrder Score]
    [LinearOrder Overlap]
    (score : Det → Score)
    (iou : Det → Det → Overlap)
    (nmsThreshold : Overlap)
    (detections : List Det) :
    Selects score iou nmsThreshold detections
      (applyNms score iou nmsThreshold detections) := by
  have few := @length_applyNms_le _ _ _ _ _ score iou nmsThreshold detections
  have apart := @pairwise_applyNms _ _ _ _ _ score iou nmsThreshold detections
  have ordered := @pairwise_sorted _ _ _ score detections
  rw [applyNms_eq_select] at few apart ⊢
  refine ⟨ordered.sublist (Greedy.select_sublist _ _), few, apart, ?_, ?_⟩
  · intro symmetric
    apply apart.imp
    intro a b below
    exact ⟨below, symmetric a b ▸ below⟩
  · obtain ⟨rejected, split, reasons⟩ := @Greedy.exists_rejected _
      (fun best det => iou best det ≤ nmsThreshold) _ maxDetections _ ordered
    refine ⟨rejected, (List.mergeSort_perm _ _).symm.trans split, ?_⟩
    intro det member
    rcases reasons det member with ⟨best, isKept, preferred, clash⟩ | full
    · exact .inl ⟨best, isKept, not_le.mp (of_decide_eq_false clash), preferred⟩
    · exact .inr full

end Detector
end RuseonCore
