import Frcmob.Lib.Greedy
import Frcmob.Lib.Numerals
import Mathlib.Algebra.Order.Field.Rat
import Mathlib.Data.List.Sort

/-!
Non-maximum suppression on the device: `features/onDevice/yoloDecode.ts` in exact arithmetic.
-/

namespace Frcmob.OnDevice

structure Box (K : Type*) where
  x1 : K
  y1 : K
  x2 : K
  y2 : K
  score : K
deriving DecidableEq

variable {K : Type*} [LinearOrder K]

def iou [Field K] (a b : Box K) : K :=
  let ix1 := max a.x1 b.x1
  let iy1 := max a.y1 b.y1
  let ix2 := min a.x2 b.x2
  let iy2 := min a.y2 b.y2
  let iw := max 0 (ix2 - ix1)
  let ih := max 0 (iy2 - iy1)
  let inter := iw * ih
  let areaA := max 0 (a.x2 - a.x1) * max 0 (a.y2 - a.y1)
  let areaB := max 0 (b.x2 - b.x1) * max 0 (b.y2 - b.y1)
  let union := areaA + areaB - inter
  if union ≤ 0 then 0 else inter / union

/-- The higher score stands first, equal scores as they came. -/
def byScore (boxes : List (Box K)) : List (Box K) :=
  boxes.insertionSort fun a b => b.score ≤ a.score

def nms [Field K] (boxes : List (Box K)) (iouThreshold : K) : List (Box K) :=
  Greedy.select (fun box k => iou box k ≤ iouThreshold) (byScore boxes)

theorem iou_comm [Field K] (a b : Box K) : iou a b = iou b a := by
  simp only [iou, min_comm a.x2, max_comm a.x1, min_comm a.y2, max_comm a.y1,
    add_comm (max 0 (a.x2 - a.x1) * max 0 (a.y2 - a.y1))]

theorem byScore_sorted (boxes : List (Box K)) :
    (byScore boxes).Pairwise fun a b => b.score ≤ a.score :=
  @List.pairwise_insertionSort _ (fun a b : Box K => b.score ≤ a.score) _
    ⟨fun a b => le_total b.score a.score⟩ ⟨fun _ _ _ hab hbc => hbc.trans hab⟩ boxes

theorem nms_sorted [Field K] (boxes : List (Box K)) (t : K) :
    (nms boxes t).Pairwise fun a b => b.score ≤ a.score :=
  (byScore_sorted boxes).sublist (Greedy.select_sublist _ _)

/-- The boxes kept come in the order of their scores and overlap by at most the threshold; each
box dropped overlaps one of them, of at least its score, by more; and to suppress again changes
nothing. -/
theorem nms_spec [Field K] (boxes : List (Box K)) (t : K) :
    (nms boxes t).Pairwise (fun a b => b.score ≤ a.score) ∧
      (nms boxes t).Pairwise (fun a b => iou a b ≤ t ∧ iou b a ≤ t) ∧
      (∃ dropped, (nms boxes t ++ dropped).Perm boxes ∧
        ∀ box ∈ dropped, ∃ k ∈ nms boxes t, box.score ≤ k.score ∧ t < iou box k) ∧
      nms (nms boxes t) t = nms boxes t := by
  have hapart := Greedy.pairwise_select (fun box k => decide (iou box k ≤ t)) (byScore boxes)
  refine ⟨nms_sorted boxes t, ?_, ?_, ?_⟩
  · refine hapart.imp fun {a b} h => ?_
    have hle := of_decide_eq_true h
    exact ⟨iou_comm a b ▸ hle, hle⟩
  · obtain ⟨dropped, hperm, hdropped⟩ :=
      @Greedy.exists_dropped _ (fun box k => decide (iou box k ≤ t)) _ _ (byScore_sorted boxes)
    refine ⟨dropped, hperm.trans (List.perm_insertionSort _ _), fun box hbox => ?_⟩
    obtain ⟨k, hk, hscore, hiou⟩ := hdropped box hbox
    exact ⟨k, hk, hscore, not_le.mp (of_decide_eq_false hiou)⟩
  · have hsorted : byScore (nms boxes t) = nms boxes t :=
      @List.Pairwise.insertionSort_eq _ (fun a b : Box K => b.score ≤ a.score) _ _
        (nms_sorted boxes t)
    rw [nms, hsorted]
    exact Greedy.select_eq_self hapart

example : nms [(⟨0, 0, 1, 1, 3⟩ : Box ℚ), ⟨0, 0, 1, 1, 5⟩, ⟨2, 0, 3, 1, 4⟩] (1 / 2) =
    [⟨0, 0, 1, 1, 5⟩, ⟨2, 0, 3, 1, 4⟩] := by
  decide +kernel

end Frcmob.OnDevice
