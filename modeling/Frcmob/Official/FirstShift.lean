import Frcmob.Official.Truth
import Mathlib.Algebra.Order.Ring.Abs
import Mathlib.Tactic.Linarith

/-!
Which alliance's hub is active in the first shift, as `services/scoring/breakdown.py` infers it
from a match's score breakdown.
-/

namespace Frcmob.Official

universe u

section Infer
variable {K : Type u} [Field K] [LinearOrder K]

/-! ### The evidence of one alliance -/

section Evidence
variable [Floats K]

/-- `_sum_numeric_keys` -/
def sumNumericKeys (payload : Obj K) (keys : List String) : Option K :=
  sumDictKeys payload keys

/-- `_extract_rebuilt_auto_fuel_count` -/
def extractRebuiltAutoFuelCount (breakdown : Obj K) : Option K :=
  let hub := hubScore breakdown
  let hubAutoPoints := match asFloat (hub.get "autoPoints") with
    | some points => some points
    | none =>
        match asFloat (breakdown.get "totalAutoPoints"), asFloat (breakdown.get "autoTowerPoints") with
        | some total, some tower => some (max 0 (total - tower))
        | total, _ => total
  match asFloat (hub.get "autoCount") with
  | some count => if 0 ≤ count then some count else hubAutoPoints.map (max 0)
  | none => hubAutoPoints.map (max 0)

/-- `odd - even` where both are known. -/
def difference (odd even : Option K) : Option K :=
  match odd, even with
  | some odd, some even => some (odd - even)
  | _, _ => none

/-- `_extract_rebuilt_shift_bias` -/
def extractRebuiltShiftBias (breakdown : Obj K) : Option K :=
  let hub := hubScore breakdown
  let byCount := difference (sumNumericKeys hub ["shift1Count", "shift3Count"])
    (sumNumericKeys hub ["shift2Count", "shift4Count"])
  let byPoints := difference (sumNumericKeys hub ["shift1Points", "shift3Points"])
    (sumNumericKeys hub ["shift2Points", "shift4Points"])
  byCount.or byPoints

end Evidence

/-! ### The inference -/

/-- Both counts are known and differ. -/
def apart (red blue : Option K) : Bool :=
  match red, blue with
  | some red, some blue => 1 / 10 ^ 6 < |red - blue|
  | _, _ => false

/-- A bias that is known and not negligible. -/
def leans (bias : Option K) : Bool :=
  bias.any fun bias => 1 / 10 ^ 6 < |bias|

/-- What the evidence of two alliances says, with the rule that said it. -/
def inferFromEvidence (redAuto blueAuto redBias blueBias : Option K) : Option String × String :=
  -- The alliance that scores more auto fuel is inactive in the first shift.
  if apart redAuto blueAuto then
    (some (if blueAuto.getD 0 < redAuto.getD 0 then "blue" else "red"), "auto_fuel_count")
  else if leans redBias ∧ leans blueBias ∧ redBias.getD 0 * blueBias.getD 0 < 0 then
    (some (if 0 < redBias.getD 0 then "red" else "blue"), "shift_distribution")
  else if leans redBias then
    (some (if 0 < redBias.getD 0 then "red" else "blue"), "shift_distribution_partial")
  else if leans blueBias then
    (some (if 0 < blueBias.getD 0 then "blue" else "red"), "shift_distribution_partial")
  else (none, "tie_or_missing_auto_fuel")

variable [Floats K]

/-- `_infer_rebuilt_shift1_active_alliance` -/
def inferRebuiltShift1ActiveAlliance (matchPayload : Obj K) : Option String × String :=
  match matchPayload.get "score_breakdown" with
  | .obj breakdowns =>
      match Obj.get breakdowns "red", Obj.get breakdowns "blue" with
      | .obj red, .obj blue =>
          inferFromEvidence (extractRebuiltAutoFuelCount red) (extractRebuiltAutoFuelCount blue)
            (extractRebuiltShiftBias red) (extractRebuiltShiftBias blue)
      | _, _ => (none, "missing_alliance_breakdown")
  | _ => (none, "missing_score_breakdown")

end Infer

/-! ### Exchanging the alliances -/

def otherColor (color : String) : String :=
  if color = "red" then "blue" else if color = "blue" then "red" else color

section Swap
variable {K : Type u}

def swapColors (fields : Obj K) : Obj K :=
  fields.map fun (key, value) => (otherColor key, value)

/-- The payload with the red and the blue half of its score breakdown exchanged. -/
def swapHalves (matchPayload : Obj K) : Obj K :=
  matchPayload.map fun (key, value) =>
    (key, match value with
      | .obj fields => if key = "score_breakdown" then .obj (swapColors fields) else .obj fields
      | value => value)

theorem otherColor_otherColor (color : String) : otherColor (otherColor color) = color := by
  unfold otherColor
  by_cases hred : color = "red"
  · simp [hred]
  · by_cases hblue : color = "blue" <;> simp [hred, hblue]

theorem get_swapColors (fields : Obj K) (key : String) :
    Obj.get (swapColors fields) (otherColor key) = Obj.get fields key := by
  unfold Obj.get Obj.getOr swapColors
  congr 1
  induction fields with
  | nil => rfl
  | cons field fields ih =>
      obtain ⟨name, value⟩ := field
      by_cases hname : key = name
      · simp [hname]
      · have hother : otherColor key ≠ otherColor name := fun heq => hname
          (by rw [← otherColor_otherColor key, heq, otherColor_otherColor])
        have hbeq : (key == name) = false := beq_false_of_ne hname
        have hbeq' : (otherColor key == otherColor name) = false := beq_false_of_ne hother
        simp only [List.map_cons, List.lookup_cons, hbeq, hbeq']
        exact ih

theorem get_swapHalves (matchPayload : Obj K) :
    Obj.get (swapHalves matchPayload) "score_breakdown" =
      match Obj.get matchPayload "score_breakdown" with
      | .obj fields => .obj (swapColors fields)
      | value => value := by
  unfold Obj.get Obj.getOr swapHalves
  induction matchPayload with
  | nil => rfl
  | cons field fields ih =>
      obtain ⟨name, value⟩ := field
      by_cases hname : "score_breakdown" = name
      · subst hname
        cases value <;> simp
      · have hbeq : ("score_breakdown" == name) = false := beq_false_of_ne hname
        simp only [List.map_cons, List.lookup_cons, hbeq]
        exact ih

end Swap

section Symmetry
variable {K : Type u} [Field K] [LinearOrder K]

theorem apart_comm (red blue : Option K) : apart blue red = apart red blue := by
  cases red <;> cases blue <;> simp [apart, abs_sub_comm]

/-- The auto counts decide. -/
theorem infer_of_apart {redAuto blueAuto : Option K} (h : apart redAuto blueAuto)
    (redBias blueBias : Option K) :
    (inferFromEvidence redAuto blueAuto redBias blueBias).1 =
      some (if blueAuto.getD 0 < redAuto.getD 0 then "blue" else "red") := by
  unfold inferFromEvidence
  rw [if_pos h]

section Undecided
variable {redAuto blueAuto redBias blueBias : Option K}

/-- Red's shift counts decide whenever they lean. -/
theorem infer_of_red (hauto : ¬ apart redAuto blueAuto) (hred : leans redBias) :
    (inferFromEvidence redAuto blueAuto redBias blueBias).1 =
      some (if 0 < redBias.getD 0 then "red" else "blue") := by
  unfold inferFromEvidence
  rw [if_neg hauto, if_pos hred]
  split <;> rfl

theorem infer_of_blue (hauto : ¬ apart redAuto blueAuto) (hred : ¬ leans redBias)
    (hblue : leans blueBias) :
    (inferFromEvidence redAuto blueAuto redBias blueBias).1 =
      some (if 0 < blueBias.getD 0 then "blue" else "red") := by
  unfold inferFromEvidence
  rw [if_neg hauto, if_neg fun hall => hred hall.1, if_neg hred, if_pos hblue]

theorem infer_of_none (hauto : ¬ apart redAuto blueAuto) (hred : ¬ leans redBias)
    (hblue : ¬ leans blueBias) :
    (inferFromEvidence redAuto blueAuto redBias blueBias).1 = none := by
  unfold inferFromEvidence
  rw [if_neg hauto, if_neg fun hall => hred hall.1, if_neg hred, if_neg hblue]

end Undecided

variable [IsStrictOrderedRing K]

theorem ne_of_apart {red blue : Option K} (h : apart red blue) : red.getD 0 ≠ blue.getD 0 := by
  cases red with
  | none => simp [apart] at h
  | some r =>
      cases blue with
      | none => simp [apart] at h
      | some b =>
          rintro (heq : r = b)
          have hpos : (1 : K) / 10 ^ 6 < |r - b| := of_decide_eq_true h
          rw [heq, sub_self, abs_zero] at hpos
          exact absurd hpos (not_lt.mpr (by positivity))

theorem ne_zero_of_leans {bias : Option K} (h : leans bias) : bias.getD 0 ≠ 0 := by
  cases bias with
  | none => simp [leans] at h
  | some b =>
      rintro (heq : b = 0)
      have hpos : (1 : K) / 10 ^ 6 < |b| := of_decide_eq_true h
      rw [heq, abs_zero] at hpos
      exact absurd hpos (not_lt.mpr (by positivity))

/-- The shift counts of both alliances lean to the odd shifts, or both to the even ones. -/
def LeanAlike (redBias blueBias : Option K) : Prop :=
  leans redBias ∧ leans blueBias ∧ 0 < redBias.getD 0 * blueBias.getD 0

instance (redBias blueBias : Option K) : Decidable (LeanAlike redBias blueBias) :=
  inferInstanceAs (Decidable (_ ∧ _ ∧ _))

@[simp] theorem otherColor_red : otherColor "red" = "blue" := rfl

@[simp] theorem otherColor_blue : otherColor "blue" = "red" := rfl

theorem infer_swap_evidence {redAuto blueAuto redBias blueBias : Option K} :
    (inferFromEvidence blueAuto redAuto blueBias redBias).1 =
        (inferFromEvidence redAuto blueAuto redBias blueBias).1.map otherColor ↔
      apart redAuto blueAuto ∨ ¬ LeanAlike redBias blueBias := by
  by_cases hauto : apart redAuto blueAuto
  · have hswap : apart blueAuto redAuto := (apart_comm redAuto blueAuto).trans hauto
    rw [infer_of_apart hauto, infer_of_apart hswap]
    refine ⟨fun _ => .inl hauto, fun _ => ?_⟩
    rcases lt_or_gt_of_ne (ne_of_apart hauto) with hlt | hgt
    · simp [hlt, hlt.not_gt]
    · simp [hgt, hgt.not_gt]
  have hswap : ¬ apart blueAuto redAuto := by rwa [apart_comm]
  by_cases hred : leans redBias
  · by_cases hblue : leans blueBias
    · rw [infer_of_red hauto hred, infer_of_red hswap hblue]
      have hr := ne_zero_of_leans hred
      have hb := ne_zero_of_leans hblue
      -- Both lean: the answers are of one color exactly if the product is positive.
      simp only [hauto, LeanAlike, hred, hblue, false_or, true_and, Bool.false_eq_true]
      rcases lt_or_gt_of_ne hr with hr | hr <;> rcases lt_or_gt_of_ne hb with hb | hb
      · simp [hr.not_gt, hb.not_gt, mul_pos_of_neg_of_neg hr hb]
      · simp [hr.not_gt, hb]
      · simp [hr, hb.not_gt]
      · simp [hr, hb, mul_pos hr hb]
    · rw [infer_of_red hauto hred, infer_of_blue hswap hblue hred]
      refine ⟨fun _ => .inr fun h => hblue h.2.1, fun _ => ?_⟩
      split <;> rfl
  · by_cases hblue : leans blueBias
    · rw [infer_of_blue hauto hred hblue, infer_of_red hswap hblue]
      refine ⟨fun _ => .inr fun h => hred h.1, fun _ => ?_⟩
      split <;> rfl
    · rw [infer_of_none hauto hred hblue, infer_of_none hswap hblue hred]
      exact ⟨fun _ => .inr fun h => hred h.1, fun _ => rfl⟩

variable [Floats K]

/-- Both halves are there, their auto counts decide nothing, and their shift counts lean to the
same shifts. -/
def HalvesLeanAlike (matchPayload : Obj K) : Prop :=
  ∃ breakdowns red blue, matchPayload.get "score_breakdown" = .obj breakdowns ∧
    Obj.get breakdowns "red" = .obj red ∧ Obj.get breakdowns "blue" = .obj blue ∧
    ¬ apart (extractRebuiltAutoFuelCount red) (extractRebuiltAutoFuelCount blue) ∧
    LeanAlike (extractRebuiltShiftBias red) (extractRebuiltShiftBias blue)

/-- Exchanging the halves of a score breakdown exchanges the inferred color, unless both alliances
scored more in the same shifts and nothing else decides. -/
theorem infer_swapHalves_iff (matchPayload : Obj K) :
    (inferRebuiltShift1ActiveAlliance (swapHalves matchPayload)).1 =
        (inferRebuiltShift1ActiveAlliance matchPayload).1.map otherColor ↔
      ¬ HalvesLeanAlike matchPayload := by
  unfold inferRebuiltShift1ActiveAlliance HalvesLeanAlike
  rw [get_swapHalves]
  cases Obj.get matchPayload "score_breakdown" with
  | obj breakdowns =>
      have hred : Obj.get (swapColors breakdowns) "red" = Obj.get breakdowns "blue" :=
        get_swapColors breakdowns "blue"
      have hblue : Obj.get (swapColors breakdowns) "blue" = Obj.get breakdowns "red" :=
        get_swapColors breakdowns "red"
      dsimp only
      rw [hred, hblue]
      cases hr : Obj.get breakdowns "red" with
      | obj red =>
          cases hb : Obj.get breakdowns "blue" with
          | obj blue =>
              dsimp only
              rw [infer_swap_evidence]
              simp [hr, hb, imp_iff_not_or]
          | _ => simp [hb]
      | _ => cases hb : Obj.get breakdowns "blue" <;> simp [hr]
  | _ => simp

end Symmetry

/-- Blue scored more in auto. -/
def moreAutoOfBlue : Obj ℚ :=
  [("score_breakdown", .obj
    [("red", .obj [("hubScore", .obj [("autoCount", .int 3), ("shift1Count", .int 30)])]),
      ("blue", .obj [("hubScore", .obj [("autoCount", .int 7), ("shift1Count", .int 20)])])])]

theorem infer_swapHalves_iff_moreAutoOfBlue : ¬ HalvesLeanAlike moreAutoOfBlue :=
  (infer_swapHalves_iff moreAutoOfBlue).mp (by decide +kernel)

/-- Both alliances scored their fuel in the first shift, and neither in auto. -/
def bothInShiftOne : Obj ℚ :=
  [("score_breakdown", .obj
    [("red", .obj [("hubScore", .obj [("shift1Count", .int 30), ("shift2Count", .int 10)])]),
      ("blue", .obj [("hubScore", .obj [("shift1Count", .int 20), ("shift2Count", .int 5)])])])]

/-- Red is inferred for either color. -/
theorem red_inferred_for_both :
    ¬ ∀ matchPayload : Obj ℚ, (inferRebuiltShift1ActiveAlliance (swapHalves matchPayload)).1 =
      (inferRebuiltShift1ActiveAlliance matchPayload).1.map otherColor := by
  intro h
  exact absurd (h bothInShiftOne) (by decide +kernel)

end Frcmob.Official
