import Frcmob.Lib.Averages
import Frcmob.Lib.Rounding
import Frcmob.Ratings.Results
import Mathlib.Data.List.Sort
import Mathlib.Data.Rat.Floor
import Mathlib.Data.String.Basic

/-!
`estimate_strength` of `services/ratings/strength.py`: the points a robot adds, as weighted means
of its matches at this event and before, each leaning on the next one and the last on the
season's typical robot.
-/

namespace Frcmob.Ratings

universe u

/-- `COMPONENTS` -/
inductive PointsPart
  | teleop
  | auto
  | climb
deriving DecidableEq

def PointsPart.name : PointsPart → String
  | .teleop => "teleop"
  | .auto => "auto"
  | .climb => "climb"

section Estimate
variable {K : Type u} [Field K] [LinearOrder K]

def MatchPoints.value (points : MatchPoints K) : PointsPart → Option K
  | .teleop => points.teleop
  | .auto => points.auto
  | .climb => points.climb

/-- Shrinks and weights are not negative in any parameters the code makes. -/
structure StrengthParams (K : Type u) [Field K] [LinearOrder K] where
  eventShrink : K
  priorShrink : K
  priorWindow : Int
  recentWindow : Int
  recentWeight : K
  matchWindow : Int
  eventShrink_nonneg : 0 ≤ eventShrink
  priorShrink_nonneg : 0 ≤ priorShrink
  recentWeight_nonneg : 0 ≤ recentWeight

structure Strength (K : Type u) where
  points : K
  teleop : K
  auto : K
  climb : K
  matchesHere : Int
  matchesBefore : Int
  confidence : K
  basis : String
deriving DecidableEq

def Strength.value (strength : Strength K) : PointsPart → K
  | .teleop => strength.teleop
  | .auto => strength.auto
  | .climb => strength.climb

/-- Order of `(m.time, m.match_key)`. -/
def keyLe (a b : MatchPoints K) : Prop :=
  a.time < b.time ∨ (a.time = b.time ∧ a.matchKey ≤ b.matchKey)

instance : DecidableRel (@keyLe K) := fun a b =>
  inferInstanceAs (Decidable (a.time < b.time ∨ (a.time = b.time ∧ a.matchKey ≤ b.matchKey)))

/-- The latest matches of a window, in order. -/
def latestMatches (window : Int) (points : List (MatchPoints K)) : List (MatchPoints K) :=
  if 0 < window then (points.insertionSort keyLe).drop (points.length - window.toNat) else []

/-- The weights and values that a mean is taken of. -/
def weightedValues (params : StrengthParams K) (part : PointsPart)
    (ordered : List (MatchPoints K)) : List (K × K) :=
  let recentFrom := ordered.length - params.recentWindow
  ordered.zipIdx.filterMap fun entry =>
    (entry.1.value part).map fun value =>
      (if recentFrom ≤ entry.2 then params.recentWeight else 1, value)

/-- `_weighted_means` of one component. -/
def weightedMean (params : StrengthParams K) (window : Int) (part : PointsPart)
    (points : List (MatchPoints K)) : Option K :=
  let sums := (weightedValues params part (latestMatches window points)).foldl
    (fun (sums : K × K) item => (sums.1 + item.1 * item.2, sums.2 + item.1)) (0, 0)
  if 0 < sums.2 then some (sums.1 / sums.2) else none

/-- `_shrink` -/
def shrink (value : Option K) (count : Int) (target k : K) : K :=
  match value with
  | none => target
  | some value => if count ≤ 0 then target else (count * value + k * target) / (count + k)

/-- The value of one component. -/
def estimatePart (params : StrengthParams K) (here before : List (MatchPoints K))
    (typical : Dict K) (part : PointsPart) : K :=
  let nBefore := min (before.length : Int) params.priorWindow
  let nHere := min (here.length : Int) params.matchWindow
  let prior := shrink (weightedMean params params.priorWindow part before) nBefore
    ((typical.lookup part.name).getD 0) params.priorShrink
  max 0 (shrink (weightedMean params params.matchWindow part here) nHere prior params.eventShrink)

/-- `estimate_strength` -/
def estimateStrength [FloorRing K] (params : StrengthParams K) (here before : List (MatchPoints K))
    (typical : Dict K) : Strength K :=
  let nBefore := min (before.length : Int) params.priorWindow
  let nHere := min (here.length : Int) params.matchWindow
  let value := estimatePart params here before typical
  let effective : K := nHere + 1 / 2 * nBefore
  { points := value .teleop + value .auto + value .climb
    teleop := value .teleop
    auto := value .auto
    climb := value .climb
    matchesHere := nHere
    matchesBefore := nBefore
    confidence := Rounding.roundTo 4 (effective / (effective + 4))
    basis := if nHere ≠ 0 then "this_event" else if nBefore ≠ 0 then "earlier_events"
      else "season_typical" }

end Estimate

/-! ### The order of matches -/

section Order
variable {K : Type u}

instance : Std.Total (@keyLe K) where
  total a b := by
    rcases lt_trichotomy a.time b.time with h | h | h
    · exact .inl (.inl h)
    · exact (le_total a.matchKey b.matchKey).imp (fun h' => .inr ⟨h, h'⟩)
        (fun h' => .inr ⟨h.symm, h'⟩)
    · exact .inr (.inl h)

instance : IsTrans (MatchPoints K) keyLe where
  trans a b c hab hbc := by
    rcases hab with hab | ⟨hab, hab'⟩ <;> rcases hbc with hbc | ⟨hbc, hbc'⟩
    · exact .inl (hab.trans hbc)
    · exact .inl (hbc ▸ hab)
    · exact .inl (hab ▸ hbc)
    · exact .inr ⟨hab.trans hbc, hab'.trans hbc'⟩

def keyOf (m : MatchPoints K) : Int × String :=
  (m.time, m.matchKey)

theorem keyOf_eq_of_keyLe {a b : MatchPoints K} (hab : keyLe a b) (hba : keyLe b a) :
    keyOf a = keyOf b := by
  rcases hab with hab | ⟨hab, hab'⟩ <;> rcases hba with hba | ⟨hba, hba'⟩
  · omega
  · omega
  · omega
  · exact Prod.ext hab (le_antisymm hab' hba')

/-- Matches with different keys are put in one order, whatever order they come in. -/
theorem insertionSort_eq_of_perm {points points' : List (MatchPoints K)}
    (hkeys : (points.map keyOf).Nodup) (h : points.Perm points') :
    points.insertionSort keyLe = points'.insertionSort keyLe := by
  refine ((List.perm_insertionSort _ points).trans
    (h.trans (List.perm_insertionSort _ points').symm)).eq_of_pairwise ?_
    (List.pairwise_insertionSort _ _) (List.pairwise_insertionSort _ _)
  intro a b ha hb hab hba
  rw [List.mem_insertionSort] at ha hb
  exact List.inj_on_of_nodup_map hkeys ha (h.mem_iff.mpr hb) (keyOf_eq_of_keyLe hab hba)

variable [LinearOrder K]

/-- The same match, with values as high or higher. -/
structure RaisedMatch (m m' : MatchPoints K) : Prop where
  matchKey : m'.matchKey = m.matchKey
  time : m'.time = m.time
  value : ∀ part, Option.Rel (· ≤ ·) (m.value part) (m'.value part)

theorem RaisedMatch.keyLe_iff {a a' b b' : MatchPoints K} (ha : RaisedMatch a a')
    (hb : RaisedMatch b b') : keyLe a' b' ↔ keyLe a b := by
  rw [keyLe, keyLe, ha.time, hb.time, ha.matchKey, hb.matchKey]

theorem raised_orderedInsert {m m' : MatchPoints K} (hm : RaisedMatch m m')
    {points points' : List (MatchPoints K)} (h : List.Forall₂ RaisedMatch points points') :
    List.Forall₂ RaisedMatch (points.orderedInsert keyLe m) (points'.orderedInsert keyLe m') := by
  induction h with
  | nil => exact .cons hm .nil
  | cons hfirst hrest ih =>
      rw [List.orderedInsert_cons, List.orderedInsert_cons]
      simp only [hm.keyLe_iff hfirst]
      split
      · exact .cons hm (.cons hfirst hrest)
      · exact .cons hfirst ih

theorem raised_insertionSort {points points' : List (MatchPoints K)}
    (h : List.Forall₂ RaisedMatch points points') :
    List.Forall₂ RaisedMatch (points.insertionSort keyLe) (points'.insertionSort keyLe) := by
  induction h with
  | nil => exact .nil
  | cons hfirst _ ih => exact raised_orderedInsert hfirst ih

theorem raised_latestMatches {points points' : List (MatchPoints K)} (window : Int)
    (h : List.Forall₂ RaisedMatch points points') :
    List.Forall₂ RaisedMatch (latestMatches window points) (latestMatches window points') := by
  unfold latestMatches
  rw [h.length_eq]
  split
  · exact List.forall₂_drop _ (raised_insertionSort h)
  · exact .nil

theorem raised_zipIdx {points points' : List (MatchPoints K)} (first : Nat)
    (h : List.Forall₂ RaisedMatch points points') :
    List.Forall₂ (fun entry entry' => RaisedMatch entry.1 entry'.1 ∧ entry.2 = entry'.2)
      (points.zipIdx first) (points'.zipIdx first) := by
  induction h generalizing first with
  | nil => exact .nil
  | cons hfirst _ ih => exact .cons ⟨hfirst, rfl⟩ (ih (first + 1))

end Order

/-! ### Between the observed values -/

section Values
variable {K : Type u} [Field K] [LinearOrder K]


theorem weightedMean_eq (params : StrengthParams K) (window : Int) (part : PointsPart)
    (points : List (MatchPoints K)) :
    weightedMean params window part points =
      let items := weightedValues params part (latestMatches window points)
      if 0 < Averages.weight items then some (Averages.weighted items / Averages.weight items)
      else none := by
  simp only [weightedMean, Averages.foldl_sums, zero_add]

/-- The observed values of a component. -/
def observed (part : PointsPart) (points : List (MatchPoints K)) : List K :=
  points.filterMap fun m => m.value part

theorem values_observed {params : StrengthParams K} {window : Int} {part : PointsPart}
    {points : List (MatchPoints K)} :
    ∀ item ∈ weightedValues params part (latestMatches window points),
      item.2 ∈ observed part points := by
  intro item hitem
  obtain ⟨entry, hin, hentry⟩ := List.mem_filterMap.mp hitem
  obtain ⟨value, hvalue, rfl⟩ := Option.map_eq_some_iff.mp hentry
  refine List.mem_filterMap.mpr ⟨entry.1, ?_, hvalue⟩
  have hlatest := List.fst_mem_of_mem_zipIdx hin
  unfold latestMatches at hlatest
  split at hlatest
  · exact (List.mem_insertionSort _).mp (List.mem_of_mem_drop hlatest)
  · exact absurd hlatest List.not_mem_nil

theorem raised_weightedValues (params : StrengthParams K) (part : PointsPart)
    {ordered ordered' : List (MatchPoints K)} (h : List.Forall₂ RaisedMatch ordered ordered') :
    Averages.Raised (weightedValues params part ordered)
      (weightedValues params part ordered') := by
  unfold weightedValues
  rw [h.length_eq]
  refine List.rel_filterMap (fun entry entry' hentry => ?_) (raised_zipIdx 0 h)
  rw [hentry.2]
  have hvalue := hentry.1.value part
  generalize entry.1.value part = value at hvalue ⊢
  generalize entry'.1.value part = value' at hvalue ⊢
  cases hvalue with
  | some hle => exact .some ⟨rfl, hle⟩
  | none => exact .none

theorem weightedMean_eq_of_perm (params : StrengthParams K) (window : Int) (part : PointsPart)
    {points points' : List (MatchPoints K)} (hkeys : (points.map keyOf).Nodup)
    (h : points.Perm points') :
    weightedMean params window part points = weightedMean params window part points' := by
  rw [weightedMean, weightedMean, latestMatches, latestMatches, h.length_eq,
    insertionSort_eq_of_perm hkeys h]

variable [IsStrictOrderedRing K]

theorem weights_nonneg (params : StrengthParams K) (part : PointsPart)
    (ordered : List (MatchPoints K)) :
    ∀ item ∈ weightedValues params part ordered, 0 ≤ item.1 := by
  intro item hitem
  obtain ⟨entry, -, hentry⟩ := List.mem_filterMap.mp hitem
  obtain ⟨value, -, rfl⟩ := Option.map_eq_some_iff.mp hentry
  dsimp only
  split
  · exact params.recentWeight_nonneg
  · exact zero_le_one

theorem weightedMean_bounds (params : StrengthParams K) (window : Int) {part : PointsPart}
    {points : List (MatchPoints K)} {low high : K}
    (h : ∀ value ∈ observed part points, low ≤ value ∧ value ≤ high) :
    ∀ mean ∈ weightedMean params window part points, low ≤ mean ∧ mean ≤ high := by
  intro mean hmean
  rw [weightedMean_eq] at hmean
  dsimp only at hmean
  split at hmean
  · rename_i hpos
    obtain rfl := Option.some.inj hmean
    exact Averages.average_bounds (weights_nonneg params part _)
      (fun item hitem => h _ (values_observed item hitem)) hpos
  · exact absurd hmean (Option.not_mem_none _)

theorem shrink_bounds {value : Option K} (count : Int) {target k low high : K} (hk : 0 ≤ k)
    (hvalue : ∀ v ∈ value, low ≤ v ∧ v ≤ high) (htarget : low ≤ target ∧ target ≤ high) :
    low ≤ shrink value count target k ∧ shrink value count target k ≤ high := by
  cases value with
  | none => exact htarget
  | some v =>
      rw [shrink]
      split
      · exact htarget
      · rename_i hcount
        exact Averages.mix_bounds (Int.cast_pos.mpr (not_le.mp hcount)) hk (hvalue v rfl) htarget

/-- The typical value of a component. -/
def typicalValue (typical : Dict K) (part : PointsPart) : K :=
  (typical.lookup part.name).getD 0

theorem estimatePart_bounds {params : StrengthParams K} {here before : List (MatchPoints K)}
    {typical : Dict K} {part : PointsPart} {low high : K}
    (hhere : ∀ value ∈ observed part here, low ≤ value ∧ value ≤ high)
    (hbefore : ∀ value ∈ observed part before, low ≤ value ∧ value ≤ high)
    (htypical : low ≤ typicalValue typical part ∧ typicalValue typical part ≤ high)
    (hnonneg : 0 ≤ typicalValue typical part) :
    low ≤ estimatePart params here before typical part ∧
      estimatePart params here before typical part ≤ high := by
  have hprior := shrink_bounds (min (before.length : Int) params.priorWindow)
    params.priorShrink_nonneg (weightedMean_bounds params params.priorWindow hbefore) htypical
  have hvalue := shrink_bounds (min (here.length : Int) params.matchWindow)
    params.eventShrink_nonneg (weightedMean_bounds params params.matchWindow hhere) hprior
  exact ⟨hvalue.1.trans (le_max_right _ _), max_le (hnonneg.trans htypical.2) hvalue.2⟩

/-! ### Raised values -/

theorem weightedMean_mono (params : StrengthParams K) (window : Int) (part : PointsPart)
    {points points' : List (MatchPoints K)} (h : List.Forall₂ RaisedMatch points points') :
    Option.Rel (· ≤ ·) (weightedMean params window part points)
      (weightedMean params window part points') := by
  have hitems := raised_weightedValues params part (raised_latestMatches window h)
  rw [weightedMean_eq, weightedMean_eq]
  dsimp only
  rw [hitems.weight_eq]
  split
  · rename_i hpos
    exact .some (div_le_div_of_nonneg_right (hitems.weighted_le (weights_nonneg params part _))
      hpos.le)
  · exact .none

theorem shrink_mono {value value' : Option K} {count : Int} {target target' k : K} (hk : 0 ≤ k)
    (hvalue : Option.Rel (· ≤ ·) value value') (htarget : target ≤ target') :
    shrink value count target k ≤ shrink value' count target' k := by
  cases hvalue with
  | none => exact htarget
  | some hle =>
      rw [shrink, shrink]
      split
      · exact htarget
      · rename_i hcount
        exact Averages.mix_mono (Int.cast_pos.mpr (not_le.mp hcount)) hk hle htarget

theorem estimatePart_mono {params : StrengthParams K}
    {here here' before before' : List (MatchPoints K)} {typical : Dict K} {part : PointsPart} (hhere : List.Forall₂ RaisedMatch here here')
    (hbefore : List.Forall₂ RaisedMatch before before') :
    estimatePart params here before typical part ≤
      estimatePart params here' before' typical part := by
  unfold estimatePart
  rw [hhere.length_eq, hbefore.length_eq]
  exact max_le_max le_rfl (shrink_mono params.eventShrink_nonneg (weightedMean_mono _ _ _ hhere)
    (shrink_mono params.priorShrink_nonneg (weightedMean_mono _ _ _ hbefore) le_rfl))

/-! ### The estimate -/

/-- `STRENGTH_PARAMS`, which are also the defaults. -/
def strengthParams : StrengthParams K where
  eventShrink := 3
  priorShrink := 4
  priorWindow := 24
  recentWindow := 10
  recentWeight := 2
  matchWindow := 20
  eventShrink_nonneg := zero_le_three
  priorShrink_nonneg := zero_le_four
  recentWeight_nonneg := zero_le_two

variable [FloorRing K]

omit [IsStrictOrderedRing K] in
theorem value_estimateStrength (params : StrengthParams K) (here before : List (MatchPoints K))
    (typical : Dict K) (part : PointsPart) :
    (estimateStrength params here before typical).value part =
      estimatePart params here before typical part := by
  cases part <;> rfl

/-- Each component lies between the observed values and the typical one, does not fall when
values are raised, and does not depend on the order of the matches. -/
theorem estimateStrength_average (params : StrengthParams K) (typical : Dict K) :
    (∀ (here before : List (MatchPoints K)) (part : PointsPart) (low high : K),
      0 ≤ typicalValue typical part →
      (∀ value ∈ typicalValue typical part :: (observed part here ++ observed part before),
        low ≤ value ∧ value ≤ high) →
      low ≤ (estimateStrength params here before typical).value part ∧
        (estimateStrength params here before typical).value part ≤ high) ∧
    (∀ (here here' before before' : List (MatchPoints K)) (part : PointsPart),
      List.Forall₂ RaisedMatch here here' → List.Forall₂ RaisedMatch before before' →
      (estimateStrength params here before typical).value part ≤
        (estimateStrength params here' before' typical).value part) ∧
    ∀ here here' before before' : List (MatchPoints K), (here.map keyOf).Nodup →
      (before.map keyOf).Nodup → here.Perm here' → before.Perm before' →
      estimateStrength params here before typical =
        estimateStrength params here' before' typical := by
  refine ⟨fun here before part low high hnonneg hvalues => ?_,
    fun here here' before before' part hhere hbefore => ?_,
    fun here here' before before' hhereKeys hbeforeKeys hhere hbefore => ?_⟩
  · rw [List.forall_mem_cons, List.forall_mem_append] at hvalues
    rw [value_estimateStrength]
    exact estimatePart_bounds hvalues.2.1 hvalues.2.2 hvalues.1 hnonneg
  · rw [value_estimateStrength, value_estimateStrength]
    exact estimatePart_mono hhere hbefore
  · have hpart : ∀ part, estimatePart params here before typical part =
        estimatePart params here' before' typical part := fun part => by
      rw [estimatePart, estimatePart, hhere.length_eq, hbefore.length_eq,
        weightedMean_eq_of_perm params _ part hhereKeys hhere,
        weightedMean_eq_of_perm params _ part hbeforeKeys hbefore]
    rw [estimateStrength, estimateStrength, hhere.length_eq, hbefore.length_eq]
    simp only [hpart]

end Values

def twoMatches : List (MatchPoints ℚ) :=
  [⟨"2026aaa_qm1", 1, some 100, none, some 0⟩, ⟨"2026aaa_qm2", 2, some 40, some 8, none⟩]

def aMatchBefore : List (MatchPoints ℚ) :=
  [⟨"2026bbb_qm7", 0, some 70, some 5, some 30⟩]

def raisedMatches : List (MatchPoints ℚ) :=
  [⟨"2026aaa_qm1", 1, some 110, none, some 0⟩, ⟨"2026aaa_qm2", 2, some 40, some 8, none⟩]

theorem raised_raisedMatches : List.Forall₂ RaisedMatch twoMatches raisedMatches := by
  refine .cons ⟨rfl, rfl, fun part => ?_⟩ (.cons ⟨rfl, rfl, fun part => ?_⟩ .nil)
  · cases part with
    | teleop => exact .some (by norm_num)
    | auto => exact .none
    | climb => exact .some le_rfl
  · cases part with
    | teleop | auto => exact .some le_rfl
    | climb => exact .none

theorem estimateStrength_average_twoMatches :
    (0 ≤ (estimateStrength strengthParams twoMatches aMatchBefore ∅).value .teleop ∧
      (estimateStrength strengthParams twoMatches aMatchBefore ∅).value .teleop ≤ 100) ∧
    (estimateStrength strengthParams twoMatches aMatchBefore ∅).value .teleop ≤
      (estimateStrength strengthParams raisedMatches aMatchBefore ∅).value .teleop ∧
    estimateStrength strengthParams twoMatches aMatchBefore ∅ =
      estimateStrength strengthParams twoMatches.reverse aMatchBefore ∅ := by
  obtain ⟨hbounds, hmono, hperm⟩ := estimateStrength_average (K := ℚ) strengthParams ∅
  refine ⟨hbounds twoMatches aMatchBefore .teleop 0 100 ?_ ?_,
    hmono _ _ _ _ _ raised_raisedMatches (List.forall₂_same.mpr fun m _ => ?_),
    hperm twoMatches _ aMatchBefore _ ?_ ?_ (List.reverse_perm _).symm (List.Perm.refl _)⟩
  · exact le_of_eq rfl
  · decide +kernel
  · exact ⟨rfl, rfl, fun part => by cases m.value part <;> constructor; exact le_rfl⟩
  · decide
  · decide

end Frcmob.Ratings
