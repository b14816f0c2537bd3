import Frcmob.Lib.Numerals
import Mathlib.Algebra.Order.BigOperators.Group.List
import Mathlib.Algebra.Order.Field.Basic
import Mathlib.Tactic.Linarith

/-!
Weighted averages of lists: `items` are pairs of a weight and a value. An average with weights
that are not negative lies between the values and does not fall when values are raised.
-/

namespace Averages

universe u
variable {K : Type u} [Field K]

def weight (items : List (K × K)) : K :=
  (items.map Prod.fst).sum

def weighted (items : List (K × K)) : K :=
  (items.map fun item => item.1 * item.2).sum

@[simp] theorem weight_cons (item : K × K) (items : List (K × K)) :
    weight (item :: items) = item.1 + weight items := rfl

@[simp] theorem weighted_cons (item : K × K) (items : List (K × K)) :
    weighted (item :: items) = item.1 * item.2 + weighted items := rfl

/-- A loop that sums both. -/
theorem foldl_sums (items : List (K × K)) (sums : K × K) :
    items.foldl (fun (sums : K × K) item => (sums.1 + item.1 * item.2, sums.2 + item.1)) sums =
      (sums.1 + weighted items, sums.2 + weight items) := by
  induction items generalizing sums with
  | nil => exact Prod.ext (add_zero _).symm (add_zero _).symm
  | cons item items ih =>
      rw [List.foldl_cons, ih, weighted_cons, weight_cons]
      exact Prod.ext (add_assoc ..) (add_assoc ..)

variable [LinearOrder K] [IsStrictOrderedRing K]

theorem weighted_bounds {items : List (K × K)} {low high : K}
    (hweights : ∀ item ∈ items, 0 ≤ item.1)
    (hvalues : ∀ item ∈ items, low ≤ item.2 ∧ item.2 ≤ high) :
    weight items * low ≤ weighted items ∧ weighted items ≤ weight items * high := by
  induction items with
  | nil => simp [weight, weighted]
  | cons item items ih =>
      rw [List.forall_mem_cons] at hweights hvalues
      obtain ⟨hlow, hhigh⟩ := ih hweights.2 hvalues.2
      have hitemLow := mul_le_mul_of_nonneg_left hvalues.1.1 hweights.1
      have hitemHigh := mul_le_mul_of_nonneg_left hvalues.1.2 hweights.1
      rw [weight_cons, weighted_cons, add_mul, add_mul]
      exact ⟨add_le_add hitemLow hlow, add_le_add hitemHigh hhigh⟩

/-- An average lies between the least and the greatest value. -/
theorem average_bounds {items : List (K × K)} {low high : K}
    (hweights : ∀ item ∈ items, 0 ≤ item.1)
    (hvalues : ∀ item ∈ items, low ≤ item.2 ∧ item.2 ≤ high) (hpos : 0 < weight items) :
    low ≤ weighted items / weight items ∧ weighted items / weight items ≤ high := by
  obtain ⟨hlow, hhigh⟩ := weighted_bounds hweights hvalues
  rw [le_div_iff₀ hpos, div_le_iff₀ hpos, mul_comm low, mul_comm high]
  exact ⟨hlow, hhigh⟩

/-- Items of the same weights, the second ones with values as high or higher. -/
def Raised (items raised : List (K × K)) : Prop :=
  List.Forall₂ (fun item item' => item'.1 = item.1 ∧ item.2 ≤ item'.2) items raised

omit [IsStrictOrderedRing K] in
theorem Raised.weight_eq {items raised : List (K × K)} (h : Raised items raised) :
    weight raised = weight items := by
  induction h with
  | nil => rfl
  | cons hitem _ ih => rw [weight_cons, weight_cons, hitem.1, ih]

theorem Raised.weighted_le {items raised : List (K × K)} (h : Raised items raised)
    (hweights : ∀ item ∈ items, 0 ≤ item.1) : weighted items ≤ weighted raised := by
  induction h with
  | nil => exact le_rfl
  | cons hitem _ ih =>
      rw [List.forall_mem_cons] at hweights
      rw [weighted_cons, weighted_cons, hitem.1]
      exact add_le_add (mul_le_mul_of_nonneg_left hitem.2 hweights.1) (ih hweights.2)

/-- A mean of two values lies between what bounds both. -/
theorem mix_bounds {value target count k low high : K} (hcount : 0 < count) (hk : 0 ≤ k)
    (hvalue : low ≤ value ∧ value ≤ high) (htarget : low ≤ target ∧ target ≤ high) :
    low ≤ (count * value + k * target) / (count + k) ∧
      (count * value + k * target) / (count + k) ≤ high := by
  have hpos : 0 < count + k := add_pos_of_pos_of_nonneg hcount hk
  rw [le_div_iff₀ hpos, div_le_iff₀ hpos, mul_comm low, mul_comm high, add_mul, add_mul]
  constructor
  · exact add_le_add (mul_le_mul_of_nonneg_left hvalue.1 hcount.le)
      (mul_le_mul_of_nonneg_left htarget.1 hk)
  · exact add_le_add (mul_le_mul_of_nonneg_left hvalue.2 hcount.le)
      (mul_le_mul_of_nonneg_left htarget.2 hk)

theorem mix_mono {value value' target target' count k : K} (hcount : 0 < count) (hk : 0 ≤ k)
    (hvalue : value ≤ value') (htarget : target ≤ target') :
    (count * value + k * target) / (count + k) ≤
      (count * value' + k * target') / (count + k) :=
  div_le_div_of_nonneg_right (add_le_add (mul_le_mul_of_nonneg_left hvalue hcount.le)
    (mul_le_mul_of_nonneg_left htarget hk)) (add_pos_of_pos_of_nonneg hcount hk).le

end Averages
