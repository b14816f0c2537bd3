import Frcmob.Lib.Numerals
import Mathlib.Algebra.BigOperators.Field
import Mathlib.Algebra.Order.Field.Basic
import Mathlib.LinearAlgebra.SesquilinearForm.Basic
import Mathlib.Tactic.FieldSimp
import Mathlib.Tactic.Ring

/-!
Covariance matrices over an ordered field, indexed by the members of a finite set: a
symmetric matrix whose quadratic form is nonnegative. Its entries outside the set do not
matter. The operations are those of a Kalman filter on sums of variables: a new independent
variable, more variance of one variable, and the correction by the observation of a sum.
-/

open Finset

namespace Covariance

universe u v
variable {ι : Type u} {K : Type v}

section Form
variable [Field K]

/-- The covariance of the weighted sums `x` and `y`. -/
def form (I : Finset ι) (C : ι → ι → K) (x y : ι → K) : K :=
  ∑ a ∈ I, ∑ c ∈ I, x a * C a c * y c

/-- The covariance of each variable with the weighted sum `x`. -/
def apply (I : Finset ι) (C : ι → ι → K) (x : ι → K) (a : ι) : K :=
  ∑ c ∈ I, C a c * x c

theorem form_eq_sum_apply (I : Finset ι) (C : ι → ι → K) (x y : ι → K) :
    form I C x y = ∑ a ∈ I, x a * apply I C y a := by
  apply sum_congr rfl
  intro a _
  rw [apply, mul_sum]
  apply sum_congr rfl
  intro c _
  rw [mul_assoc]

def bilin (I : Finset ι) (C : ι → ι → K) : LinearMap.BilinForm K (ι → K) :=
  LinearMap.mk₂ K (form I C)
    (fun x x' y => by simp only [form, Pi.add_apply, add_mul, sum_add_distrib])
    (fun k x y => by
      simp only [form, Pi.smul_apply, smul_eq_mul, mul_sum]
      exact sum_congr rfl fun a _ => sum_congr rfl fun c _ => by ring)
    (fun x y y' => by simp only [form, Pi.add_apply, mul_add, sum_add_distrib])
    (fun k x y => by
      simp only [form, Pi.smul_apply, smul_eq_mul, mul_sum]
      exact sum_congr rfl fun a _ => sum_congr rfl fun c _ => by ring)

@[simp] theorem bilin_apply (I : Finset ι) (C : ι → ι → K) (x y : ι → K) :
    bilin I C x y = form I C x y := rfl

theorem form_single [DecidableEq ι] {I : Finset ι} (C : ι → ι → K) {a : ι} (h : a ∈ I) :
    form I C (Pi.single a 1) (Pi.single a 1) = C a a := by
  simp [form, Pi.single_apply, h]

/-- A new variable, independent of the others. -/
def inserted [DecidableEq ι] (C : ι → ι → K) (b : ι) (v : K) (a c : ι) : K :=
  if a = b then if c = b then v else 0 else if c = b then 0 else C a c

/-- More variance of one variable. -/
def widened [DecidableEq ι] (C : ι → ι → K) (b : ι) (v : K) (a c : ι) : K :=
  if a = b ∧ c = b then C a c + v else C a c

/-- What the observation of the sum `x`, `s` its variance with the noise, leaves. -/
def corrected (I : Finset ι) (C : ι → ι → K) (x : ι → K) (s : K) (a c : ι) : K :=
  C a c - apply I C x a / s * apply I C x c

variable {I : Finset ι} {C : ι → ι → K}

theorem form_congr {C' : ι → ι → K} (heq : ∀ a ∈ I, ∀ c ∈ I, C' a c = C a c) (x y : ι → K) :
    form I C' x y = form I C x y :=
  sum_congr rfl fun a ha => sum_congr rfl fun c hc => by rw [heq a ha c hc]

/-- A variable with weight zero does not count. -/
theorem form_insert_of_zero [DecidableEq ι] {b : ι} {x : ι → K} (hx : x b = 0) :
    form (insert b I) C x x = form I C x x := by
  by_cases hb : b ∈ I
  · rw [insert_eq_of_mem hb]
  · simp [form, sum_insert hb, hx]

/-- The variable's old row and column are gone, if it had any. -/
theorem form_inserted [DecidableEq ι] (b : ι) (v : K) (x : ι → K) :
    form (insert b I) (inserted C b v) x x =
      v * (x b * x b) + form I C (Function.update x b 0) (Function.update x b 0) := by
  have hentry : ∀ a c, x a * inserted C b v a c * x c =
      (if a = b then if c = b then v * (x b * x b) else 0 else 0) +
        Function.update x b 0 a * C a c * Function.update x b 0 c := by
    intro a c
    by_cases ha : a = b
    · by_cases hc : c = b
      · subst ha
        simp [inserted, hc]
        ring
      · simp [inserted, ha, hc]
    · by_cases hc : c = b
      · simp [inserted, ha, hc]
      · simp [inserted, ha, hc]
  have hnew : ∑ a ∈ insert b I, ∑ c ∈ insert b I,
      (if a = b then if c = b then v * (x b * x b) else 0 else 0) = v * (x b * x b) := by
    simp
  rw [← form_insert_of_zero (b := b) (Function.update_self b 0 x), ← hnew, form, form,
    ← sum_add_distrib]
  apply sum_congr rfl
  intro a _
  rw [← sum_add_distrib]
  exact sum_congr rfl fun c _ => hentry a c

theorem form_widened [DecidableEq ι] (b : ι) (v : K) (x : ι → K) :
    form I (widened C b v) x x = form I C x x + if b ∈ I then v * (x b * x b) else 0 := by
  have hentry : ∀ a c, x a * widened C b v a c * x c =
      x a * C a c * x c + if a = b then if c = b then v * (x b * x b) else 0 else 0 := by
    intro a c
    rw [widened]
    by_cases ha : a = b
    · by_cases hc : c = b
      · rw [if_pos ⟨ha, hc⟩, if_pos ha, if_pos hc, ha, hc]
        ring
      · simp [hc]
    · simp [ha]
  simp only [form, hentry, sum_add_distrib]
  by_cases hb : b ∈ I <;> simp [hb]

theorem corrected_symm (hsymm : ∀ a ∈ I, ∀ c ∈ I, C a c = C c a) (x : ι → K) (s : K) {a c : ι}
    (ha : a ∈ I) (hc : c ∈ I) : corrected I C x s a c = corrected I C x s c a := by
  rw [corrected, corrected, hsymm a ha c hc]
  ring

theorem form_corrected (x : ι → K) (s : K) (y : ι → K) :
    form I (corrected I C x s) y y = form I C y y - form I C y x ^ 2 / s := by
  have hrank : ∑ a ∈ I, ∑ c ∈ I, y a * (apply I C x a / s * apply I C x c) * y c =
      form I C y x ^ 2 / s := by
    rw [form_eq_sum_apply, sq, sum_mul_sum, sum_div]
    apply sum_congr rfl
    intro a _
    rw [sum_div]
    apply sum_congr rfl
    intro c _
    ring
  rw [← hrank, form, form, ← sum_sub_distrib]
  apply sum_congr rfl
  intro a _
  rw [← sum_sub_distrib]
  apply sum_congr rfl
  intro c _
  rw [corrected]
  ring

end Form

section Order
variable [Field K] [LinearOrder K]

structure IsCovariance (I : Finset ι) (C : ι → ι → K) : Prop where
  symm : ∀ a ∈ I, ∀ c ∈ I, C a c = C c a
  nonneg : ∀ x, 0 ≤ form I C x x

variable {I : Finset ι} {C : ι → ι → K}

namespace IsCovariance

theorem empty (C : ι → ι → K) : IsCovariance ∅ C :=
  ⟨fun _ h => absurd h (notMem_empty _), fun _ => le_refl _⟩

theorem congr {C' : ι → ι → K} (h : IsCovariance I C)
    (heq : ∀ a ∈ I, ∀ c ∈ I, C' a c = C a c) : IsCovariance I C' := by
  constructor
  · intro a ha c hc
    rw [heq a ha c hc, heq c hc a ha, h.symm a ha c hc]
  · intro x
    rw [form_congr heq]
    exact h.nonneg x

/-- A variance is not negative. -/
theorem diag_nonneg [DecidableEq ι] (h : IsCovariance I C) {a : ι} (ha : a ∈ I) : 0 ≤ C a a := by
  rw [← form_single C ha]
  exact h.nonneg _

theorem form_comm (h : IsCovariance I C) (x y : ι → K) : form I C x y = form I C y x := by
  rw [form, form, sum_comm]
  exact sum_congr rfl fun a ha => sum_congr rfl fun c hc => by rw [h.symm c hc a ha]; ring

variable [IsStrictOrderedRing K]

/-- Cauchy–Schwarz. -/
theorem form_sq_le (h : IsCovariance I C) (x y : ι → K) :
    form I C x y ^ 2 ≤ form I C x x * form I C y y := by
  have hmul := LinearMap.BilinForm.apply_mul_apply_le_of_forall_zero_le (bilin I C) h.nonneg x y
  simp only [bilin_apply] at hmul
  rw [sq]
  rwa [h.form_comm y x] at hmul

theorem insert [DecidableEq ι] (h : IsCovariance I C) (b : ι) {v : K} (hv : 0 ≤ v) :
    IsCovariance (insert b I) (inserted C b v) := by
  constructor
  · intro a ha c hc
    simp only [inserted]
    split <;> split <;> try rfl
    exact h.symm a (mem_of_mem_insert_of_ne ha ‹_›) c (mem_of_mem_insert_of_ne hc ‹_›)
  · intro x
    rw [form_inserted]
    exact add_nonneg (mul_nonneg hv (mul_self_nonneg _)) (h.nonneg _)

theorem widen [DecidableEq ι] (h : IsCovariance I C) (b : ι) {v : K} (hv : 0 ≤ v) :
    IsCovariance I (widened C b v) := by
  constructor
  · intro a ha c hc
    simp only [widened, h.symm a ha c hc, and_comm]
  · intro x
    rw [form_widened]
    apply add_nonneg (h.nonneg x)
    split
    · exact mul_nonneg hv (mul_self_nonneg _)
    · exact le_refl 0

/-- The correction keeps a covariance: the divisor is at least the variance of the sum. -/
theorem correct (h : IsCovariance I C) (x : ι → K) {s : K} (hs : 0 < s) (hle : form I C x x ≤ s) :
    IsCovariance I (corrected I C x s) := by
  constructor
  · intro a ha c hc
    exact corrected_symm h.symm x s ha hc
  · intro y
    rw [form_corrected, sub_nonneg, div_le_iff₀ hs]
    calc form I C y x ^ 2 ≤ form I C y y * form I C x x := h.form_sq_le y x
      _ ≤ form I C y y * s := mul_le_mul_of_nonneg_left hle (h.nonneg y)

end IsCovariance

theorem corrected_diag_le [IsStrictOrderedRing K] (x : ι → K) {s : K} (hs : 0 < s) (a : ι) :
    corrected I C x s a a ≤ C a a := by
  rw [corrected, sub_le_self_iff, div_mul_eq_mul_div]
  exact div_nonneg (mul_self_nonneg _) hs.le

end Order
end Covariance
