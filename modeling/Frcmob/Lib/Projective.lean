import Frcmob.Lib.Numerals
import Mathlib.Data.Matrix.Mul
import Mathlib.LinearAlgebra.Matrix.Notation
import Mathlib.Tactic.FieldSimp
import Mathlib.Tactic.Ring

/-!
Projective maps of the plane as 3x3 matrices. A matrix takes a point to another with a weight:
the third coordinate before the division. Weights multiply along compositions.
-/

namespace Projective

open Matrix

structure Point (K : Type*) where
  x : K
  y : K
deriving DecidableEq

variable {K : Type*} [Field K] {A B : Matrix (Fin 3) (Fin 3) K} {p q f : Point K} {w d : K}

def homogeneous (p : Point K) : Fin 3 → K :=
  ![p.x, p.y, 1]

def denominator (A : Matrix (Fin 3) (Fin 3) K) (p : Point K) : K :=
  A 2 0 * p.x + A 2 1 * p.y + A 2 2

def image (A : Matrix (Fin 3) (Fin 3) K) (p : Point K) : Point K where
  x := (A 0 0 * p.x + A 0 1 * p.y + A 0 2) / denominator A p
  y := (A 1 0 * p.x + A 1 1 * p.y + A 1 2) / denominator A p

structure Takes (A : Matrix (Fin 3) (Fin 3) K) (w : K) (p q : Point K) : Prop where
  weight : w ≠ 0
  eq : A *ᵥ homogeneous p = w • homogeneous q

theorem takes_iff : Takes A w p q ↔ w ≠ 0 ∧
    A 0 0 * p.x + A 0 1 * p.y + A 0 2 = w * q.x ∧
    A 1 0 * p.x + A 1 1 * p.y + A 1 2 = w * q.y ∧ denominator A p = w := by
  have heq : A *ᵥ homogeneous p = w • homogeneous q ↔
      A 0 0 * p.x + A 0 1 * p.y + A 0 2 = w * q.x ∧
      A 1 0 * p.x + A 1 1 * p.y + A 1 2 = w * q.y ∧ denominator A p = w := by
    rw [funext_iff, Fin.forall_fin_succ, Fin.forall_fin_succ, Fin.forall_fin_one]
    simp [homogeneous, denominator, mulVec, dotProduct, Fin.sum_univ_three]
  exact ⟨fun h => ⟨h.weight, heq.mp h.eq⟩, fun h => ⟨h.1, heq.mpr h.2⟩⟩

theorem takes_image (h : denominator A p ≠ 0) : Takes A (denominator A p) p (image A p) := by
  rw [takes_iff]
  refine ⟨h, ?_, ?_, rfl⟩
  · exact (mul_div_cancel₀ _ h).symm
  · exact (mul_div_cancel₀ _ h).symm

namespace Takes

theorem denominator_eq (h : Takes A w p q) : denominator A p = w :=
  (takes_iff.mp h).2.2.2

theorem image_eq (h : Takes A w p q) : image A p = q := by
  obtain ⟨hw, hx, hy, hd⟩ := takes_iff.mp h
  rw [image, hd, hx, hy, mul_div_cancel_left₀ _ hw, mul_div_cancel_left₀ _ hw]

theorem comp (hA : Takes A w p q) (hB : Takes B d q f) : Takes (B * A) (w * d) p f where
  weight := mul_ne_zero hA.weight hB.weight
  eq := by rw [← mulVec_mulVec, hA.eq, mulVec_smul, hB.eq, smul_smul]

theorem smul {c : K} (hc : c ≠ 0) (h : Takes A w p q) : Takes (c • A) (c * w) p q where
  weight := mul_ne_zero hc h.weight
  eq := by rw [smul_mulVec, h.eq, smul_smul]

/-- A left inverse takes the image back. -/
theorem inverse (h : Takes A w p q) (hB : B * A = 1) : Takes B w⁻¹ q p where
  weight := inv_ne_zero h.weight
  eq := by
    have hback : B *ᵥ (w • homogeneous q) = homogeneous p := by
      rw [← h.eq, mulVec_mulVec, hB, one_mulVec]
    rw [← hback, mulVec_smul, smul_smul, inv_mul_cancel₀ h.weight, one_smul]

end Takes

end Projective
