import Frcmob.Lib.Numerals
import Mathlib.Data.Matrix.Mul
import Mathlib.Data.Fin.Tuple.Basic
import Mathlib.Algebra.BigOperators.Fin
import Mathlib.Tactic.Ring

/-!
Row operations on a linear system. The system `a h = b` is its augmented matrix, which vanishes
on `h` followed by `-1`; swapping rows and adding a row to others keep what a matrix vanishes on.
-/

namespace Elimination

open Matrix

variable {K : Type*} [Field K] {ι κ : Type*} [Fintype κ]

/-- All rows vanish on `y`. -/
def VanishesOn (m : Matrix ι κ K) (y : κ → K) : Prop :=
  ∀ r, m r ⬝ᵥ y = 0

theorem vanishesOn_perm {m : Matrix ι κ K} {y : κ → K} (σ : Equiv.Perm ι) :
    VanishesOn (fun r => m (σ r)) y ↔ VanishesOn m y := by
  constructor
  · intro h r
    have hr : m (σ (σ.symm r)) ⬝ᵥ y = 0 := h (σ.symm r)
    rwa [Equiv.apply_symm_apply] at hr
  · intro h r
    exact h (σ r)

theorem vanishesOn_sub {m m' : Matrix ι κ K} {y : κ → K} {f : ι → K} {p : ι}
    (hp : m' p = m p) (hother : ∀ r, r ≠ p → m' r = m r - f r • m p) :
    VanishesOn m' y ↔ VanishesOn m y := by
  have hrow : m p ⬝ᵥ y = 0 → ∀ r, r ≠ p → m' r ⬝ᵥ y = m r ⬝ᵥ y := by
    intro hpivot r hr
    rw [hother r hr, sub_dotProduct, smul_dotProduct, hpivot, smul_zero, sub_zero]
  constructor
  · intro h r
    have hpivot : m p ⬝ᵥ y = 0 := hp ▸ h p
    by_cases hr : r = p
    · rw [hr, hpivot]
    · rw [← hrow hpivot r hr, h r]
  · intro h r
    by_cases hr : r = p
    · rw [hr, hp, h p]
    · rw [hrow (h p) r hr, h r]

variable {n : Nat}

/-- In a column that is done only the diagonal is left. -/
def Cleared (done : Fin n → Prop) (m : Matrix (Fin n) (Fin (n + 1)) K) : Prop :=
  ∀ j, done j → m j j.castSucc ≠ 0 ∧ ∀ r, r ≠ j → m r j.castSucc = 0

theorem Cleared.perm {done : Fin n → Prop} {m : Matrix (Fin n) (Fin (n + 1)) K}
    (h : Cleared done m) {σ : Equiv.Perm (Fin n)} (hσ : ∀ j, done j → σ j = j) :
    Cleared done fun r => m (σ r) := by
  intro j hj
  change m (σ j) j.castSucc ≠ 0 ∧ _
  rw [hσ j hj]
  refine ⟨(h j hj).1, fun r hr => (h j hj).2 (σ r) ?_⟩
  intro heq
  exact hr (σ.injective (heq.trans (hσ j hj).symm))

theorem snoc_dotProduct_snoc (a h : Fin n → K) (b : K) :
    (Fin.snoc a b : Fin (n + 1) → K) ⬝ᵥ (Fin.snoc h (-1) : Fin (n + 1) → K) = a ⬝ᵥ h - b := by
  rw [dotProduct, Fin.sum_univ_castSucc]
  simp only [Fin.snoc_castSucc, Fin.snoc_last, mul_neg, mul_one, dotProduct]
  ring

/-- What an augmented matrix vanishes on solves its system. -/
theorem vanishesOn_snoc {a : Matrix (Fin n) (Fin n) K} {b h : Fin n → K} :
    VanishesOn (fun r => (Fin.snoc (a r) (b r) : Fin (n + 1) → K)) (Fin.snoc h (-1)) ↔
      ∀ r, a r ⬝ᵥ h = b r := by
  apply forall_congr'
  intro r
  rw [snoc_dotProduct_snoc, sub_eq_zero]

/-- The solution of a system with a diagonal matrix. -/
theorem Cleared.vanishesOn_iff {m : Matrix (Fin n) (Fin (n + 1)) K}
    (hm : Cleared (fun _ => True) m) {h : Fin n → K} :
    VanishesOn m (Fin.snoc h (-1) : Fin (n + 1) → K) ↔
      h = fun i => m i (Fin.last n) / m i i.castSucc := by
  have hrow : ∀ r, m r ⬝ᵥ (Fin.snoc h (-1) : Fin (n + 1) → K) =
      m r r.castSucc * h r - m r (Fin.last n) := by
    intro r
    rw [dotProduct, Fin.sum_univ_castSucc, Finset.sum_eq_single r]
    · simp only [Fin.snoc_castSucc, Fin.snoc_last]
      ring
    · intro c _ hc
      rw [(hm c trivial).2 r hc.symm, zero_mul]
    · exact fun hr => absurd (Finset.mem_univ r) hr
  rw [funext_iff]
  apply forall_congr'
  intro r
  rw [hrow, sub_eq_zero, eq_div_iff (hm r trivial).1, mul_comm]

end Elimination
