import Frcmob.OnDevice.Homography
import Mathlib.Algebra.Order.BigOperators.Group.Finset
import Mathlib.LinearAlgebra.Matrix.Adjugate
import Mathlib.Tactic.LinearCombination

/-!
A calibration takes its taps to their corners exactly and its inverse takes them back, and a pose
that is carried along keeps where a moving point stands on the field. The guards against small
denominators and determinants are what may refuse an answer.
-/

universe u

namespace Frcmob.OnDevice

open Projective Elimination Matrix

variable {K : Type u} [Field K] [LinearOrder K] [IsStrictOrderedRing K]

theorem tiny_pos : (0 : K) < tiny :=
  one_div_pos.mpr (pow_pos (by norm_num) 12)

theorem ne_zero_of_not_lt_tiny {x : K} (h : ¬|x| < tiny) : x ≠ 0 := by
  rintro rfl
  rw [abs_zero] at h
  exact h tiny_pos

theorem exists_of_bind_ok {ε : Type*} {α β : Type u} {x : Except ε α} {g : α → Except ε β} {b : β}
    (h : x >>= g = .ok b) : ∃ a, x = .ok a ∧ g a = .ok b := by
  cases x with
  | error e => cases h
  | ok a => exact ⟨a, rfl, h⟩

/-! ### The linear solve -/

section
variable {n : Nat} {m m' : Augmented n K} {col : Fin n}

omit [IsStrictOrderedRing K] in
theorem le_pivotRow (m : Augmented n K) (col : Fin n) : col ≤ pivotRow m col := by
  have hfold : ∀ (rows : List (Fin n)) (pivot : Fin n), col ≤ pivot →
      (∀ r ∈ rows, col < r) →
      col ≤ rows.foldl
        (fun pivot r => if |m pivot col.castSucc| < |m r col.castSucc| then r else pivot) pivot := by
    intro rows
    induction rows with
    | nil => exact fun _ hpivot _ => hpivot
    | cons r rest ih =>
        intro pivot hpivot hrows
        rw [List.foldl_cons]
        apply ih _ _ fun q hq => hrows q (List.mem_cons_of_mem _ hq)
        split
        · exact (hrows r List.mem_cons_self).le
        · exact hpivot
  exact hfold _ _ le_rfl fun r hr => of_decide_eq_true (List.mem_filter.mp hr).2

omit [LinearOrder K] [IsStrictOrderedRing K] in
/-- Left of the column there is nothing to take away. -/
theorem eliminate_row (hm : Cleared (· < col) m) {r : Fin n} (hr : r ≠ col) :
    eliminate m col r = m r - (m r col.castSucc / m col col.castSucc) • m col := by
  funext c
  rw [Pi.sub_apply, Pi.smul_apply, smul_eq_mul, eliminate]
  by_cases hc : c < col.castSucc
  · have hlt : c.val < n := lt_trans hc col.isLt
    have hzero : m col c = 0 := (hm ⟨c, hlt⟩ hc).2 col (ne_of_gt hc)
    rw [if_pos (.inr hc), hzero, mul_zero, sub_zero]
  · rw [if_neg (by simp [hr, hc])]

omit [LinearOrder K] [IsStrictOrderedRing K] in
theorem eliminate_self (m : Augmented n K) (col : Fin n) : eliminate m col col = m col := by
  funext c
  exact if_pos (.inl rfl)

omit [LinearOrder K] [IsStrictOrderedRing K] in
theorem cleared_eliminate (hm : Cleared (· < col) m) (hpivot : m col col.castSucc ≠ 0) :
    Cleared (· ≤ col) (eliminate m col) := by
  intro j hj
  rcases lt_or_eq_of_le hj with hlt | rfl
  · obtain ⟨hdiagonal, hzero⟩ := hm j hlt
    have hsame : ∀ r, eliminate m col r j.castSucc = m r j.castSucc :=
      fun r => if_pos (.inr hlt)
    rw [hsame]
    exact ⟨hdiagonal, fun r hr => (hsame r).trans (hzero r hr)⟩
  · rw [eliminate_self]
    refine ⟨hpivot, fun r hr => ?_⟩
    rw [eliminate_row hm hr, Pi.sub_apply, Pi.smul_apply, smul_eq_mul, div_mul_cancel₀ _ hpivot,
      sub_self]

/-- One column: what is done stays done, and no solution is lost or won. -/
theorem clearColumn_step (hm : Cleared (· < col) m) (h : clearColumn m col = .ok m') :
    Cleared (· ≤ col) m' ∧ ∀ y, VanishesOn m' y ↔ VanishesOn m y := by
  rw [clearColumn] at h
  split at h
  · cases h
  · rename_i hpivot
    cases h
    have hswapped : Cleared (· < col) fun r => m (Equiv.swap col (pivotRow m col) r) := by
      apply hm.perm
      intro j hj
      exact Equiv.swap_apply_of_ne_of_ne (ne_of_lt hj)
        (ne_of_lt (lt_of_lt_of_le hj (le_pivotRow m col)))
    constructor
    · apply cleared_eliminate hswapped
      rw [Equiv.swap_apply_left]
      exact ne_zero_of_not_lt_tiny hpivot
    · intro y
      rw [vanishesOn_sub (eliminate_self _ col) fun r hr => eliminate_row hswapped hr,
        vanishesOn_perm]

/-- All columns, from those that are done on. -/
theorem clearColumns_run {cols done : List (Fin n)} (hcols : done ++ cols = List.finRange n)
    (hm : Cleared (· ∈ done) m) (h : cols.foldlM clearColumn m = .ok m') :
    Cleared (fun _ => True) m' ∧ ∀ y, VanishesOn m' y ↔ VanishesOn m y := by
  induction cols generalizing done m with
  | nil =>
      cases h
      rw [List.append_nil] at hcols
      exact ⟨fun j _ => hm j (hcols ▸ List.mem_finRange j), fun _ => Iff.rfl⟩
  | cons col rest ih =>
      have hsorted := List.pairwise_lt_finRange n
      rw [← hcols, List.pairwise_append, List.pairwise_cons] at hsorted
      have hall : ∀ j, j ∈ done ∨ j = col ∨ j ∈ rest := by
        intro j
        have hj := List.mem_finRange j
        rwa [← hcols, List.mem_append, List.mem_cons] at hj
      have hlt : ∀ j, j < col → j ∈ done := by
        intro j hj
        rcases hall j with hdone | rfl | hrest
        · exact hdone
        · exact absurd hj (lt_irrefl _)
        · exact absurd hj (hsorted.2.1.1 j hrest).asymm
      rw [List.foldlM_cons] at h
      obtain ⟨next, hstep, h⟩ := exists_of_bind_ok h
      obtain ⟨hnext, hback⟩ := clearColumn_step (fun j hj => hm j (hlt j hj)) hstep
      have hdone : Cleared (· ∈ done ++ [col]) next := by
        intro j hj
        apply hnext j
        rcases List.mem_append.mp hj with hin | hin
        · exact (hsorted.2.2 j hin col List.mem_cons_self).le
        · exact (List.mem_singleton.mp hin).le
      obtain ⟨hlast, hrest⟩ := ih ((List.append_assoc ..).trans hcols) hdone h
      exact ⟨hlast, fun y => (hrest y).trans (hback y)⟩

theorem clearColumns_spec {a : Matrix (Fin n) (Fin n) K} {b : Fin n → K}
    (h : (List.finRange n).foldlM clearColumn (fun r => Fin.snoc (a r) (b r)) = .ok m) :
    Cleared (fun _ => True) m ∧ ∀ x, (∀ r, a r ⬝ᵥ x = b r) ↔
      x = fun i => m i (Fin.last n) / m i i.castSucc := by
  obtain ⟨hcleared, hsame⟩ := clearColumns_run (List.nil_append _)
    (fun j hj => absurd hj List.not_mem_nil) h
  refine ⟨hcleared, fun x => ?_⟩
  rw [← vanishesOn_snoc, ← hsame, hcleared.vanishesOn_iff]

theorem solveLinear_solves {a : Matrix (Fin n) (Fin n) K} {b h : Fin n → K}
    (hsolve : solveLinear a b = .ok h) (r : Fin n) : a r ⬝ᵥ h = b r := by
  obtain ⟨m, hrun, hsolution⟩ := exists_of_bind_ok hsolve
  cases hsolution
  exact ((clearColumns_spec hrun).2 _).mpr rfl r

end

/-! ### Homographies -/

omit [IsStrictOrderedRing K] in
theorem projectPoint_eq (h : Mat3 K) (p : Point K) :
    projectPoint h p.x p.y =
      if |denominator h p| < tiny then .error "point projects to infinity"
      else .ok (image h p) := rfl

/-- The two equations of a correspondence. -/
theorem correspondence {src dst : Fin 4 → Point K} {x : Fin 8 → K}
    (h : solveLinear (equations src dst) (targets dst) = .ok x) (i : Fin 4) :
    (src i).x * x 0 + (src i).y * x 1 + x 2 - (dst i).x * (src i).x * x 6 -
        (dst i).x * (src i).y * x 7 = (dst i).x ∧
      (src i).x * x 3 + (src i).y * x 4 + x 5 - (dst i).y * (src i).x * x 6 -
        (dst i).y * (src i).y * x 7 = (dst i).y := by
  have hu := solveLinear_solves h ⟨2 * i.val, by omega⟩
  have hv := solveLinear_solves h ⟨2 * i.val + 1, by omega⟩
  have heven : 2 * i.val / 2 = i.val := by omega
  have hodd : (2 * i.val + 1) / 2 = i.val := by omega
  simp only [equations, targets, heven, Nat.mul_mod_right, if_true, Fin.eta, dotProduct,
    Fin.sum_univ_eight] at hu
  have hmod : (2 * i.val + 1) % 2 ≠ 0 := by omega
  simp only [equations, targets, hodd, if_neg hmod, Fin.eta, dotProduct,
    Fin.sum_univ_eight] at hv
  simp at hu hv
  constructor
  · linear_combination hu
  · linear_combination hv

theorem homographyFrom4_takes {src dst : Fin 4 → Point K} {homography : Mat3 K}
    (h : homographyFrom4 src dst = .ok homography) {i : Fin 4}
    (hi : denominator homography (src i) ≠ 0) :
    Takes homography (denominator homography (src i)) (src i) (dst i) := by
  obtain ⟨x, hsolve, hmatrix⟩ := exists_of_bind_ok h
  cases hmatrix
  obtain ⟨hu, hv⟩ := correspondence hsolve i
  rw [takes_iff]
  refine ⟨hi, ?_, ?_, rfl⟩
  · simp [denominator]
    linear_combination hu
  · simp [denominator]
    linear_combination hv

omit [IsStrictOrderedRing K] in
/-- The loop has projected every tap. -/
theorem squaredErrors_ok {h : Mat3 K} {pairs : List (Point K × Point K)} {total : K}
    (hok : squaredErrors h pairs = .ok total) {pair : Point K × Point K} (hpair : pair ∈ pairs) :
    ¬|denominator h pair.1| < tiny := by
  have hfold : ∀ (rest : List (Point K × Point K)) (sum : K), pair ∈ rest →
      rest.foldlM (fun sum pair => do
        let p ← projectPoint h pair.1.x pair.1.y
        return sum + ((p.x - pair.2.x) ^ 2 + (p.y - pair.2.y) ^ 2)) sum = .ok total →
      ¬|denominator h pair.1| < tiny := by
    intro rest
    induction rest with
    | nil => exact fun _ hin => absurd hin List.not_mem_nil
    | cons head rest ih =>
        intro sum hin hok
        rw [List.foldlM_cons, projectPoint_eq] at hok
        split at hok
        · cases hok
        · rename_i hhead
          rcases List.mem_cons.mp hin with rfl | hin
          · exact hhead
          · exact ih _ hin hok
  exact hfold pairs 0 hpair hok

omit [LinearOrder K] [IsStrictOrderedRing K] in
theorem adjugate_div_mul {m : Mat3 K} (h : m.det ≠ 0) : m.adjugate.map (· / m.det) * m = 1 := by
  have hscaled : m.adjugate.map (· / m.det) = m.det⁻¹ • m.adjugate := by
    funext i j
    exact div_eq_inv_mul _ _
  rw [hscaled, smul_mul, adjugate_mul, smul_smul, inv_mul_cancel₀ h, one_smul]

theorem invert3_mul {m inverse : Mat3 K} (h : invert3 m = .ok inverse) : inverse * m = 1 := by
  have hdet : m 0 0 * (m 1 1 * m 2 2 - m 1 2 * m 2 1) - m 0 1 * (m 1 0 * m 2 2 - m 1 2 * m 2 0) +
      m 0 2 * (m 1 0 * m 2 1 - m 1 1 * m 2 0) = m.det := by
    rw [det_fin_three]
    ring
  have hadjugate : !![m 1 1 * m 2 2 - m 1 2 * m 2 1, m 0 2 * m 2 1 - m 0 1 * m 2 2,
        m 0 1 * m 1 2 - m 0 2 * m 1 1;
      m 1 2 * m 2 0 - m 1 0 * m 2 2, m 0 0 * m 2 2 - m 0 2 * m 2 0,
        m 0 2 * m 1 0 - m 0 0 * m 1 2;
      m 1 0 * m 2 1 - m 1 1 * m 2 0, m 0 1 * m 2 0 - m 0 0 * m 2 1,
        m 0 0 * m 1 1 - m 0 1 * m 1 0] = m.adjugate := by
    rw [adjugate_fin_three]
    funext i j
    fin_cases i <;> fin_cases j <;> simp <;> ring
  rw [invert3, hdet, hadjugate] at h
  split at h
  · cases h
  · rename_i hguard
    cases h
    exact adjugate_div_mul (ne_zero_of_not_lt_tiny hguard)

omit [LinearOrder K] [IsStrictOrderedRing K] in
theorem mat3mul_eq (a b : Mat3 K) : mat3mul a b = a * b := by
  funext i j
  rw [mul_apply, Fin.sum_univ_three, mat3mul]

/-! ### Motions -/

/-- The point's way through the frames meets no zero denominator. -/
def NoneVanish : List (Mat3 K) → Point K → Prop
  | [], _ => True
  | motion :: rest, p => denominator motion p ≠ 0 ∧ NoneVanish rest (image motion p)

/-- What the motions scale the point by. -/
def weight : List (Mat3 K) → Point K → K
  | [], _ => 1
  | motion :: rest, p => denominator motion p * weight rest (image motion p)

def moved (motions : List (Mat3 K)) (p : Point K) : Point K :=
  motions.foldl (fun p motion => image motion p) p

theorem carryPose_takes {pose motion next : Mat3 K} {p f : Point K} {d : K}
    (h : carryPose pose motion = .ok next) (hpose : Takes pose d p f)
    (hmotion : denominator motion p ≠ 0) :
    Takes next ((denominator motion p)⁻¹ * d) (image motion p) f := by
  obtain ⟨inverse, hinvert, hnext⟩ := exists_of_bind_ok h
  cases hnext
  rw [mat3mul_eq]
  exact ((takes_image hmotion).inverse (invert3_mul hinvert)).comp hpose

/-- Along a run of motions the carried pose takes the moving point where the base took it. -/
theorem carryPose_run {motions : List (Mat3 K)} {base pose : Mat3 K} {p f : Point K} {d : K}
    (hrun : motions.foldlM carryPose base = .ok pose) (hpath : NoneVanish motions p)
    (hbase : Takes base d p f) :
    Takes pose (d / weight motions p) (moved motions p) f := by
  induction motions generalizing base p d with
  | nil =>
      cases hrun
      rw [weight, div_one]
      exact hbase
  | cons motion rest ih =>
      rw [List.foldlM_cons] at hrun
      obtain ⟨next, hstep, hrun⟩ := exists_of_bind_ok hrun
      have hrest := ih hrun hpath.2 (carryPose_takes hstep hbase hpath.1)
      rwa [inv_mul_eq_div, div_div] at hrest

/-! ### Calibrations -/

theorem calibrateFromTaps_takes {sqrt : K → K} {imagePoints fieldPoints : List (Point K)}
    {cal : Calibration K} (h : calibrateFromTaps sqrt imagePoints fieldPoints = .ok cal)
    {pair : Point K × Point K} (hpair : pair ∈ imagePoints.zip fieldPoints) :
    ¬|denominator cal.homography pair.1| < tiny ∧ cal.inverse * cal.homography = 1 ∧
      Takes cal.homography (denominator cal.homography pair.1) pair.1 pair.2 := by
  rw [calibrateFromTaps] at h
  split at h
  · cases h
  split at h
  · cases h
  rename_i hfour
  rw [not_not] at hfour
  obtain ⟨i, hi, rfl⟩ := List.mem_iff_getElem.mp hpair
  rw [List.length_zip, lt_min_iff] at hi
  obtain ⟨homography, hsolve, h⟩ := exists_of_bind_ok h
  obtain ⟨inverse, hinvert, h⟩ := exists_of_bind_ok h
  obtain ⟨rmseM, hrmse, h⟩ := exists_of_bind_ok h
  cases h
  rw [reprojectionRmse, if_neg (by omega)] at hrmse
  obtain ⟨total, htotal, -⟩ := exists_of_bind_ok hrmse
  have hguard := squaredErrors_ok htotal hpair
  rw [List.getElem_zip] at hguard ⊢
  exact ⟨hguard, invert3_mul hinvert,
    homographyFrom4_takes hsolve (i := ⟨i, by omega⟩) (ne_zero_of_not_lt_tiny hguard)⟩

theorem abs_inv_lt_tiny {w : K} (hw : w ≠ 0) : |w⁻¹| < tiny ↔ 10 ^ 12 < |w| := by
  rw [abs_inv, tiny, one_div]
  exact inv_lt_inv₀ (abs_pos.mpr hw) (pow_pos (by norm_num) 12)

/-- Taps and corners are taken to each other, and a carried pose takes a moving point where it
stood on the field, but for the points that are refused as too near to infinity. -/
theorem homography_exact (sqrt : K → K) :
    (∀ imagePoints fieldPoints cal, calibrateFromTaps sqrt imagePoints fieldPoints = .ok cal →
      ∀ tap corner, (tap, corner) ∈ imagePoints.zip fieldPoints →
        projectPoint cal.homography tap.x tap.y = .ok corner ∧
          projectPoint cal.inverse corner.x corner.y =
            if 10 ^ 12 < |denominator cal.homography tap| then
              .error "point projects to infinity"
            else .ok tap) ∧
      ∀ (motions : List (Mat3 K)) (base pose : Mat3 K) (p : Point K),
        motions.foldlM carryPose base = .ok pose →
        NoneVanish motions p → denominator base p ≠ 0 →
          projectPoint pose (moved motions p).x (moved motions p).y =
            if |denominator base p / weight motions p| < tiny then
              .error "point projects to infinity"
            else .ok (image base p) := by
  constructor
  · intro imagePoints fieldPoints cal hcal tap corner hpair
    obtain ⟨hguard, hinverse, htakes⟩ := calibrateFromTaps_takes hcal hpair
    have hback := htakes.inverse hinverse
    rw [projectPoint_eq, if_neg hguard, htakes.image_eq, projectPoint_eq, hback.denominator_eq,
      hback.image_eq]
    simp only [abs_inv_lt_tiny htakes.weight, true_and]
  · intro motions base pose p hrun hpath hbase
    have htakes := carryPose_run hrun hpath (takes_image hbase)
    rw [projectPoint_eq, htakes.denominator_eq, htakes.image_eq]

theorem homography_exact_unitSquare :
    let cal : Calibration ℚ :=
      ⟨!![16, 0, 0; 0, 8, 0; 0, 0, 1], !![8, 0, 0; 0, 16, 0; 0, 0, 128].map (· / 128), 0⟩
    let carried := mat3mul cal.homography (!![1, 0, -2; 0, 1, -1; 0, 0, 1].map (· / 1))
    projectPoint cal.homography 1 1 = .ok ⟨16, 8⟩ ∧ projectPoint cal.inverse 16 8 = .ok ⟨1, 1⟩ ∧
      projectPoint carried 3 2 = .ok ⟨16, 8⟩ := by
  obtain ⟨hto, hback⟩ := (homography_exact id).1 [⟨0, 0⟩, ⟨1, 0⟩, ⟨1, 1⟩, ⟨0, 1⟩]
    (fieldReferenceCorners (16 : ℚ) 8)
    ⟨!![16, 0, 0; 0, 8, 0; 0, 0, 1], !![8, 0, 0; 0, 16, 0; 0, 0, 128].map (· / 128), 0⟩
    (by decide +kernel) ⟨1, 1⟩ ⟨16, 8⟩ (by decide +kernel)
  have hcarried := (homography_exact id).2 [!![1, 0, 2; 0, 1, 1; 0, 0, 1]]
    !![16, 0, 0; 0, 8, 0; 0, 0, 1]
    (mat3mul !![(16 : ℚ), 0, 0; 0, 8, 0; 0, 0, 1] (!![1, 0, -2; 0, 1, -1; 0, 0, 1].map (· / 1)))
    ⟨1, 1⟩ (by decide +kernel) ⟨by decide +kernel, trivial⟩ (by decide +kernel)
  have hmoved : moved [!![1, 0, 2; 0, 1, 1; 0, 0, 1]] (⟨1, 1⟩ : Point ℚ) = ⟨3, 2⟩ := by
    decide +kernel
  have himage : image !![(16 : ℚ), 0, 0; 0, 8, 0; 0, 0, 1] ⟨1, 1⟩ = ⟨16, 8⟩ := by decide +kernel
  rw [hmoved, himage, if_neg (by decide +kernel)] at hcarried
  rw [if_neg (by decide +kernel)] at hback
  exact ⟨hto, hback, hcarried⟩

/-- Taps of a field seen up to a horizon just above the frame, and a motion that shrinks the
frame: the way back and the motion are refused, though no denominator is zero. -/
theorem nonzero_refused :
    ((calibrateFromTaps id
        [⟨100, 1000 - 1 / 10 ^ 10⟩, ⟨900, 1000 - 1 / 10 ^ 10⟩, ⟨700, 500 - 1 / 10 ^ 10⟩,
          ⟨300, 500 - 1 / 10 ^ 10⟩]
        (fieldReferenceCorners (16 : ℚ) 8)).map fun cal =>
      (denominator cal.homography ⟨100, 1000 - 1 / 10 ^ 10⟩, projectPoint cal.inverse 0 0)) =
        .ok (10 ^ 13, .error "point projects to infinity") ∧
      NoneVanish [!![(1 / 10 ^ 7 : ℚ), 0, 0; 0, 1 / 10 ^ 7, 0; 0, 0, 1]] ⟨0, 0⟩ ∧
      ((carryPose (1 : Mat3 ℚ) !![1 / 10 ^ 7, 0, 0; 0, 1 / 10 ^ 7, 0; 0, 0, 1]).map
        fun pose => denominator pose ⟨0, 0⟩) = .error "singular homography" := by
  exact ⟨by decide +kernel, ⟨by decide +kernel, trivial⟩, by decide +kernel⟩

end Frcmob.OnDevice
