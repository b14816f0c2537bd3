import Frcmob.OnDevice.Exact
import Frcmob.OnDevice.OpticalFlow
import Mathlib.Data.Rat.Floor

/-!
The fit to points that one homography has moved is that homography or nothing. The linear solve
answers with the only solution of its system, and the normal equations of such points have the
homography as a solution, whichever points the consensus has kept.
-/

universe u

namespace Frcmob.OnDevice

open Projective Matrix

variable {K : Type u} [Field K] [LinearOrder K] [IsStrictOrderedRing K]

/-! ### The linear solve -/

section
variable {n : Nat}

omit [IsStrictOrderedRing K] in
theorem clearColumnOrNull_eq (m : Augmented n K) (col : Fin n) :
    clearColumnOrNull m col = (clearColumn m col).toOption := by
  unfold clearColumnOrNull clearColumn
  extract_lets pivot
  split
  · rfl
  · rfl

omit [IsStrictOrderedRing K] in
theorem clearColumnsOrNull_eq (cols : List (Fin n)) (m : Augmented n K) :
    cols.foldlM clearColumnOrNull m = (cols.foldlM clearColumn m).toOption := by
  induction cols generalizing m with
  | nil => rfl
  | cons col rest ih =>
      rw [List.foldlM_cons, List.foldlM_cons, clearColumnOrNull_eq]
      cases clearColumn m col with
      | error _ => rfl
      | ok next => exact ih next

theorem solveLinearOrNull_spec {a : Matrix (Fin n) (Fin n) K} {b h : Fin n → K}
    (hsolve : solveLinearOrNull a b = some h) (x : Fin n → K) :
    (∀ r, a r ⬝ᵥ x = b r) ↔ x = h := by
  obtain ⟨m, hrun, hfinite⟩ := Option.bind_eq_some_iff.mp hsolve
  have hcolumns := (clearColumnsOrNull_eq _ _).symm.trans hrun
  cases hcols : (List.finRange n).foldlM clearColumn fun r => Fin.snoc (a r) (b r) with
  | error _ =>
      rw [hcols] at hcolumns
      cases hcolumns
  | ok m' =>
      rw [hcols] at hcolumns
      cases hcolumns
      rw [(clearColumns_spec hcols).2 x]
      split at hfinite
      · rw [Option.some_inj.mp hfinite]
      · cases hfinite

end

/-! ### The normal equations -/

section
variable {s : Normal K} {x : Fin 8 → K} {H : Mat3 K}

def Normal.Solves (s : Normal K) (x : Fin 8 → K) : Prop :=
  ∀ r, s.ata r ⬝ᵥ x = s.atb r

/-- The entries that the fit looks for. -/
def entries (H : Mat3 K) : Fin 8 → K :=
  ![H 0 0, H 0 1, H 0 2, H 1 0, H 1 1, H 1 2, H 2 0, H 2 1]

omit [LinearOrder K] [IsStrictOrderedRing K] in
theorem empty_solves : Normal.empty.Solves x := by
  intro r
  exact zero_dotProduct x

omit [LinearOrder K] [IsStrictOrderedRing K] in
theorem Normal.Solves.addRow {row : Fin 8 → K} {rhs : K} (hs : s.Solves x)
    (hrow : row ⬝ᵥ x = rhs) : (s.addRow row rhs).Solves x := by
  intro r
  have hadd : (s.addRow row rhs).ata r = s.ata r + row r • row := rfl
  rw [hadd, add_dotProduct, smul_dotProduct, hs r, hrow]
  rfl

omit [LinearOrder K] [IsStrictOrderedRing K] in
theorem Normal.Solves.addPoint {p q : Point K} {w : K} (hs : s.Solves (entries H))
    (hone : H 2 2 = 1) (h : Takes H w p q) : (s.addPoint p q).Solves (entries H) := by
  obtain ⟨-, hx, hy, hw⟩ := takes_iff.mp h
  rw [← hw, denominator, hone] at hx hy
  refine (hs.addRow ?_).addRow ?_
  · simp [dotProduct, Fin.sum_univ_eight, entries]
    linear_combination hx
  · simp [dotProduct, Fin.sum_univ_eight, entries]
    linear_combination hy

omit [LinearOrder K] [IsStrictOrderedRing K] in
theorem Normal.Solves.addPoints {pairs : List (Point K × Point K)} (hs : s.Solves (entries H))
    (hone : H 2 2 = 1) (hpairs : ∀ pair ∈ pairs, ∃ w, Takes H w pair.1 pair.2) :
    (pairs.foldl (fun s (p, q) => s.addPoint p q) s).Solves (entries H) := by
  induction pairs generalizing s with
  | nil => exact hs
  | cons pair rest ih =>
      obtain ⟨w, hw⟩ := hpairs pair List.mem_cons_self
      exact ih (hs.addPoint hone hw) fun other hother =>
        hpairs other (List.mem_cons_of_mem _ hother)

omit [LinearOrder K] [IsStrictOrderedRing K] in
theorem matrix_entries (hone : H 2 2 = 1) :
    !![entries H 0, entries H 1, entries H 2; entries H 3, entries H 4, entries H 5;
      entries H 6, entries H 7, 1] = H := by
  ext i j
  fin_cases i <;> fin_cases j <;> simp [entries, hone]

theorem homographyFromPoints_exact {src dst : List (Point K)} (hone : H 2 2 = 1)
    (hpairs : ∀ pair ∈ src.zip dst, ∃ w, Takes H w pair.1 pair.2) :
    homographyFromPoints src dst = none ∨ homographyFromPoints src dst = some H := by
  unfold homographyFromPoints
  extract_lets n s
  split
  · exact .inl rfl
  · cases hsolve : solveLinearOrNull s.ata s.atb with
    | none => exact .inl rfl
    | some h =>
        have htrue : s.Solves (entries H) := empty_solves.addPoints hone hpairs
        have hsame : entries H = h := (solveLinearOrNull_spec hsolve _).mp htrue
        right
        rw [← hsame]
        exact congrArg some (matrix_entries hone)

end

/-! ### The consensus -/

namespace Matched

variable {m : Matched K} {H : Mat3 K}

omit [Field K] [LinearOrder K] [IsStrictOrderedRing K] in
theorem mem_zip (m : Matched K) (i : Fin m.n) : (m.srcAt i, m.dstAt i) ∈ m.src.zip m.dst := by
  have hi : i.val < (m.src.zip m.dst).length := List.length_zip ▸ i.isLt
  have hat : (m.src.zip m.dst)[i.val] = (m.srcAt i, m.dstAt i) := List.getElem_zip
  rw [← hat]
  exact List.getElem_mem hi

theorem fit_exact (hone : H 2 2 = 1)
    (hpairs : ∀ pair ∈ m.src.zip m.dst, ∃ w, Takes H w pair.1 pair.2) (idx : List (Fin m.n)) :
    m.fit idx = none ∨ m.fit idx = some H := by
  apply homographyFromPoints_exact hone
  intro pair hpair
  rw [List.zip_map'] at hpair
  obtain ⟨i, -, rfl⟩ := List.mem_map.mp hpair
  exact hpairs _ (m.mem_zip i)

end Matched

/-- The points of `dst` are the images of those of `src`. -/
def Moved (H : Mat3 K) (src dst : List (Point K)) : Prop :=
  ∀ pair ∈ src.zip dst, denominator H pair.1 ≠ 0 ∧ pair.2 = image H pair.1

omit [LinearOrder K] [IsStrictOrderedRing K] in
theorem Moved.takes {H : Mat3 K} {src dst : List (Point K)} (hmoved : Moved H src dst) {c : K}
    (hc : c ≠ 0) : ∀ pair ∈ src.zip dst, ∃ w, Takes (c • H) w pair.1 pair.2 := by
  intro pair hpair
  obtain ⟨hdenominator, himage⟩ := hmoved pair hpair
  rw [himage]
  exact ⟨_, (takes_image hdenominator).smul hc⟩

theorem findHomographyRansac_moved [FloorRing K] {H : Mat3 K} {src dst : List (Point K)}
    (hentry : H 2 2 ≠ 0) (hmoved : Moved H src dst) (options : RansacOptions K) :
    findHomographyRansac src dst options = none ∨
      findHomographyRansac src dst options = some ((H 2 2)⁻¹ • H) := by
  have hone : ((H 2 2)⁻¹ • H) 2 2 = 1 := inv_mul_cancel₀ hentry
  unfold findHomographyRansac
  extract_lets threshold iterations m
  split
  · exact .inl rfl
  · extract_lets s
    split
    · exact .inl rfl
    · exact m.fit_exact hone (hmoved.takes (inv_ne_zero hentry)) _

theorem exact_motion :
    (∀ [FloorRing K] (H : Mat3 K) (src dst : List (Point K)) (options : RansacOptions K),
      H 2 2 ≠ 0 → Moved H src dst →
        findHomographyRansac src dst options = none ∨
          findHomographyRansac src dst options = some ((H 2 2)⁻¹ • H)) ∧
    ∀ (n : Nat) (a : Matrix (Fin n) (Fin n) K) (b h : Fin n → K),
      solveLinearOrNull a b = some h → ∀ x, (∀ r, a r ⬝ᵥ x = b r) ↔ x = h :=
  ⟨fun _ _ _ options hentry hmoved => findHomographyRansac_moved hentry hmoved options,
    fun _ _ _ _ hsolve => solveLinearOrNull_spec hsolve⟩

/-! Four points that move by `(3, 4)`, by a matrix with `2` in its corner. -/

def square : List (Point ℚ) :=
  [⟨0, 0⟩, ⟨2, 0⟩, ⟨2, 2⟩, ⟨0, 2⟩]

def panned : List (Point ℚ) :=
  [⟨3, 4⟩, ⟨5, 4⟩, ⟨5, 6⟩, ⟨3, 6⟩]

def pan : Mat3 ℚ :=
  !![2, 0, 6; 0, 2, 8; 0, 0, 2]

theorem exact_motion_panned :
    (findHomographyRansac square panned {} = none ∨
      findHomographyRansac square panned {} = some ((pan 2 2)⁻¹ • pan)) ∧
    ∀ x : Fin 2 → ℚ, (∀ r, (!![0, 2; 3, 1] : Matrix (Fin 2) (Fin 2) ℚ) r ⬝ᵥ x = ![4, 5] r) ↔ x = ![1, 2] :=
  ⟨exact_motion.1 pan square panned {} (by decide +kernel) (by unfold Moved; decide +kernel),
    exact_motion.2 2 !![0, 2; 3, 1] ![4, 5] ![1, 2] (by decide +kernel)⟩

end Frcmob.OnDevice
