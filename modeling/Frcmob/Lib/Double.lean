import Frcmob.Lib.Rounding
import Mathlib.Data.Int.Log
import Mathlib.Data.Rat.Floor
import Mathlib.Tactic.FieldSimp

/-!
Rounding of rationals to floating-point numbers of 53 bits, to the nearest one and to the even
one of two. Exponents have no bounds here, so nothing overflows or underflows.
-/

open Rounding

namespace Double

/-- The distance of neighbouring numbers at `x`. -/
def ulp (x : ℚ) : ℚ :=
  2 ^ (Int.log 2 |x| - 52)

def round (x : ℚ) : ℚ :=
  roundHalfEven (x / ulp x) * ulp x

@[simp] theorem round_one : round 1 = 1 := by
  decide +kernel

theorem ulp_pos (x : ℚ) : 0 < ulp x :=
  zpow_pos (by norm_num) _

@[simp] theorem round_zero : round 0 = 0 := by
  decide +kernel

theorem ulp_le (x : ℚ) (h : x ≠ 0) : ulp x ≤ |x| / 2 ^ 52 := by
  have hlog : (2 : ℚ) ^ Int.log 2 |x| ≤ |x| := by
    exact_mod_cast Int.zpow_log_le_self (b := 2) (by norm_num) (abs_pos.mpr h)
  rw [ulp, zpow_sub₀ (by norm_num)]
  exact div_le_div_of_nonneg_right hlog (by positivity)

/-- Rounding moves a number by at most one part in `2 ^ 53`. -/
theorem abs_round_sub_le (x : ℚ) : |round x - x| ≤ |x| / 2 ^ 53 := by
  rcases eq_or_ne x 0 with rfl | h
  · simp
  have hpos := ulp_pos x
  calc |round x - x| = |((roundHalfEven (x / ulp x) : ℚ) - x / ulp x) * ulp x| := by
        rw [sub_mul, div_mul_cancel₀ _ hpos.ne', round]
    _ = |(roundHalfEven (x / ulp x) : ℚ) - x / ulp x| * ulp x := by rw [abs_mul, abs_of_pos hpos]
    _ ≤ 1 / 2 * (|x| / 2 ^ 52) :=
        mul_le_mul (abs_roundHalfEven_sub_le _) (ulp_le x h) hpos.le (by norm_num)
    _ = |x| / 2 ^ 53 := by ring

theorem round_le {x : ℚ} (h : 0 ≤ x) : round x ≤ x * (1 + 1 / 2 ^ 53) := by
  have herror := (abs_le.mp (abs_round_sub_le x)).2
  rw [abs_of_nonneg h] at herror
  linarith

theorem round_nonneg {x : ℚ} (h : 0 ≤ x) : 0 ≤ round x := by
  have herror := (abs_le.mp (abs_round_sub_le x)).1
  rw [abs_of_nonneg h] at herror
  linarith

/-- A number below `1` by at least the distance of its neighbours stays below `1`. -/
theorem round_lt_one {x : ℚ} (h : 0 ≤ x) (hx : x ≤ 1 - 1 / 2 ^ 53) : round x < 1 := by
  have hgrow := round_le h
  have hbound := mul_le_mul_of_nonneg_right hx (show (0 : ℚ) ≤ 1 + 1 / 2 ^ 53 by norm_num)
  have hone : (1 - 1 / 2 ^ 53 : ℚ) * (1 + 1 / 2 ^ 53) < 1 := by norm_num
  exact (hgrow.trans hbound).trans_lt hone

end Double
