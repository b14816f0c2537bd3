import Mathlib.Data.Rat.Floor
import Mathlib.Tactic.Linarith
import Mathlib.Tactic.Positivity

/-!
A number cut to a number of decimals as JavaScript does, `Number(x.toFixed(digits))`, over the
rationals. A number that is not smaller than `10 ^ 21` is written out in full.
-/

namespace Js

/-- Of the two nearest ones the larger. -/
def nearest (digits : ℕ) (x : ℚ) : ℚ :=
  ⌊x * 10 ^ digits + 1 / 2⌋ / 10 ^ digits

def toFixed (digits : ℕ) (x : ℚ) : ℚ :=
  if 10 ^ 21 ≤ |x| then x else if x < 0 then -nearest digits (-x) else nearest digits x

theorem nearest_decimal (digits : ℕ) (n : ℤ) :
    nearest digits (n / 10 ^ digits) = n / 10 ^ digits := by
  have hscaled : (n / 10 ^ digits : ℚ) * 10 ^ digits = n := div_mul_cancel₀ _ (by positivity)
  have hhalf : ⌊(1 / 2 : ℚ)⌋ = 0 := by norm_num
  rw [nearest, hscaled, Int.floor_intCast_add, hhalf, add_zero]

/-- A number of that many decimals is left as it is. -/
theorem toFixed_decimal (digits : ℕ) (n : ℤ) :
    toFixed digits (n / 10 ^ digits) = n / 10 ^ digits := by
  rw [toFixed]
  split
  · rfl
  · split
    · have hneg : -(n / 10 ^ digits : ℚ) = (-n : ℤ) / 10 ^ digits := by
        push_cast
        ring
      rw [hneg, nearest_decimal, ← hneg, neg_neg]
    · exact nearest_decimal digits n

theorem toFixed_toFixed (digits : ℕ) (x : ℚ) :
    toFixed digits (toFixed digits x) = toFixed digits x := by
  by_cases hlarge : 10 ^ 21 ≤ |x|
  · have hself : toFixed digits x = x := if_pos hlarge
    rw [hself, hself]
  · have hdecimal : ∃ n : ℤ, toFixed digits x = n / 10 ^ digits := by
      rw [toFixed, if_neg hlarge]
      split
      · refine ⟨-⌊-x * 10 ^ digits + 1 / 2⌋, ?_⟩
        rw [nearest]
        push_cast
        ring
      · exact ⟨_, rfl⟩
    obtain ⟨n, hn⟩ := hdecimal
    rw [hn, toFixed_decimal]

@[simp] theorem toFixed_natCast (digits n : ℕ) : toFixed digits (n : ℚ) = n := by
  have hscaled : (n : ℚ) = (n * 10 ^ digits : ℤ) / 10 ^ digits := by
    push_cast
    rw [mul_div_cancel_right₀ _ (by positivity)]
  rw [hscaled, toFixed_decimal]

/-- A number between `0` and a whole number stays there. -/
theorem toFixed_mem (digits : ℕ) {x : ℚ} {top : ℕ} (h : x ∈ Set.Icc 0 (top : ℚ)) :
    toFixed digits x ∈ Set.Icc 0 (top : ℚ) := by
  obtain ⟨hlow, hhigh⟩ := h
  rw [toFixed]
  split
  · exact ⟨hlow, hhigh⟩
  · rw [if_neg hlow.not_gt, nearest]
    have hpos : (0 : ℚ) < 10 ^ digits := by positivity
    constructor
    · refine div_nonneg (Int.cast_nonneg (Int.floor_nonneg.mpr ?_)) hpos.le
      positivity
    · rw [div_le_iff₀ hpos]
      have hfloor : ⌊x * 10 ^ digits + 1 / 2⌋ ≤ (top * 10 ^ digits : ℤ) := by
        rw [← Int.lt_add_one_iff, Int.floor_lt]
        have hscaled := mul_le_mul_of_nonneg_right hhigh hpos.le
        push_cast
        linarith
      exact_mod_cast hfloor

end Js
