import Frcmob.Lib.Numerals
import Mathlib.Algebra.Order.Floor.Ring
import Mathlib.Tactic.Linarith
import Mathlib.Tactic.Positivity

/-!
Python's `round`: to the nearest integer, or to a number of digits, and to the even one of two.
-/

namespace Rounding

universe u
variable {K : Type u} [Field K] [LinearOrder K] [FloorRing K]

/-- The nearest integer, the even one of two. -/
def roundHalfEven (x : K) : Int :=
  if x - ⌊x⌋ < 1 / 2 then ⌊x⌋
  else if 1 / 2 < x - ⌊x⌋ then ⌊x⌋ + 1
  else if ⌊x⌋ % 2 = 0 then ⌊x⌋ else ⌊x⌋ + 1

/-- `round(x, digits)` -/
def roundTo (digits : Nat) (x : K) : K :=
  roundHalfEven (x * 10 ^ digits) / 10 ^ digits

theorem floor_le_roundHalfEven (x : K) : ⌊x⌋ ≤ roundHalfEven x ∧ roundHalfEven x ≤ ⌊x⌋ + 1 := by
  unfold roundHalfEven
  split_ifs <;> omega

variable [IsStrictOrderedRing K]

theorem abs_roundHalfEven_sub_le (x : K) : |(roundHalfEven x : K) - x| ≤ 1 / 2 := by
  have hle := Int.floor_le x
  have hlt := Int.lt_floor_add_one x
  rw [abs_le]
  unfold roundHalfEven
  split_ifs <;> push_cast <;> constructor <;> linarith

theorem roundHalfEven_mono {x y : K} (h : x ≤ y) : roundHalfEven x ≤ roundHalfEven y := by
  rcases (Int.floor_mono h).lt_or_eq with hlt | heq
  · have hx := (floor_le_roundHalfEven x).2
    have hy := (floor_le_roundHalfEven y).1
    omega
  · unfold roundHalfEven
    rw [← heq]
    split_ifs <;> first | omega | exact absurd h (by linarith)

theorem roundTo_mono (digits : Nat) {x y : K} (h : x ≤ y) : roundTo digits x ≤ roundTo digits y := by
  have hpos : (0 : K) < 10 ^ digits := by positivity
  exact div_le_div_of_nonneg_right (Int.cast_le.mpr (roundHalfEven_mono
    (mul_le_mul_of_nonneg_right h hpos.le))) hpos.le

theorem roundHalfEven_intCast (n : Int) : roundHalfEven (n : K) = n := by
  rw [roundHalfEven, Int.floor_intCast, sub_self, if_pos (by norm_num)]

theorem roundTo_intCast (digits : Nat) (n : Int) : roundTo digits (n : K) = n := by
  have hpos : (0 : K) < 10 ^ digits := by positivity
  have hscaled : (n : K) * 10 ^ digits = ((n * 10 ^ digits : Int) : K) := by
    push_cast
    rfl
  rw [roundTo, hscaled, roundHalfEven_intCast]
  push_cast
  exact mul_div_cancel_right₀ _ hpos.ne'

end Rounding
