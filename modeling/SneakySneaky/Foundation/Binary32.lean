import Mathlib.Data.Int.Log
import Mathlib.Data.Rat.Floor
import Mathlib.Tactic.Linarith
import Mathlib.Tactic.NormNum
import Mathlib.Tactic.Positivity

/-! # Rounding to a binary32 float

`binary32` rounds a rational to the nearest number with a significand of 24 bits, a tie to
the even significand.  Exponents are unbounded: a sum or a difference of floats below the
normal range is exact, so for these operations only overflow is left out. -/

namespace SneakySneaky.Foundation

/-- The nearest integer, of two the even one. -/
def roundEven (x : ℚ) : ℤ :=
  if Int.fract x < 1 / 2 ∨ Int.fract x = 1 / 2 ∧ ⌊x⌋ % 2 = 0 then ⌊x⌋ else ⌊x⌋ + 1

/-- The distance of the floats around `x`: the unit in the last of 24 places. -/
def ulp (x : ℚ) : ℚ := 2 ^ (Int.log 2 |x| - 23)

def binary32 (x : ℚ) : ℚ := roundEven (x / ulp x) * ulp x

theorem ulp_pos (x : ℚ) : 0 < ulp x := zpow_pos two_pos _

theorem abs_roundEven_sub_le (x : ℚ) : |roundEven x - x| ≤ 1 / 2 := by
  have floor := Int.floor_add_fract x
  have nonneg := Int.fract_nonneg x
  have below := Int.fract_lt_one x
  unfold roundEven
  split
  next down =>
    have half : Int.fract x ≤ 1 / 2 := down.elim le_of_lt fun tie => tie.1.le
    rw [abs_le]
    constructor <;> linarith
  next up =>
    have half : 1 / 2 ≤ Int.fract x := not_lt.mp fun less => up (.inl less)
    push_cast
    rw [abs_le]
    constructor <;> linarith

/-- A unit in the last place is at most the 2²³rd part of the number. -/
theorem ulp_le {x : ℚ} (nonzero : x ≠ 0) : ulp x ≤ |x| / 2 ^ 23 := by
  have below := Int.zpow_log_le_self (b := 2) one_lt_two (abs_pos.mpr nonzero)
  rw [ulp, zpow_sub₀ two_ne_zero]
  exact div_le_div_of_nonneg_right (by exact_mod_cast below) (by positivity)

theorem abs_binary32_sub_le (x : ℚ) : |binary32 x - x| ≤ |x| / 2 ^ 24 := by
  rcases eq_or_ne x 0 with rfl | nonzero
  · simp [binary32, roundEven]
  · have unit := ulp_pos x
    calc |binary32 x - x|
      _ = |(roundEven (x / ulp x) - x / ulp x) * ulp x| := by
        rw [sub_mul, div_mul_cancel₀ x unit.ne', binary32]
      _ = |roundEven (x / ulp x) - x / ulp x| * ulp x := by rw [abs_mul, abs_of_pos unit]
      _ ≤ 1 / 2 * (|x| / 2 ^ 23) :=
        mul_le_mul (abs_roundEven_sub_le _) (ulp_le nonzero) unit.le (by norm_num)
      _ = |x| / 2 ^ 24 := by ring

/-- Rounding keeps all of a positive number but the 2²⁴th part. -/
theorem binary32_ge {x : ℚ} (positive : 0 < x) : (1 - 1 / 2 ^ 24) * x ≤ binary32 x := by
  have close := (abs_le.mp (abs_binary32_sub_le x)).1
  rw [abs_of_pos positive] at close
  linarith

end SneakySneaky.Foundation
