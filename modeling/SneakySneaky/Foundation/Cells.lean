import Mathlib.Algebra.Order.Floor.Ring
import Mathlib.Algebra.Order.Field.Basic
import Mathlib.Data.Rat.Floor
import Mathlib.Tactic.Linarith
import Mathlib.Tactic.FieldSimp
import Mathlib.Tactic.Ring

/-! # Rounding a coordinate to the cell that contains it

The line is cut into cells of one width, cell `n` centred on `width * n`.  Rounding
`position / width` to the nearest integer finds the cell of every position that is
strictly inside one, whichever way ties are broken; `roundAway` breaks them as C
does. -/

namespace SneakySneaky.Foundation

section Rounding

variable {K : Type*} [Field K] [LinearOrder K] [IsStrictOrderedRing K] [FloorRing K]

/-- C `round`: the nearest integer, halves away from zero. -/
def roundAway (value : K) : ℤ :=
  if 0 ≤ value then ⌊value + 1 / 2⌋ else ⌈value - 1 / 2⌉

theorem roundAway_eq_of_near {value : K} {n : ℤ} (near : |value - n| < 1 / 2) :
    roundAway value = n := by
  obtain ⟨below, above⟩ := abs_lt.mp near
  simp only [roundAway]
  split
  · rw [Int.floor_eq_iff]
    constructor <;> linarith
  · rw [Int.ceil_eq_iff]
    constructor <;> linarith

/-- The cell whose centre is nearest to `position`. -/
def cellOf (width position : K) : ℤ := roundAway (position / width)

/-- A position is strictly inside cell `n`. -/
def InsideCell (width : K) (n : ℤ) (position : K) : Prop := |position - width * n| < width / 2

theorem cellOf_eq_of_inside {width position : K} {n : ℤ} (positive : 0 < width)
    (inside : InsideCell width n position) : cellOf width position = n := by
  apply roundAway_eq_of_near
  -- Dividing by the width maps the cell to the interval of radius 1/2 around `n`.
  have scaled : position / width - n = (position - width * n) / width := by
    field_simp
  rw [scaled, abs_div, abs_of_pos positive, div_lt_iff₀ positive]
  calc |position - width * n| < width / 2 := inside
    _ = 1 / 2 * width := by ring

end Rounding

end SneakySneaky.Foundation
