import Mathlib

set_option autoImplicit false

/-! # Saturating arithmetic

Signed 64-bit times are integers and unsigned 64-bit lengths natural numbers. Sums and products that
do not fit are cut off at the largest value. -/

namespace Emane.Lib

namespace U64

/-- The largest value. -/
def max : ℕ := 2 ^ 64 - 1

def saturatingAdd (x y : ℕ) : ℕ := min (x + y) max

def saturatingMul (x y : ℕ) : ℕ := min (x * y) max

theorem saturatingAdd_le (x y : ℕ) : saturatingAdd x y ≤ x + y := min_le_left ..

theorem saturatingMul_le (x y : ℕ) : saturatingMul x y ≤ x * y := min_le_left ..

end U64

namespace I64

/-- The smallest value. -/
def min : ℤ := -2 ^ 63

/-- The largest value. -/
def max : ℤ := 2 ^ 63 - 1

def saturatingAdd (x y : ℤ) : ℤ := Max.max min (Min.min (x + y) max)

/-- An unsigned value as a signed one, cut off at the largest signed value. -/
def clamp (x : ℕ) : ℤ := Min.min (x : ℤ) max

/-- An unsigned value as a signed one with the same bits. -/
def cast (x : ℕ) : ℤ := (x : ℤ).bmod (2 ^ 64)

theorem clamp_nonneg (x : ℕ) : 0 ≤ clamp x := le_min (Int.natCast_nonneg x) (by decide)

/-- The bits of a value below `2 ^ 63` have no sign. -/
theorem cast_eq {x : ℕ} (h : x < 2 ^ 63) : cast x = x := by
  unfold cast
  rw [Int.bmod_eq_of_le (by omega) (by omega)]

section

variable {x y z : ℤ}

theorem saturatingAdd_le_max (x y : ℤ) : saturatingAdd x y ≤ max :=
  max_le (by decide) (min_le_right ..)

/-- A sum of a time and a length is not before the time. -/
theorem le_saturatingAdd (hx : x ≤ max) (hy : 0 ≤ y) : x ≤ saturatingAdd x y :=
  le_max_of_le_right (le_min (by omega) hx)

/-- It is after it unless the time is the last one. -/
theorem lt_saturatingAdd (hx : x < max) (hy : 0 < y) : x < saturatingAdd x y :=
  lt_max_of_lt_right (lt_min (by omega) hx)

/-- A positive length after a time from zero on gives a positive sum. -/
theorem saturatingAdd_pos (hnonneg : 0 ≤ x) (hx : x ≤ max) (hy : 0 < y) : 0 < saturatingAdd x y := by
  rcases hnonneg.lt_or_eq with hlt | rfl
  · exact hlt.trans_le (le_saturatingAdd hx hy.le)
  · exact lt_saturatingAdd (by decide) hy

/-- What begins at `x` and takes the time `y` is over at `z`, also by the arithmetic of the clock. Only a
clock that stands at its largest value can hide that it takes longer. -/
def Over (x y z : ℤ) : Prop := saturatingAdd x y ≤ z ∧ (x + y ≤ z ∨ z = max)

theorem over_of_le (h : saturatingAdd x y ≤ z) (hz : z ≤ max) : Over x y z := by
  refine ⟨h, ?_⟩
  unfold saturatingAdd at h
  omega

end

end I64

end Emane.Lib
