import Mathlib

set_option autoImplicit false

/-! # Rounding toward zero

The conversion of a number to an integer drops its fraction. That is the floor from zero on and the
ceiling below, so it is monotone, but below zero it can reach a bound that the number has not reached.
-/

namespace Emane.Lib

section

variable {K : Type*} [CommRing K] [LinearOrder K] [FloorRing K] {x y : K} {k : ℤ}

/-- The integer part of a number. -/
def truncate (x : K) : ℤ := if 0 ≤ x then ⌊x⌋ else ⌈x⌉

theorem truncate_of_nonneg (h : 0 ≤ x) : truncate x = ⌊x⌋ := if_pos h

theorem truncate_of_neg (h : x < 0) : truncate x = ⌈x⌉ := if_neg (not_le.mpr h)

theorem truncate_mono (h : x ≤ y) : truncate x ≤ truncate y := by
  rcases le_or_gt 0 x with hx | hx
  · rw [truncate_of_nonneg hx, truncate_of_nonneg (hx.trans h)]
    exact Int.floor_mono h
  · rw [truncate_of_neg hx]
    rcases le_or_gt 0 y with hy | hy
    · rw [truncate_of_nonneg hy]
      calc ⌈x⌉ ≤ 0 := Int.ceil_le.mpr (by exact_mod_cast hx.le)
        _ ≤ ⌊y⌋ := Int.floor_nonneg.mpr hy
    · rw [truncate_of_neg hy]
      exact Int.ceil_mono h

variable [IsStrictOrderedRing K]

theorem truncate_neg (x : K) : truncate (-x) = -truncate x := by
  rcases lt_trichotomy x 0 with hx | rfl | hx
  · rw [truncate_of_nonneg (by linarith), truncate_of_neg hx, Int.floor_neg]
  · simp [truncate]
  · rw [truncate_of_neg (by linarith), truncate_of_nonneg hx.le, Int.ceil_neg]

/-- A positive bound is reached by the integer part only with the number itself. -/
theorem truncate_lt_iff_of_pos (hk : 0 < k) : truncate x < k ↔ x < k := by
  rcases le_or_gt 0 x with hx | hx
  · rw [truncate_of_nonneg hx, Int.floor_lt]
  · rw [truncate_of_neg hx]
    have hpos : (0 : K) < k := by exact_mod_cast hk
    have hceil : ⌈x⌉ ≤ 0 := Int.ceil_le.mpr (by exact_mod_cast hx.le)
    exact ⟨fun _ => hx.trans hpos, fun _ => by omega⟩

/-- A bound that is not positive is reached as soon as the number is less than one below it. -/
theorem truncate_lt_iff_of_nonpos (hk : k ≤ 0) : truncate x < k ↔ x ≤ k - 1 := by
  rcases le_or_gt 0 x with hx | hx
  · rw [truncate_of_nonneg hx]
    have hfloor : 0 ≤ ⌊x⌋ := Int.floor_nonneg.mpr hx
    have hbound : (k : K) ≤ 0 := by exact_mod_cast hk
    constructor
    · intro h
      omega
    · intro h
      linarith
  · rw [truncate_of_neg hx, ← Int.le_sub_one_iff, Int.ceil_le]
    push_cast
    rfl

/-- The integer part of a fraction. -/
theorem truncate_natCast_div (m d : ℕ) : truncate ((m : ℚ) / d) = (m / d : ℕ) := by
  rw [truncate_of_nonneg (by positivity), ← Int.natCast_floor_eq_floor (by positivity),
    Nat.floor_div_eq_div]

end

end Emane.Lib
