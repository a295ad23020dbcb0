import Mathlib
import Emane.PluginApi.Tables

set_option autoImplicit false

/-! # From single to double precision

`f64::from` of a single-precision number is exact: the exponent gets the bias of the double-precision
numbers, the fraction gets zeros, and a number that is not normalized is normalized.
-/

namespace Emane.PluginApi

/-- The exponent and the fraction of the double-precision number, as the number of their bits. A number
without an exponent is its fraction times the 149th power of one half. -/
def widenMagnitude (exponent fraction : ℕ) : ℕ :=
  if exponent = 255 then 2047 * 2 ^ 52 + fraction * 2 ^ 29
  else if exponent ≠ 0 then (exponent + 896) * 2 ^ 52 + fraction * 2 ^ 29
  else if fraction = 0 then 0
  else
    let top := Nat.log2 fraction
    (top + 874) * 2 ^ 52 + (fraction - 2 ^ top) * 2 ^ (52 - top)

/-- `f64::from` -/
def F32.toF64 (x : F32) : F64 :=
  let n := x.bits.toNat
  ⟨UInt64.ofNat (n / 2 ^ 31 * 2 ^ 63 + widenMagnitude (n / 2 ^ 23 % 2 ^ 8) (n % 2 ^ 23))⟩

example : F32.toF64 ⟨0x42c80000⟩ = ⟨0x4059000000000000⟩ := by decide
example : F32.toF64 ⟨1⟩ = ⟨0x36a0000000000000⟩ := by decide +kernel

/-- The bits under a mask of `w` ones are those of a field of the number. -/
theorem land_mask (n w k : ℕ) : n &&& ((2 ^ w - 1) * 2 ^ k) = n / 2 ^ k % 2 ^ w * 2 ^ k := by
  apply Nat.eq_of_testBit_eq
  intro i
  rw [Nat.testBit_and, Nat.testBit_mul_two_pow, Nat.testBit_mul_two_pow, Nat.testBit_two_pow_sub_one,
    Nat.testBit_mod_two_pow, Nat.testBit_div_two_pow]
  by_cases hk : k ≤ i
  · rw [Nat.sub_add_cancel hk]
    simp [hk, Bool.and_comm]
  · simp [hk]

/-- A number is finite if its exponent is not all ones. -/
theorem F32.isFinite_iff (x : F32) : x.isFinite = true ↔ x.bits.toNat / 2 ^ 23 % 2 ^ 8 ≠ 255 := by
  have hland := land_mask x.bits.toNat 8 23
  rw [F32.isFinite, bne_iff_ne, Ne, Ne, ← UInt32.toNat_inj, UInt32.toNat_and]
  change ¬ x.bits.toNat &&& (2 ^ 8 - 1) * 2 ^ 23 = 255 * 2 ^ 23 ↔ _
  rw [hland, Nat.mul_right_cancel_iff (by decide)]

theorem F64.isFinite_iff (x : F64) : x.isFinite = true ↔ x.bits.toNat / 2 ^ 52 % 2 ^ 11 ≠ 2047 := by
  have hland := land_mask x.bits.toNat 11 52
  rw [F64.isFinite, bne_iff_ne, Ne, Ne, ← UInt64.toNat_inj, UInt64.toNat_and]
  change ¬ x.bits.toNat &&& (2 ^ 11 - 1) * 2 ^ 52 = 2047 * 2 ^ 52 ↔ _
  rw [hland, Nat.mul_right_cancel_iff (by decide)]

/-- The magnitude of a number that is finite has an exponent that is not all ones. -/
theorem widenMagnitude_lt {exponent fraction : ℕ} (hexponent : exponent < 255) (hfraction : fraction < 2 ^ 23) :
    widenMagnitude exponent fraction < 2047 * 2 ^ 52 := by
  unfold widenMagnitude
  rw [if_neg (by omega)]
  split
  · omega
  split
  · omega
  · next hne =>
      have htop : Nat.log2 fraction < 23 := (Nat.log2_lt hne).mpr hfraction
      have hpow : 2 ^ Nat.log2 fraction ≤ fraction := Nat.log2_self_le hne
      have hlt : fraction < 2 ^ (Nat.log2 fraction + 1) := Nat.lt_log2_self
      have hpart : (fraction - 2 ^ Nat.log2 fraction) * 2 ^ (52 - Nat.log2 fraction) < 2 ^ 52 := by
        calc (fraction - 2 ^ Nat.log2 fraction) * 2 ^ (52 - Nat.log2 fraction)
            < 2 ^ Nat.log2 fraction * 2 ^ (52 - Nat.log2 fraction) := by
              refine Nat.mul_lt_mul_of_pos_right ?_ (by positivity)
              rw [Nat.pow_succ] at hlt
              omega
          _ = 2 ^ 52 := by rw [← Nat.pow_add, Nat.add_sub_cancel' (by omega)]
      dsimp only
      omega

/-- **What is finite stays finite.** -/
theorem F32.isFinite_toF64 {x : F32} (h : x.isFinite = true) : x.toF64.isFinite = true := by
  rw [F32.isFinite_iff] at h
  have hbits := x.bits.toNat_lt
  have hlt := @widenMagnitude_lt (x.bits.toNat / 2 ^ 23 % 2 ^ 8) (x.bits.toNat % 2 ^ 23) (by omega) (by omega)
  rw [F64.isFinite_iff, F32.toF64]
  dsimp only
  generalize widenMagnitude _ _ = m at hlt
  rw [UInt64.toNat_ofNat']
  omega

end Emane.PluginApi
