import Mathlib

set_option autoImplicit false

/-! # Numbers with given remainders

The integers whose remainder by `m` is one of a list, and the least of them from a bound on. When the
bound stands in a period, this is the first one of that period that is not below the bound
(`isLeast_same_period`), and else the first one of the next period (`isLeast_next_period`). Multiples
of a size are found by their quotients (`isLeast_multiple`).

`find?_le` is about a search through an increasing list: the first hit is the least one.
-/

namespace Emane.Lib

/-- A search through an increasing list finds the least hit. -/
theorem find?_le {α : Type*} [LinearOrder α] {p : α → Bool} {l : List α} {a b : α}
    (h : l.find? p = some a) (hl : l.Pairwise (· < ·)) (hb : b ∈ l) (hp : p b = true) : a ≤ b := by
  obtain ⟨-, before, rest, rfl, hbefore⟩ := List.find?_eq_some_iff_append.mp h
  rw [List.pairwise_append, List.pairwise_cons] at hl
  rcases List.mem_append.mp hb with hb | hb
  · have hnot := hbefore b hb
    rw [hp] at hnot
    cases hnot
  · rcases List.mem_cons.mp hb with rfl | hb
    · exact le_rfl
    · exact (hl.2.1.1 b hb).le

/-- The integers whose remainder by `m` is in `slots`. -/
def onResidues (m : ℕ) (slots : List ℕ) : Set ℤ := {k | ∃ slot ∈ slots, k % (m : ℤ) = slot}

section

variable {m : ℕ} {slots : List ℕ} {begin bound : ℤ} {slot : ℕ}

/-- A number in a period is its remainder away from the begin of the period. -/
theorem eq_add_emod {k : ℤ} (hperiod : (m : ℤ) ∣ begin) (hle : begin ≤ k) (hlt : k < begin + m) :
    k = begin + k % (m : ℤ) := by
  obtain ⟨q, rfl⟩ := hperiod
  have hrest : k % (m : ℤ) = k - m * q := by
    calc k % (m : ℤ) = (k - m * q) % (m : ℤ) := (Int.sub_mul_emod_self_left k m q).symm
      _ = k - m * q := Int.emod_eq_of_lt (by omega) (by omega)
  omega

theorem add_mem_onResidues (hperiod : (m : ℤ) ∣ begin) (hslot : slot ∈ slots) (hlt : slot < m) :
    begin + slot ∈ onResidues m slots := by
  obtain ⟨q, rfl⟩ := hperiod
  refine ⟨slot, hslot, ?_⟩
  rw [Int.mul_add_emod_self_left]
  exact Int.emod_eq_of_lt (by omega) (by omega)

/-- The first number of the bound's own period. -/
theorem isLeast_same_period (hperiod : (m : ℤ) ∣ begin) (hbegin : begin ≤ bound)
    (hslot : slot ∈ slots) (hlt : slot < m) (hbound : bound ≤ begin + slot)
    (hfirst : ∀ s ∈ slots, bound ≤ begin + s → slot ≤ s) :
    IsLeast {k | bound ≤ k ∧ k ∈ onResidues m slots} (begin + slot) := by
  refine ⟨⟨hbound, add_mem_onResidues hperiod hslot hlt⟩, ?_⟩
  rintro k ⟨hk, s, hs, hrest⟩
  by_contra hbefore
  have heq : k = begin + k % (m : ℤ) := eq_add_emod hperiod (by omega) (by omega)
  have := hfirst s hs (by omega)
  omega

/-- The first number of the next period, when the bound's own period has none left. -/
theorem isLeast_next_period (hperiod : (m : ℤ) ∣ begin) (hbegin : begin ≤ bound)
    (hend : bound ≤ begin + m) (hslot : slot ∈ slots) (hlt : slot < m)
    (hfirst : ∀ s ∈ slots, slot ≤ s) (hover : ∀ s ∈ slots, begin + s < bound) :
    IsLeast {k | bound ≤ k ∧ k ∈ onResidues m slots} (begin + m + slot) := by
  have hnext : (m : ℤ) ∣ begin + m := Int.dvd_add hperiod (Int.dvd_refl _)
  refine ⟨⟨by omega, add_mem_onResidues hnext hslot hlt⟩, ?_⟩
  rintro k ⟨hk, s, hs, hrest⟩
  have hs' := hfirst s hs
  by_contra hbefore
  rcases lt_or_ge k (begin + m) with hsame | hlater
  · -- in the bound's own period the number would be below the bound
    have heq : k = begin + k % (m : ℤ) := eq_add_emod hperiod (by omega) hsame
    have := hover s hs
    omega
  · have heq : k = begin + m + k % (m : ℤ) := eq_add_emod hnext hlater (by omega)
    omega

/-- The least multiple of `size` has the least quotient. -/
theorem isLeast_multiple {size now k : ℤ} {S : Set ℤ} (hsize : 0 < size)
    (hbound : ∀ k, bound ≤ k ↔ now ≤ k * size) (h : IsLeast {k | bound ≤ k ∧ k ∈ S} k) :
    IsLeast {time | now ≤ time ∧ size ∣ time ∧ time / size ∈ S} (k * size) := by
  obtain ⟨⟨hle, hmem⟩, hleast⟩ := h
  refine ⟨⟨(hbound k).mp hle, Int.dvd_mul_left .., ?_⟩, ?_⟩
  · rwa [Int.mul_ediv_cancel _ hsize.ne']
  · rintro time ⟨hnow, ⟨q, rfl⟩, hq⟩
    rw [Int.mul_ediv_cancel_left _ hsize.ne'] at hq
    rw [mul_comm size q] at hnow ⊢
    exact mul_le_mul_of_nonneg_right (hleast ⟨(hbound q).mpr hnow, hq⟩) hsize.le

end

end Emane.Lib
