import Mathlib

set_option autoImplicit false

/-! # Intervals on a ring of slots

A ring of `W` slots stores one value per absolute position `k : ℤ`, in slot `k % W`. Only
positions of one window of length `W` can be live at the same time, and inside such a window the
slot determines the position. `OnRing W k₀ n k` says that slot `k % W` is one of the `n` slots
written by a run of consecutive positions starting at `k₀`; inside a window that covers the run it
is ordinary interval membership (`onRing_iff_of_window`).
-/

namespace Emane.Lib

/-- Slot `k % W` is among the `n` consecutive slots that start with the slot of `k₀`. -/
def OnRing (W : ℕ) (k₀ : ℤ) (n : ℕ) (k : ℤ) : Prop :=
  ∃ t : ℕ, t < n ∧ k % (W : ℤ) = (k₀ + t) % (W : ℤ)

/-- Two positions of one window that share a slot are equal. -/
theorem eq_of_emod_eq {W : ℕ} {lo k k' : ℤ} (hk : lo ≤ k) (hkW : k < lo + W) (hk' : lo ≤ k')
    (hkW' : k' < lo + W) (h : k % (W : ℤ) = k' % (W : ℤ)) : k = k' := by
  have hdvd : (W : ℤ) ∣ k - k' := Int.ModEq.dvd h.symm
  have habs : |k - k'| < W := abs_lt.mpr ⟨by omega, by omega⟩
  have := Int.eq_zero_of_abs_lt_dvd hdvd habs
  omega

/-- **Inside a window that covers the run, being on the ring is being in the interval.** -/
theorem onRing_iff_of_window {W n : ℕ} {lo k₀ k : ℤ} (h₀ : lo ≤ k₀) (hn : k₀ + n ≤ lo + W)
    (hk : lo ≤ k) (hkW : k < lo + W) :
    OnRing W k₀ n k ↔ k₀ ≤ k ∧ k < k₀ + n := by
  constructor
  · rintro ⟨t, ht, h⟩
    have := eq_of_emod_eq hk hkW (by omega) (by omega) h
    omega
  · rintro ⟨hle, hlt⟩
    refine ⟨(k - k₀).toNat, by omega, ?_⟩
    congr 1
    omega

theorem not_onRing_zero (W : ℕ) (k₀ k : ℤ) : ¬ OnRing W k₀ 0 k := by
  rintro ⟨t, ht, -⟩
  exact absurd ht (Nat.not_lt_zero t)

instance decidableOnRing (W : ℕ) (k₀ : ℤ) (n : ℕ) (k : ℤ) : Decidable (OnRing W k₀ n k) :=
  decidable_of_iff (∃ t ∈ List.range n, k % (W : ℤ) = (k₀ + (t : ℕ)) % (W : ℤ)) (by
    simp only [List.mem_range, OnRing])

end Emane.Lib
