import Emane.Noise.Paint

set_option autoImplicit false

/-! # One reception merged into the wheel

`record` either starts a new recorded range (`recordFirst`) or merges the reception into the old
one (`recordMerge`). This file states what both do to the live bins. The merge is proved once from
what its three painting steps do (`Painter`); the single-band recorder and the recorder with
sub-bands are the two instances.
-/

namespace Emane.Noise

open Emane.Lib

theorem Wheel.Paints.zero (w : Wheel) (k₀ : ℤ) (g : ℕ → ℚ → ℚ) : w.Paints w k₀ 0 g :=
  ⟨rfl, rfl, fun _ _ _ hon => absurd hon (not_onRing_zero _ _ _), fun _ _ _ _ => rfl⟩

namespace NoiseRecorder

/-- The bins `s..=e` fit the wheel together with the recorded range: the reception is at most one
wheel long, starts no earlier than one wheel before the newest recorded bin, and does not start a
whole wheel after it. -/
structure Reachable (r : NoiseRecorder) (s e : ℤ) : Prop where
  min_pos : 0 < r.minStartOfReceptionBin
  min_le_max : r.minStartOfReceptionBin ≤ r.maxEndOfReceptionBin
  start_pos : 0 < s
  start_le_end : s ≤ e
  length_le : e - s + 1 ≤ r.wheel.slots
  late_lt : r.maxEndOfReceptionBin - r.wheel.slots < s
  not_stale : s < r.maxEndOfReceptionBin + r.wheel.slots

/-- What the three painting steps of the merge write: `gain j` in the new bins, `gain j` on top of
the old value in the bins already recorded. -/
structure Painter (r : NoiseRecorder) (p : Reception) (s e : ℤ) (gain : ℕ → ℚ) : Prop where
  before : ∀ w, r.Fits w → w.slots = r.wheel.slots → ∃ w', r.recordBefore p s e w = some w' ∧
    w.Paints w' s (r.beforeCount s e).toNat (fun j _ => gain j)
  after : ∀ w, r.Fits w → w.slots = r.wheel.slots → ∃ w', r.recordAfter p s e w = some w' ∧
    w.Paints w' (e + 1 - r.afterCount s e) (r.afterCount s e).toNat (fun j _ => gain j)
  within : ∀ w, r.Fits w → w.slots = r.wheel.slots → 0 < r.withinCount s e →
    ∃ w', r.recordWithin p s e w = some w' ∧
      w.Paints w' (s + r.beforeCount s e) (r.withinCount s e).toNat (fun j v => v + gain j)

/-- `r'` is `r` with the bins `s..=e` merged into its recorded range. -/
structure Merged (r r' : NoiseRecorder) (s e : ℤ) (gain : ℕ → ℚ) : Prop where
  frame : r' = { r with
    wheel := r'.wheel
    minStartOfReceptionBin := min r.minStartOfReceptionBin s
    maxEndOfReceptionBin := max r.maxEndOfReceptionBin e }
  slots_eq : r'.wheel.slots = r.wheel.slots
  bins_eq : r'.wheel.bins = r.wheel.bins
  cells : ∀ k j, j < r.wheel.bins → min r.minStartOfReceptionBin s ≤ k →
    k ≤ max r.maxEndOfReceptionBin e → max r.maxEndOfReceptionBin e - r.wheel.slots < k →
    r'.wheel.cellAt k j =
      (if r.minStartOfReceptionBin ≤ k ∧ k ≤ r.maxEndOfReceptionBin then r.wheel.cellAt k j else 0)
        + (if s ≤ k ∧ k ≤ e then gain j else 0)

/-! ## The counts -/

section

variable {r : NoiseRecorder} {s e : ℤ}

theorem beforeCount_nonneg (h : s ≤ e) : 0 ≤ r.beforeCount s e := by
  simp only [beforeCount]
  split_ifs <;> omega

theorem afterCount_nonneg (h : s ≤ e) : 0 ≤ r.afterCount s e := by
  simp only [afterCount]
  split_ifs <;> omega

theorem beforeCount_le (h : s ≤ e) : r.beforeCount s e ≤ e - s + 1 := by
  simp only [beforeCount]
  split_ifs <;> omega

theorem afterCount_le (h : s ≤ e) : r.afterCount s e ≤ e - s + 1 := by
  simp only [afterCount]
  split_ifs <;> omega

theorem beforeCount_pos_iff (h : s ≤ e) :
    0 < r.beforeCount s e ↔ s < r.minStartOfReceptionBin := by
  simp only [beforeCount]
  split_ifs <;> omega

theorem afterCount_pos_iff (h : s ≤ e) :
    0 < r.afterCount s e ↔ r.maxEndOfReceptionBin < e := by
  simp only [afterCount]
  split_ifs <;> omega

/-- Without bins inside the recorded range the reception lies before or after it. -/
theorem withinCount_nonpos (hs : s ≤ e) (hr : r.minStartOfReceptionBin ≤ r.maxEndOfReceptionBin)
    (h : ¬ 0 < r.withinCount s e) :
    (e < r.minStartOfReceptionBin ∧ r.beforeCount s e = e - s + 1 ∧ r.afterCount s e = 0) ∨
      (r.maxEndOfReceptionBin < s ∧ r.beforeCount s e = 0 ∧ r.afterCount s e = e - s + 1) := by
  simp only [withinCount, beforeCount, afterCount] at h ⊢
  split_ifs at h ⊢ <;> omega

end

/-! ## The gaps -/

/-- What clearing the gaps paints: the bins between the reception and the recorded range, if they are
at most one wheel. -/
theorem clearGaps_paints {r : NoiseRecorder} {s e : ℤ} (hs : 0 < s) (hse : s ≤ e)
    (hm : 0 < r.minStartOfReceptionBin) (hmM : r.minStartOfReceptionBin ≤ r.maxEndOfReceptionBin)
    (hwithin : ¬ 0 < r.withinCount s e) {w : Wheel} (hw : r.Fits w)
    (hbefore : r.minStartOfReceptionBin ≤ e + 1 + w.slots)
    (hafter : s ≤ r.maxEndOfReceptionBin + 1 + w.slots) :
    ∃ w', r.clearGaps s e w = some w' ∧
      ((e < r.minStartOfReceptionBin ∧
          w.Paints w' (e + 1) (r.minStartOfReceptionBin - (e + 1)).toNat (fun _ _ => 0)) ∨
        (r.maxEndOfReceptionBin < s ∧
          w.Paints w' (r.maxEndOfReceptionBin + 1) (s - r.maxEndOfReceptionBin - 1).toNat
            (fun _ _ => 0))) := by
  rcases withinCount_nonpos hse hmM hwithin with ⟨hem, hB, hA⟩ | ⟨hMs, hB, hA⟩
  · -- the reception lies before the range: clear `e + 1 .. min - 1`
    obtain ⟨w', hrun, hp⟩ := write_all_paints (fun _ => 0) hw (e + 1)
      (show (r.minStartOfReceptionBin - (e + 1)).toNat ≤ w.slots by omega)
    refine ⟨w', ?_, Or.inl ⟨hem, hp⟩⟩
    have hidx : (r.wheelIndex s + asUsize (r.beforeCount s e)) % asUsize r.totalWheelBins
        = ((e + 1) % (w.slots : ℤ)).toNat := by
      rw [wheelIndex_add hw (by omega), hB, asUsize_of_nonneg (by omega)]
      congr 2
      omega
    have hcnt : asUsize (r.minStartOfReceptionBin - (s + r.beforeCount s e))
        = (r.minStartOfReceptionBin - (e + 1)).toNat := by
      rw [hB, show s + (e - s + 1) = e + 1 by ring]
      exact asUsize_of_nonneg (by omega)
    simp only [clearGaps, hA, if_pos (show r.beforeCount s e > 0 by omega), hidx, hcnt, Wheel.set,
      hrun]
    simp
  · -- the reception lies after the range: clear `max + 1 .. s - 1`
    obtain ⟨w', hrun, hp⟩ := write_all_paints (fun _ => 0) hw (r.maxEndOfReceptionBin + 1)
      (show (s - r.maxEndOfReceptionBin - 1).toNat ≤ w.slots by omega)
    refine ⟨w', ?_, Or.inr ⟨hMs, hp⟩⟩
    simp only [clearGaps, hB, hA, if_neg (show ¬ (0 : ℤ) > 0 by omega),
      if_pos (show e - s + 1 > 0 by omega), wheelIndex_eq hw (show 0 ≤ r.maxEndOfReceptionBin + 1
        by omega), asUsize_of_nonneg (show 0 ≤ s - r.maxEndOfReceptionBin - 1 by omega), Wheel.set]
    exact hrun

/-- Clearing the gaps zeroes the bins between the reception and the recorded range. -/
theorem clearGaps_cells {r : NoiseRecorder} {s e : ℤ} (hr : r.Reachable s e)
    (hwithin : ¬ 0 < r.withinCount s e) (hgap : e ≤ r.maxEndOfReceptionBin + r.wheel.slots)
    {w : Wheel} (hw : r.Fits w) (hslots : w.slots = r.wheel.slots) :
    ∃ w', r.clearGaps s e w = some w' ∧ w'.slots = w.slots ∧ w'.bins = w.bins ∧
      ∀ k j, j < w.bins → k ≤ max r.maxEndOfReceptionBin e →
        max r.maxEndOfReceptionBin e - w.slots < k →
        w'.cellAt k j =
          if (e < k ∧ k < r.minStartOfReceptionBin) ∨ (r.maxEndOfReceptionBin < k ∧ k < s) then 0
          else w.cellAt k j := by
  obtain ⟨hm, hmM, hs, hse, hlen, hlate, hstale⟩ := hr
  obtain ⟨w', hrun, ⟨hem, hp⟩ | ⟨hMs, hp⟩⟩ := clearGaps_paints hs hse hm hmM hwithin hw (by omega)
    (by omega)
  · refine ⟨w', hrun, hp.slots_eq, hp.bins_eq, ?_⟩
    intro k j hj hk hlo
    rw [hp.cellAt_eq (max r.maxEndOfReceptionBin e - w.slots + 1) hj (by omega)
      (by omega) (by omega) (by omega)]
    apply if_congr _ rfl rfl
    omega
  · refine ⟨w', hrun, hp.slots_eq, hp.bins_eq, ?_⟩
    intro k j hj hk hlo
    rw [hp.cellAt_eq (max r.maxEndOfReceptionBin e - w.slots + 1) hj (by omega)
      (by omega) (by omega) (by omega)]
    apply if_congr _ rfl rfl
    omega

/-! ## The merge -/

/-- The merge in terms of its steps: the recorded range grows to the reception. -/
theorem recordMerge_of_steps {r : NoiseRecorder} {p : Reception} {s e : ℤ} {w₁ w₂ w₃ : Wheel}
    (hse : s ≤ e) (h₁ : r.recordBefore p s e r.wheel = some w₁)
    (h₂ : r.recordAfter p s e w₁ = some w₂)
    (h₃ : (if r.withinCount s e > 0 then r.recordWithin p s e w₂ else r.clearGaps s e w₂)
      = some w₃) :
    r.recordMerge p s e = some { r with
      wheel := w₃
      minStartOfReceptionBin := min r.minStartOfReceptionBin s
      maxEndOfReceptionBin := max r.maxEndOfReceptionBin e } := by
  have hmin : (if r.beforeCount s e > 0 then s else r.minStartOfReceptionBin)
      = min r.minStartOfReceptionBin s := by
    by_cases h : s < r.minStartOfReceptionBin
    · rw [if_pos ((beforeCount_pos_iff hse).mpr h)]; omega
    · rw [if_neg (fun hc => h ((beforeCount_pos_iff hse).mp hc))]; omega
  have hmax : (if r.afterCount s e > 0 then e else r.maxEndOfReceptionBin)
      = max r.maxEndOfReceptionBin e := by
    by_cases h : r.maxEndOfReceptionBin < e
    · rw [if_pos ((afterCount_pos_iff hse).mpr h)]; omega
    · rw [if_neg (fun hc => h ((afterCount_pos_iff hse).mp hc))]; omega
  simp only [recordMerge, h₁, h₂, hmin, hmax, Option.bind_eq_bind, Option.bind_some]
  by_cases hwithin : r.withinCount s e > 0
  · rw [if_pos hwithin] at h₃ ⊢
    rw [h₃, Option.bind_some]
  · rw [if_neg hwithin] at h₃ ⊢
    rw [h₃, Option.bind_some]

/-- **The merge.** A reception that fits the wheel, and that does not end more than one wheel after
the newest recorded bin, is added to the recorded range; the bins in between are zero. -/
theorem recordMerge_merged {r : NoiseRecorder} {p : Reception} {s e : ℤ} {gain : ℕ → ℚ}
    (hfit : r.Fits r.wheel) (hr : r.Reachable s e) (hp : r.Painter p s e gain)
    (hgap : e ≤ r.maxEndOfReceptionBin + r.wheel.slots) :
    ∃ r', r.recordMerge p s e = some r' ∧ r.Merged r' s e gain := by
  obtain ⟨w₁, hrun₁, hp₁⟩ := hp.before r.wheel hfit rfl
  have hfit₁ := hfit.of_paints hp₁
  obtain ⟨w₂, hrun₂, hp₂⟩ := hp.after w₁ hfit₁ hp₁.slots_eq
  have hfit₂ := hfit₁.of_paints hp₂
  have hslots₂ : w₂.slots = r.wheel.slots := hp₂.slots_eq.trans hp₁.slots_eq
  have hbins₂ : w₂.bins = r.wheel.bins := hp₂.bins_eq.trans hp₁.bins_eq
  obtain ⟨hm, hmM, hs, hse, hlen, hlate, hstale⟩ := hr
  -- the two setting steps, read in the window that ends with the new maximum
  have hcells₂ : ∀ k j, j < r.wheel.bins → k ≤ max r.maxEndOfReceptionBin e →
      max r.maxEndOfReceptionBin e - r.wheel.slots < k →
      w₂.cellAt k j = if s ≤ k ∧ k ≤ e ∧ (k < r.minStartOfReceptionBin ∨ r.maxEndOfReceptionBin < k)
        then gain j else r.wheel.cellAt k j := by
    intro k j hj hk hlo
    have hB₀ := beforeCount_nonneg (r := r) hse
    have hA₀ := afterCount_nonneg (r := r) hse
    have hB₁ := beforeCount_le (r := r) hse
    have hA₁ := afterCount_le (r := r) hse
    rw [hp₂.cellAt_eq (max r.maxEndOfReceptionBin e - r.wheel.slots + 1)
        (by rw [hp₁.bins_eq]; exact hj) (by omega) (by rw [hp₁.slots_eq]; omega) (by omega)
        (by rw [hp₁.slots_eq]; omega),
      hp₁.cellAt_eq (max r.maxEndOfReceptionBin e - r.wheel.slots + 1) hj (by omega)
        (by omega) (by omega) (by omega)]
    simp only [beforeCount, afterCount] at *
    split_ifs <;> first | rfl | (exfalso; omega)
  by_cases hwithin : 0 < r.withinCount s e
  · obtain ⟨w₃, hrun₃, hp₃⟩ := hp.within w₂ hfit₂ hslots₂ hwithin
    refine ⟨_, recordMerge_of_steps hse hrun₁ hrun₂ (by rw [if_pos hwithin]; exact hrun₃), rfl, hp₃.slots_eq.trans hslots₂,
      hp₃.bins_eq.trans hbins₂, ?_⟩
    intro k j hj hk₀ hk hlo
    have hB₀ := beforeCount_nonneg (r := r) hse
    have hA₀ := afterCount_nonneg (r := r) hse
    have hcount : (r.withinCount s e).toNat
        = (e - s + 1 - r.beforeCount s e - r.afterCount s e).toNat := rfl
    show w₃.cellAt k j = _
    rw [hp₃.cellAt_eq (max r.maxEndOfReceptionBin e - r.wheel.slots + 1)
      (by rw [hbins₂]; exact hj) (by omega) (by rw [hslots₂, hcount]; omega) (by omega)
      (by rw [hslots₂]; omega), hcells₂ k j hj hk hlo]
    simp only [withinCount, beforeCount, afterCount] at *
    split_ifs <;> first | (exfalso; omega) | simp
  · obtain ⟨w₃, hrun₃, hslots₃, hbins₃, hcells₃⟩ := clearGaps_cells
      ⟨hm, hmM, hs, hse, hlen, hlate, hstale⟩ hwithin hgap hfit₂ hslots₂
    refine ⟨_, recordMerge_of_steps hse hrun₁ hrun₂ (by rw [if_neg hwithin]; exact hrun₃), rfl, hslots₃.trans hslots₂,
      hbins₃.trans hbins₂, ?_⟩
    intro k j hj hk₀ hk hlo
    have hcase := withinCount_nonpos hse hmM hwithin
    show w₃.cellAt k j = _
    rw [hcells₃ k j (by rw [hbins₂]; exact hj) hk (by rw [hslots₂]; exact hlo),
      hcells₂ k j hj hk hlo]
    split_ifs <;> first | (exfalso; omega) | simp

end NoiseRecorder

end Emane.Noise
