import Emane.Noise.Recorder

set_option autoImplicit false

/-! # What the recorder's wheel calls paint

Every wheel call of `update` applies one function per sub-band to a run of consecutive time bins
(`Wheel.Paints`). This file gives that function for the clearing calls, the single-band calls and
the loops over the sub-band entries, with the wheel indices of the source read as absolute time
bins.
-/

namespace Emane.Noise

open Emane.Lib

/-! ## Composing and reading `Paints` -/

namespace Wheel.Paints

variable {w w₁ w₂ : Wheel} {k₀ : ℤ} {n : ℕ} {g g₁ g₂ : ℕ → ℚ → ℚ}

theorem refl (w : Wheel) (k₀ : ℤ) (n : ℕ) : Paints w w k₀ n (fun _ v => v) :=
  ⟨rfl, rfl, fun _ _ _ _ => rfl, fun _ _ _ _ => rfl⟩

/-- Two writes to the same run of time bins. -/
theorem trans (h₁ : Paints w w₁ k₀ n g₁) (h₂ : Paints w₁ w₂ k₀ n g₂) :
    Paints w w₂ k₀ n (fun j v => g₂ j (g₁ j v)) := by
  refine ⟨h₂.slots_eq.trans h₁.slots_eq, h₂.bins_eq.trans h₁.bins_eq, ?_, ?_⟩
  · intro k j hj hon
    rw [h₂.cellAt_on k j (by rw [h₁.bins_eq]; exact hj) (by rw [h₁.slots_eq]; exact hon),
      h₁.cellAt_on k j hj hon]
  · intro k j hj hoff
    rw [h₂.cellAt_off k j (by rw [h₁.bins_eq]; exact hj) (by rw [h₁.slots_eq]; exact hoff),
      h₁.cellAt_off k j hj hoff]

theorem congr (h : Paints w w₁ k₀ n g) (hg : ∀ j v, j < w.bins → g j v = g₁ j v) :
    Paints w w₁ k₀ n g₁ :=
  ⟨h.slots_eq, h.bins_eq, fun k j hj hon => (h.cellAt_on k j hj hon).trans (hg j _ hj),
    h.cellAt_off⟩

/-- **Reading a write inside a window.** When the window `[lo, lo + slots)` covers the written run,
a time bin of the window changes exactly when it is in the run. -/
theorem cellAt_eq (h : Paints w w₁ k₀ n g) (lo : ℤ) {k : ℤ} {j : ℕ} (hj : j < w.bins) (h₀ : lo ≤ k₀)
    (hn : k₀ + n ≤ lo + w.slots) (hk : lo ≤ k) (hkW : k < lo + w.slots) :
    w₁.cellAt k j = if k₀ ≤ k ∧ k < k₀ + n then g j (w.cellAt k j) else w.cellAt k j := by
  by_cases hin : k₀ ≤ k ∧ k < k₀ + n
  · rw [if_pos hin]
    exact h.cellAt_on k j hj ((onRing_iff_of_window h₀ hn hk hkW).mpr hin)
  · rw [if_neg hin]
    exact h.cellAt_off k j hj (fun hon => hin ((onRing_iff_of_window h₀ hn hk hkW).mp hon))

end Wheel.Paints

/-! ## Wheel indices as time bins -/

theorem asUsize_of_nonneg {x : ℤ} (h : 0 ≤ x) : asUsize x = x.toNat := by
  rw [asUsize, if_neg (by omega)]

/-- The index arithmetic of the source, `(index of k + n) % slots`, is the slot of `k + n`. -/
theorem index_add {W : ℕ} (hW : 0 < W) (k : ℤ) (n : ℕ) :
    ((k % (W : ℤ)).toNat + n) % W = ((k + n) % (W : ℤ)).toNat := by
  have hk : (((k % (W : ℤ)).toNat : ℕ) : ℤ) = k % (W : ℤ) :=
    Int.toNat_of_nonneg (Int.emod_nonneg _ (by omega))
  have h : ((((k % (W : ℤ)).toNat + n) % W : ℕ) : ℤ) = (k + n) % (W : ℤ) := by
    rw [Int.natCast_mod, Int.natCast_add, hk, Int.emod_add_emod]
  omega

namespace NoiseRecorder

/-- The wheel has the slots and the bins the recorder works with. -/
structure Fits (r : NoiseRecorder) (w : Wheel) : Prop where
  slots_pos : 0 < w.slots
  slots_eq : r.totalWheelBins = w.slots
  bins_eq : r.totalSubBandBins = w.bins
  bins_pos : 0 < w.bins

theorem Fits.of_paints {r : NoiseRecorder} {w w' : Wheel} {k₀ : ℤ} {n : ℕ} {g : ℕ → ℚ → ℚ}
    (h : r.Fits w) (hp : w.Paints w' k₀ n g) : r.Fits w' := by
  obtain ⟨h₁, h₂, h₃, h₄⟩ := h
  rw [← hp.slots_eq] at h₁ h₂
  rw [← hp.bins_eq] at h₃ h₄
  exact ⟨h₁, h₂, h₃, h₄⟩

theorem Fits.asUsize_eq {r : NoiseRecorder} {w : Wheel} (h : r.Fits w) :
    asUsize r.totalWheelBins = w.slots := by
  rw [h.slots_eq, asUsize_of_nonneg (by omega)]
  simp

theorem wheelIndex_eq {r : NoiseRecorder} {w : Wheel} (h : r.Fits w) {k : ℤ} (hk : 0 ≤ k) :
    r.wheelIndex k = (k % (w.slots : ℤ)).toNat := by
  rw [wheelIndex, h.asUsize_eq, asUsize_of_nonneg hk]
  have : ((k.toNat % w.slots : ℕ) : ℤ) = k % (w.slots : ℤ) := by
    rw [Int.natCast_mod, Int.toNat_of_nonneg hk]
  omega

/-- `(start_index + duration - after) % slots` is the slot of the last `after` bins. -/
theorem wheelIndex_sub {r : NoiseRecorder} {w : Wheel} (h : r.Fits w) {k : ℤ} (hk : 0 ≤ k)
    {d a : ℕ} (had : a ≤ d) :
    (r.wheelIndex k + d - a) % asUsize r.totalWheelBins
      = ((k + (d - a : ℕ)) % (w.slots : ℤ)).toNat := by
  rw [Nat.add_sub_assoc had, wheelIndex_eq h hk, h.asUsize_eq, index_add h.slots_pos]

theorem wheelIndex_add {r : NoiseRecorder} {w : Wheel} (h : r.Fits w) {k : ℤ} (hk : 0 ≤ k)
    (n : ℕ) :
    (r.wheelIndex k + n) % asUsize r.totalWheelBins = ((k + n) % (w.slots : ℤ)).toNat := by
  rw [wheelIndex_eq h hk, h.asUsize_eq, index_add h.slots_pos]

/-! ## The wheel calls -/

/-- A write to all sub-bands. -/
theorem write_all_paints (f : ℚ → ℚ) {r : NoiseRecorder} {w : Wheel} (h : r.Fits w) (k₀ : ℤ)
    {n : ℕ} (hn : n ≤ w.slots) :
    ∃ w', w.write f (k₀ % (w.slots : ℤ)).toNat n 0 r.totalSubBandBins = some w' ∧
      w.Paints w' k₀ n (fun _ v => f v) := by
  obtain ⟨w', hrun, hp⟩ := Wheel.write_paints f k₀ h.slots_pos hn
    (show 0 + r.totalSubBandBins ≤ w.bins by rw [h.bins_eq]; omega)
    (by rw [h.bins_eq]; exact h.bins_pos)
  refine ⟨w', hrun, hp.congr ?_⟩
  intro j v hj
  rw [if_pos ⟨Nat.zero_le j, by rw [h.bins_eq]; omega⟩]

/-- The entries of a frequency range: increasing runs inside the band. -/
structure AppliesFit (applies : List BinPowerApply) (bins : ℕ) : Prop where
  ordered : applies.Pairwise (fun a b => a.last < b.first)
  first_le : ∀ a ∈ applies, a.first ≤ a.last
  last_lt : ∀ a ∈ applies, a.last < bins

theorem AppliesFit.tail {a : BinPowerApply} {as : List BinPowerApply} {bins : ℕ}
    (h : AppliesFit (a :: as) bins) : AppliesFit as bins :=
  ⟨(List.pairwise_cons.mp h.ordered).2, fun b hb => h.first_le b (by simp [hb]),
    fun b hb => h.last_lt b (by simp [hb])⟩

/-- The entry covers sub-band `j`. -/
def BinPowerApply.Covers (a : BinPowerApply) (j : ℕ) : Prop := a.first ≤ j ∧ j ≤ a.last

instance (a : BinPowerApply) (j : ℕ) : Decidable (BinPowerApply.Covers a j) :=
  inferInstanceAs (Decidable (_ ∧ _))

/-- The share of the power the entries give to sub-band `j`. -/
def multiplierAt : List BinPowerApply → ℕ → ℚ
  | [], _ => 0
  | a :: as, j => (if BinPowerApply.Covers a j then a.multiplier else 0) + multiplierAt as j

/-- Some entry covers sub-band `j`. -/
def Touches (applies : List BinPowerApply) (j : ℕ) : Prop :=
  ∃ a ∈ applies, BinPowerApply.Covers a j

instance (applies : List BinPowerApply) (j : ℕ) : Decidable (Touches applies j) :=
  inferInstanceAs (Decidable (∃ a ∈ applies, BinPowerApply.Covers a j))

theorem touches_cons {a : BinPowerApply} {as : List BinPowerApply} {j : ℕ} :
    Touches (a :: as) j ↔ BinPowerApply.Covers a j ∨ Touches as j := by
  simp [Touches]

theorem multiplierAt_of_not_touches {applies : List BinPowerApply} {j : ℕ}
    (h : ¬ Touches applies j) : multiplierAt applies j = 0 := by
  induction applies with
  | nil => rfl
  | cons a as ih =>
      rw [touches_cons, not_or] at h
      rw [multiplierAt, if_neg h.1, ih h.2, zero_add]

/-- A sub-band covered by the first entry is covered by no other. -/
theorem AppliesFit.not_touches_tail {a : BinPowerApply} {as : List BinPowerApply} {bins j : ℕ}
    (h : AppliesFit (a :: as) bins) (hj : BinPowerApply.Covers a j) : ¬ Touches as j := by
  rintro ⟨b, hb, hbj⟩
  have hlt := (List.pairwise_cons.mp h.ordered).1 b hb
  have h₁ : j ≤ a.last := hj.2
  have h₂ : b.first ≤ j := hbj.1
  omega

theorem covers_iff_range {a : BinPowerApply} (h : a.first ≤ a.last) (j : ℕ) :
    a.first ≤ j ∧ j < a.first + (a.last - a.first + 1) ↔ BinPowerApply.Covers a j := by
  rw [BinPowerApply.Covers]
  omega

/-- The `set` loop gives every covered sub-band its share and leaves the others. -/
theorem setApplies_paints (p : Reception) {w : Wheel} (hw : 0 < w.slots) (k₀ : ℤ) {n : ℕ}
    (hn : n ≤ w.slots) (hfit : AppliesFit p.applies w.bins) :
    ∃ w', setApplies p (k₀ % (w.slots : ℤ)).toNat n w = some w' ∧ w.Paints w' k₀ n
      (fun j v => if Touches p.applies j then p.power * multiplierAt p.applies j else v) := by
  obtain ⟨power, applies, b, m⟩ := p
  simp only [setApplies] at hfit ⊢
  induction applies generalizing w with
  | nil =>
      exact ⟨w, rfl, (Wheel.Paints.refl w k₀ n).congr (fun j v _ => by simp [Touches])⟩
  | cons a as ih =>
      have hle : a.first ≤ a.last := hfit.first_le a (by simp)
      have hlt : a.last < w.bins := hfit.last_lt a (by simp)
      obtain ⟨w₁, hrun₁, hp₁⟩ := Wheel.write_paints (fun _ => power * a.multiplier) k₀ hw hn
        (show a.first + (a.last - a.first + 1) ≤ w.bins by omega) (by omega)
      obtain ⟨w₂, hrun₂, hp₂⟩ := ih (w := w₁) (by rw [hp₁.slots_eq]; exact hw)
        (by rw [hp₁.slots_eq]; exact hn) (by rw [hp₁.bins_eq]; exact hfit.tail)
      refine ⟨w₂, ?_, (hp₁.trans hp₂).congr ?_⟩
      · rw [List.foldlM_cons, Wheel.set, hrun₁]
        rw [hp₁.slots_eq] at hrun₂
        exact hrun₂
      · intro j v _
        simp only [covers_iff_range hle, touches_cons, multiplierAt]
        by_cases hcov : BinPowerApply.Covers a j
        · have hnt := hfit.not_touches_tail hcov
          simp [hcov, hnt, multiplierAt_of_not_touches hnt]
        · simp [hcov]

/-- The `add` loop adds its share to every sub-band. -/
theorem addApplies_paints (p : Reception) {w : Wheel} (hw : 0 < w.slots) (k₀ : ℤ) {n : ℕ}
    (hn : n ≤ w.slots) (hfit : AppliesFit p.applies w.bins) :
    ∃ w', addApplies p (k₀ % (w.slots : ℤ)).toNat n w = some w' ∧ w.Paints w' k₀ n
      (fun j v => v + p.power * multiplierAt p.applies j) := by
  obtain ⟨power, applies, b, m⟩ := p
  simp only [addApplies] at hfit ⊢
  induction applies generalizing w with
  | nil =>
      exact ⟨w, rfl, (Wheel.Paints.refl w k₀ n).congr (fun j v _ => by simp [multiplierAt])⟩
  | cons a as ih =>
      have hle : a.first ≤ a.last := hfit.first_le a (by simp)
      have hlt : a.last < w.bins := hfit.last_lt a (by simp)
      obtain ⟨w₁, hrun₁, hp₁⟩ := Wheel.write_paints (· + power * a.multiplier) k₀ hw hn
        (show a.first + (a.last - a.first + 1) ≤ w.bins by omega) (by omega)
      obtain ⟨w₂, hrun₂, hp₂⟩ := ih (w := w₁) (by rw [hp₁.slots_eq]; exact hw)
        (by rw [hp₁.slots_eq]; exact hn) (by rw [hp₁.bins_eq]; exact hfit.tail)
      refine ⟨w₂, ?_, (hp₁.trans hp₂).congr ?_⟩
      · rw [List.foldlM_cons, Wheel.add, hrun₁]
        rw [hp₁.slots_eq] at hrun₂
        exact hrun₂
      · intro j v _
        simp only [covers_iff_range hle, multiplierAt]
        split <;> ring

end NoiseRecorder

end Emane.Noise
