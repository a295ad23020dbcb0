import Emane.Noise.SingleBand

set_option autoImplicit false

/-! # The capacity of the wheel

What a recorder without sub-bands asks its wheel for, and how many bins are live at a time. `update`
guards against a reception that starts a whole wheel after the newest recorded bin (`resetStale`), not
against one that ends a whole wheel before the oldest recorded bin: the gap it then clears does not fit
the wheel. And nothing keeps the newest recorded bin near `now`. `CallFits` excludes these two; a
recorder whose calls all meet it never fails (`Tidy.step`), its queries never fail
(`Tidy.tryGet_isSome`), and its live bins have slots of their own (`WithinWheel.wheelIndex_inj`).
-/

namespace Emane.Noise

open Emane.Lib

/-! ## Bins of times -/

theorem timepointToBin_end_nonneg {bin x : ℤ} (hb : 1 ≤ bin) (hx : 0 ≤ x) :
    0 ≤ timepointToBin bin x true := by
  rcases eq_or_lt_of_le hx with rfl | hx
  · exact le_rfl
  · rw [timepointToBin_end hb hx]
    exact Int.ediv_nonneg (by omega) (by omega)

theorem timepointToBin_end_nonpos {bin x : ℤ} (hb : 1 ≤ bin) (hx : x ≤ 0) :
    timepointToBin bin x true ≤ 0 := by
  have htdiv : x.tdiv bin ≤ 0 := by
    have := Int.tdiv_le_tdiv (show 0 < bin by omega) hx
    rwa [Int.zero_tdiv] at this
  rw [timepointToBin]
  split
  · exact le_rfl
  · split <;> omega

/-- The bins of end times grow with the time, from `0` on. -/
theorem timepointToBin_end_mono {bin x y : ℤ} (hb : 1 ≤ bin) (hy : 0 ≤ y) (hxy : x ≤ y) :
    timepointToBin bin x true ≤ timepointToBin bin y true := by
  by_cases hx : x ≤ 0
  · exact le_trans (timepointToBin_end_nonpos hb hx) (timepointToBin_end_nonneg hb hy)
  · rw [timepointToBin_end hb (by omega), timepointToBin_end hb (by omega)]
    exact Int.ediv_le_ediv (by omega) (by omega)

theorem timepointToBin_false (bin x : ℤ) : timepointToBin bin x false = x.tdiv bin := by
  rw [timepointToBin]
  split
  · next h => rw [h, Int.zero_tdiv]
  · simp

/-- The bin of a start time is at most one after the bin of a later end time. -/
theorem timepointToBin_start_le {bin x y : ℤ} (hb : 1 ≤ bin) (hxy : x ≤ y) :
    timepointToBin bin x false ≤ timepointToBin bin y true + 1 := by
  have hdiv : x.tdiv bin ≤ y.tdiv bin := Int.tdiv_le_tdiv (by omega) hxy
  rw [timepointToBin_false, timepointToBin]
  split
  · next h =>
      rw [h, Int.zero_tdiv] at hdiv
      omega
  · split <;> omega

namespace NoiseRecorder

/-! ## What no update changes -/

/-- The sizes of the recorder. -/
structure SameShape (r r' : NoiseRecorder) : Prop where
  binSize : r'.binSizeMicroseconds = r.binSizeMicroseconds
  window : r'.totalWindowBins = r.totalWindowBins
  wheelBins : r'.totalWheelBins = r.totalWheelBins

theorem SameShape.refl (r : NoiseRecorder) : r.SameShape r := ⟨rfl, rfl, rfl⟩

theorem SameShape.trans {r₁ r₂ r₃ : NoiseRecorder} (h : r₁.SameShape r₂) (h' : r₂.SameShape r₃) :
    r₁.SameShape r₃ :=
  ⟨h'.1.trans h.1, h'.2.trans h.2, h'.3.trans h.3⟩

theorem record_sameShape {r r' : NoiseRecorder} {p : Reception} {s e : ℤ}
    (h : r.record p s e = some r') : r.SameShape r' := by
  obtain ⟨w, minStart, maxEnd, rfl⟩ := record_frame h
  exact ⟨rfl, rfl, rfl⟩

theorem storeEorBins_sameShape (r : NoiseRecorder) (c : UpdateCall) :
    r.SameShape (r.storeEorBins c) := by
  obtain ⟨map, hstore⟩ := storeEorBins_frame r c
  rw [hstore]
  exact ⟨rfl, rfl, rfl⟩

/-- **The sizes of a recorder never change.** -/
theorem update_sameShape {r r' : NoiseRecorder} {c : UpdateCall} {sor eor : ℤ}
    (h : r.update c = some (r', sor, eor)) : r.SameShape r' := by
  obtain ⟨r₁, first, count, r₂, hmap, hrecord, rfl, -, -⟩ := update_cases h
  have h₁ : r.SameShape r₁ := by
    obtain ⟨map, rfl⟩ := mapSubBands_frame hmap
    exact ⟨rfl, rfl, rfl⟩
  have h₂ : r₁.SameShape r₂ := by
    rcases hrecord with ⟨-, hrecord⟩ | ⟨-, rfl⟩
    · exact record_sameShape hrecord
    · exact SameShape.refl r₂
  exact (h₁.trans h₂).trans (storeEorBins_sameShape r₂ c)

/-! ## The size of the wheel -/

/-- A recorder without sub-bands, with a wheel of the size it works with and a recorded range in
order. -/
structure Tidy (r : NoiseRecorder) : Prop where
  single : r.SingleBand
  fits : r.Fits r.wheel
  bin_pos : 1 ≤ r.binSizeMicroseconds
  window_pos : 1 ≤ r.totalWindowBins
  window_le : r.totalWindowBins ≤ r.totalWheelBins
  range : (r.maxEndOfReceptionBin = 0 ∧ r.minStartOfReceptionBin = 0) ∨
    (0 < r.minStartOfReceptionBin ∧ r.minStartOfReceptionBin ≤ r.maxEndOfReceptionBin)

/-- The oldest bin `try_get` serves at `now` or later; it serves none before time `0`. -/
def oldestServed (r : NoiseRecorder) (now : ℤ) : ℤ :=
  timepointToBin r.binSizeMicroseconds (max now 0) true - r.totalWindowBins + 1

/-- The live bins, from the oldest one served to the newest one recorded, are no more than the wheel
has slots. -/
def WithinWheel (r : NoiseRecorder) (now : ℤ) : Prop :=
  r.maxEndOfReceptionBin - r.oldestServed now + 1 ≤ r.totalWheelBins

/-- The call records nothing, or the reception ends less than one wheel after the oldest bin served
and, unless it starts a new range, not more than one wheel before the oldest recorded bin. -/
def CallFits (r : NoiseRecorder) (c : UpdateCall) : Prop :=
  r.effectiveStartBin c ≤ c.eorBin r.binSizeMicroseconds →
    c.eorBin r.binSizeMicroseconds - r.oldestServed c.now + 1 ≤ r.totalWheelBins ∧
      (r.StartsRange (r.effectiveStartBin c) ∨
        r.minStartOfReceptionBin ≤ c.eorBin r.binSizeMicroseconds + 1 + r.totalWheelBins)

instance (r : NoiseRecorder) (c : UpdateCall) : Decidable (r.CallFits c) :=
  inferInstanceAs (Decidable (_ → _))

instance (r : NoiseRecorder) (now : ℤ) : Decidable (r.WithinWheel now) :=
  inferInstanceAs (Decidable (_ ≤ _))

/-- Bins before the first one are never recorded. -/
theorem effectiveStartBin_pos (r : NoiseRecorder) (c : UpdateCall) : 1 ≤ r.effectiveStartBin c := by
  have hstored : 0 ≤ r.storedMaxEorBin c.transmitters c.txAntennaIndex := by
    have hfold : r.storedMaxEorBin c.transmitters c.txAntennaIndex
        = (c.transmitters.filterMap fun t => r.eorBinOf t c.txAntennaIndex).foldl max 0 :=
      foldl_stored (fun t => r.eorBinOf t c.txAntennaIndex) c.transmitters 0
    rw [hfold]
    exact le_foldl_max _ _
  simp only [effectiveStartBin]
  split <;> omega

/-- A recorder from `new` is tidy. -/
theorem tidy_new (bin maxOffset maxPropagation maxDuration : ℤ) (frequencyHz bandwidthHz : ℕ) :
    (new bin maxOffset maxPropagation maxDuration frequencyHz bandwidthHz 0).Tidy := by
  have hbin : (0 : ℤ) < max bin 1 := by omega
  -- the window is part of the wheel
  have hwindow : max ((max maxDuration (max bin 1)).tdiv (max bin 1)) 1 ≤
      max ((max maxOffset 0 + max maxPropagation 0 + max maxDuration (max bin 1) * 2).tdiv
        (max bin 1)) 1 :=
    max_le_max (Int.tdiv_le_tdiv hbin (by omega)) le_rfl
  have hslots : max ((max maxOffset 0 + max maxPropagation 0 + max maxDuration (max bin 1) * 2).tdiv
        (max bin 1)) 1 = ((asUsize (max ((max maxOffset 0 + max maxPropagation 0
          + max maxDuration (max bin 1) * 2).tdiv (max bin 1)) 1) : ℕ) : ℤ) := by
    rw [asUsize_of_nonneg (by omega)]
    omega
  refine ⟨⟨rfl, rfl⟩, ⟨?_, hslots, rfl, Nat.one_pos⟩, le_max_right _ _, le_max_right _ _, hwindow,
    Or.inl ⟨rfl, rfl⟩⟩
  have hpos : (0 : ℤ) < ((asUsize (max ((max maxOffset 0 + max maxPropagation 0
      + max maxDuration (max bin 1) * 2).tdiv (max bin 1)) 1) : ℕ) : ℤ) := by
    rw [← hslots]
    omega
  exact_mod_cast hpos

/-! ## One call -/

/-- A merge whose gap fits the wheel does not fail, however late the reception is. -/
theorem SingleBand.recordMerge_range {r : NoiseRecorder} (h : r.SingleBand)
    (hfit : r.Fits r.wheel) (power : ℚ) (applies : List BinPowerApply) {s e : ℤ}
    (hm : 0 < r.minStartOfReceptionBin) (hmM : r.minStartOfReceptionBin ≤ r.maxEndOfReceptionBin)
    (hs : 0 < s) (hse : s ≤ e) (hlen : e - s + 1 ≤ r.wheel.slots)
    (hbefore : r.minStartOfReceptionBin ≤ e + 1 + r.wheel.slots)
    (hafter : s < r.maxEndOfReceptionBin + r.wheel.slots) :
    ∃ w, r.recordMerge (singleReception power applies) s e = some { r with
        wheel := w
        minStartOfReceptionBin := min r.minStartOfReceptionBin s
        maxEndOfReceptionBin := max r.maxEndOfReceptionBin e } ∧ r.Fits w := by
  have hp := h.painter power applies hs hse hlen
  obtain ⟨w₁, hrun₁, hp₁⟩ := hp.before r.wheel hfit rfl
  have hfit₁ := hfit.of_paints hp₁
  obtain ⟨w₂, hrun₂, hp₂⟩ := hp.after w₁ hfit₁ hp₁.slots_eq
  have hfit₂ := hfit₁.of_paints hp₂
  have hslots₂ : w₂.slots = r.wheel.slots := hp₂.slots_eq.trans hp₁.slots_eq
  by_cases hwithin : 0 < r.withinCount s e
  · obtain ⟨w₃, hrun₃, hp₃⟩ := hp.within w₂ hfit₂ hslots₂ hwithin
    exact ⟨w₃, recordMerge_of_steps hse hrun₁ hrun₂ (by rw [if_pos hwithin]; exact hrun₃),
      hfit₂.of_paints hp₃⟩
  · obtain ⟨w₃, hrun₃, hp₃⟩ := clearGaps_paints hs hse hm hmM hwithin hfit₂
      (by rw [hslots₂]; exact hbefore) (by rw [hslots₂]; omega)
    refine ⟨w₃, recordMerge_of_steps hse hrun₁ hrun₂ (by rw [if_neg hwithin]; exact hrun₃), ?_⟩
    rcases hp₃ with ⟨-, hp₃⟩ | ⟨-, hp₃⟩
    · exact hfit₂.of_paints hp₃
    · exact hfit₂.of_paints hp₃

theorem Tidy.withRange {r : NoiseRecorder} (h : r.Tidy) {w : Wheel} (hw : r.Fits w) {m M : ℤ}
    (hm : 0 < m) (hmM : m ≤ M) :
    Tidy { r with wheel := w, minStartOfReceptionBin := m, maxEndOfReceptionBin := M } :=
  ⟨⟨h.single.1, h.single.2⟩, ⟨hw.1, hw.2, hw.3, hw.4⟩, h.bin_pos, h.window_pos, h.window_le,
    Or.inr ⟨hm, hmM⟩⟩

theorem Tidy.storeEorBins {r : NoiseRecorder} (h : r.Tidy) (c : UpdateCall) :
    (r.storeEorBins c).Tidy := by
  rw [NoiseRecorder.storeEorBins]
  split
  · exact h
  · exact ⟨⟨h.single.1, h.single.2⟩, ⟨h.fits.1, h.fits.2, h.fits.3, h.fits.4⟩, h.bin_pos,
      h.window_pos, h.window_le, h.range⟩

theorem storeEorBins_max (r : NoiseRecorder) (c : UpdateCall) :
    (r.storeEorBins c).maxEndOfReceptionBin = r.maxEndOfReceptionBin := by
  rw [storeEorBins]
  split
  · rfl
  · rfl

/-- Recording never takes the newest bin back, and the reception is not newer afterwards. -/
theorem record_newest {r r' : NoiseRecorder} {p : Reception} {s e : ℤ} (hs : 1 ≤ s) (hse : s ≤ e)
    (hwheel : 0 ≤ r.totalWheelBins) (h : r.record p s e = some r') :
    r.maxEndOfReceptionBin ≤ r'.maxEndOfReceptionBin ∧ e ≤ r'.maxEndOfReceptionBin := by
  unfold record at h
  simp only at h
  split at h
  · next hfirst =>
      have hmax : r.maxEndOfReceptionBin ≤ e := by
        unfold resetStale at hfirst
        split at hfirst <;> omega
      unfold recordFirst at h
      simp only at h
      split at h
      all_goals
        obtain ⟨w, -, h⟩ := Option.bind_eq_some_iff.mp h
        cases h
        exact ⟨hmax, le_rfl⟩
  · next hmerge =>
      have hstale : r.resetStale s = r := by
        unfold resetStale at hmerge ⊢
        split at hmerge
        · exact absurd ⟨rfl, rfl⟩ hmerge
        · next hno => exact if_neg hno
      rw [hstale] at h
      unfold recordMerge at h
      obtain ⟨w₁, -, h⟩ := Option.bind_eq_some_iff.mp h
      obtain ⟨w₂, -, h⟩ := Option.bind_eq_some_iff.mp h
      have hmax : r.maxEndOfReceptionBin ≤
            (if r.afterCount s e > 0 then e else r.maxEndOfReceptionBin) ∧
          e ≤ if r.afterCount s e > 0 then e else r.maxEndOfReceptionBin := by
        unfold afterCount
        split_ifs <;> omega
      simp only at h
      split at h
      all_goals
        obtain ⟨w₃, -, h⟩ := Option.bind_eq_some_iff.mp h
        cases h
        exact hmax

/-- **The newest bin** of a recorder never decreases, and an update with new bins is not newer. -/
theorem update_newest {r r' : NoiseRecorder} {c : UpdateCall} {sor eor : ℤ}
    (hwheel : 0 ≤ r.totalWheelBins) (h : r.update c = some (r', sor, eor)) :
    r.maxEndOfReceptionBin ≤ r'.maxEndOfReceptionBin ∧
      (r.effectiveStartBin c ≤ c.eorBin r.binSizeMicroseconds →
        c.eorBin r.binSizeMicroseconds ≤ r'.maxEndOfReceptionBin) := by
  obtain ⟨r₁, first, count, r₂, hmap, hrecord, rfl, -, -⟩ := update_cases h
  obtain ⟨map, rfl⟩ := mapSubBands_frame hmap
  rw [storeEorBins_max]
  rcases hrecord with ⟨hle, hrecord⟩ | ⟨hlt, rfl⟩
  · have hnewest := record_newest (r := { r with binPowerApplyMap := map })
      (effectiveStartBin_pos _ c) hle hwheel hrecord
    exact ⟨hnewest.1, fun _ => hnewest.2⟩
  · exact ⟨le_rfl, fun hle => absurd hle hlt⟩

/-- Recording a reception of at most one wheel: the recorder stays tidy, and its newest bin is the
newest of the two. -/
theorem Tidy.record {r : NoiseRecorder} (h : r.Tidy) (power : ℚ) (applies : List BinPowerApply)
    {s e : ℤ} (hs : 0 < s) (hse : s ≤ e) (hlen : e - s + 1 ≤ r.totalWheelBins)
    (hlate : r.StartsRange s ∨ r.minStartOfReceptionBin ≤ e + 1 + r.totalWheelBins) :
    ∃ r', r.record (singleReception power applies) s e = some r' ∧ r'.Tidy ∧
      r'.maxEndOfReceptionBin ≤ max r.maxEndOfReceptionBin e := by
  have hslots := h.fits.slots_eq
  by_cases hst : r.StartsRange s
  · obtain ⟨r', hrun, hr'⟩ := h.single.recordFirst_started power applies h.fits hs hse (by omega)
    refine ⟨r', by rw [record_of_starts hst]; exact hrun, ?_, ?_⟩
    · rw [hr'.frame]
      refine h.withRange ⟨?_, ?_, ?_, ?_⟩ hs hse
      · rw [hr'.slots_eq]
        exact h.fits.slots_pos
      · rw [hr'.slots_eq]
        exact h.fits.slots_eq
      · rw [hr'.bins_eq]
        exact h.fits.bins_eq
      · rw [hr'.bins_eq]
        exact h.fits.bins_pos
    · rw [hr'.frame]
      exact le_max_right _ _
  · have hlate := hlate.resolve_left hst
    have hnot : ¬ r.StartsRange s := hst
    rw [StartsRange, not_or] at hst
    obtain ⟨hm, hmM⟩ := h.range.resolve_left hst.1
    obtain ⟨w, hrun, hw⟩ := h.single.recordMerge_range h.fits power applies hm hmM hs hse (by omega)
      (by omega) (by omega)
    refine ⟨_, by rw [record_of_not_starts hnot]; exact hrun, ?_, le_rfl⟩
    exact h.withRange hw (by omega) (by omega)

/-- **A call that fits** does not fail and keeps the live bins within the wheel. -/
theorem Tidy.step {r : NoiseRecorder} (h : r.Tidy) {c : UpdateCall}
    (hlen : r.effectiveStartBin c ≤ c.eorBin r.binSizeMicroseconds →
      c.eorBin r.binSizeMicroseconds - r.effectiveStartBin c + 1 ≤ r.totalWheelBins)
    (hc : r.CallFits c) {now : ℤ} (hnow : now ≤ c.now) (hlive : r.WithinWheel now) :
    ∃ r', r.step c = some r' ∧ r'.Tidy ∧ r'.WithinWheel c.now := by
  have hmono : r.oldestServed now ≤ r.oldestServed c.now := by
    have := timepointToBin_end_mono h.bin_pos (le_max_right c.now 0)
      (show max now 0 ≤ max c.now 0 by omega)
    unfold oldestServed
    omega
  unfold WithinWheel at hlive
  -- what the sizes leave of the goal
  have hwithin : ∀ r' : NoiseRecorder, r.SameShape r' →
      r'.maxEndOfReceptionBin - r.oldestServed c.now + 1 ≤ r.totalWheelBins →
      r'.WithinWheel c.now := by
    intro r' hshape hle
    unfold WithinWheel oldestServed
    rw [hshape.binSize, hshape.window, hshape.wheelBins]
    exact hle
  obtain ⟨applies, hstep⟩ := h.single.update_eq c
  by_cases hse : r.effectiveStartBin c ≤ c.eorBin r.binSizeMicroseconds
  · obtain ⟨hfuture, hlate⟩ := hc hse
    obtain ⟨r₁, hrun, htidy, hmax⟩ := h.record c.rxPower applies
      (by have := r.effectiveStartBin_pos c; omega) hse (hlen hse) hlate
    rw [if_pos hse, hrun] at hstep
    refine ⟨_, hstep, htidy.storeEorBins c, hwithin _ ?_ ?_⟩
    · exact (record_sameShape hrun).trans (storeEorBins_sameShape r₁ c)
    · rw [storeEorBins_max]
      omega
  · rw [if_neg hse] at hstep
    refine ⟨_, hstep, h.storeEorBins c, hwithin _ (storeEorBins_sameShape r c) ?_⟩
    rw [storeEorBins_max]
    omega

/-! ## Queries -/

theorem get_isSome {w : Wheel} {k : ℤ} {n : ℕ} (hw : 0 < w.slots) (hn : 0 < n) (hnw : n ≤ w.slots) :
    (w.get (k % (w.slots : ℤ)).toNat n).isSome = true := by
  have hlt : k % (w.slots : ℤ) < w.slots := Int.emod_lt_of_pos k (by omega)
  have hnn : 0 ≤ k % (w.slots : ℤ) := Int.emod_nonneg k (by omega)
  rw [Wheel.get, if_neg (by omega), if_neg (by omega)]
  simp only
  split
  · rfl
  · rfl

theorem zeros_isSome {count : ℤ} (h : 0 ≤ count) (bins : ℕ) : (zeros count bins).isSome = true := by
  rw [zeros, if_neg (by omega)]
  rfl

/-- Reading at most one wheel does not fail. -/
theorem Tidy.window_isSome {r : NoiseRecorder} (h : r.Tidy) {a b : ℤ} (hab : a ≤ b + 1)
    (hlen : b - a + 1 ≤ r.totalWheelBins) : (r.window a b).isSome = true := by
  rw [NoiseRecorder.window]
  simp only
  split
  · next hlive =>
      obtain ⟨hm, hmM⟩ := h.range.resolve_left (fun hc => hlive.1 hc.1)
      generalize hafter : (if b > r.maxEndOfReceptionBin then
        min (b - r.maxEndOfReceptionBin) (b - a + 1) else 0) = after
      generalize hbefore : (if a < r.minStartOfReceptionBin then
        min (r.minStartOfReceptionBin - a) (b - a + 1) else 0) = before
      have hafter₀ : 0 ≤ after := by
        split at hafter <;> omega
      have hbefore₀ : 0 ≤ before := by
        split at hbefore <;> omega
      obtain ⟨head, hhead⟩ := Option.isSome_iff_exists.mp (zeros_isSome hbefore₀ r.totalSubBandBins)
      obtain ⟨tail, htail⟩ := Option.isSome_iff_exists.mp (zeros_isSome hafter₀ r.totalSubBandBins)
      rw [hhead, htail]
      by_cases hrem : b - a + 1 - (before + after) > 0
      · -- the last bin read is a recorded one, so its index does not wrap
        have hlast : 0 < b - after := by
          split at hafter <;> split at hbefore <;> omega
        have hidx : asUsize ((b - after).tmod r.totalWheelBins)
            = ((b - after) % (r.wheel.slots : ℤ)).toNat := by
          rw [Int.tmod_eq_emod_of_nonneg (by omega), h.fits.slots_eq]
          exact asUsize_of_nonneg (Int.emod_nonneg _ (by have := h.fits.slots_pos; omega))
        have hslots := h.fits.slots_eq
        obtain ⟨mid, hmid⟩ := Option.isSome_iff_exists.mp (get_isSome (k := b - after) h.fits.slots_pos
          (show 0 < (b - a + 1 - (before + after)).toNat by omega)
          (show (b - a + 1 - (before + after)).toNat ≤ r.wheel.slots by omega))
        rw [if_pos hrem, hidx, asUsize_of_nonneg (by omega), hmid]
        rfl
      · rw [if_neg hrem]
        rfl
  · exact zeros_isSome (by omega) _

/-- **A query of a tidy recorder does not fail.** -/
theorem Tidy.tryGet_isSome {r : NoiseRecorder} (h : r.Tidy) (now duration startTime : ℤ) :
    (r.tryGet now duration startTime).isSome = true := by
  have hb := h.bin_pos
  rw [tryGet]
  split
  · rfl
  next hneg =>
  have hnow : 0 ≤ now := by omega
  have hnowBin : timepointToBin r.binSizeMicroseconds now true * r.binSizeMicroseconds ≤ now := by
    rcases eq_or_lt_of_le hnow with rfl | hpos
    · simp [timepointToBin]
    · rw [timepointToBin_end hb hpos]
      have := Int.ediv_mul_le (now - 1) (show r.binSizeMicroseconds ≠ 0 by omega)
      omega
  -- the earliest start is not after `now`
  have hminle : (timepointToBin r.binSizeMicroseconds now true - r.totalWindowBins + 1)
      * r.binSizeMicroseconds ≤ now := by
    refine le_trans (Int.mul_le_mul_of_nonneg_right ?_ (by omega)) hnowBin
    have := h.window_pos
    omega
  simp only [Option.bind_eq_bind]
  generalize hmin : (timepointToBin r.binSizeMicroseconds now true - r.totalWindowBins + 1)
    * r.binSizeMicroseconds = minStart at hminle ⊢
  generalize hvalid : (if startTime = timepointMin then minStart else startTime) = start
  generalize hstop : (if duration ≠ 0 then start + duration else now) = stop
  split
  · rfl
  next hstart =>
  split
  · rfl
  next hdur =>
  split
  next hwin =>
      have hstartle : start ≤ stop := by
        split at hstop
        · omega
        · split at hvalid <;> omega
      have hstople : stop ≤ now := by
        split at hstop <;> omega
      have hcount := timepointToBin_start_le hb hstartle
      have hlast := timepointToBin_end_mono hb hnow hstople
      -- the window starts no earlier than the window of `now`
      have hfirst : timepointToBin r.binSizeMicroseconds now true - r.totalWindowBins + 1
          ≤ timepointToBin r.binSizeMicroseconds start false := by
        refine Int.le_of_mul_le_mul_right ?_ (show 0 < r.binSizeMicroseconds by omega)
        rw [hmin]
        exact hwin
      have hle := h.window_le
      obtain ⟨l, hl⟩ := Option.isSome_iff_exists.mp (h.window_isSome hcount (by omega))
      rw [hl]
      rfl
  · rfl

/-- When `try_get` refuses a query of a positive duration: the bins from its start to `now` are more
than the window, or it ends after `now`. -/
theorem tryGet_refuses_iff {r : NoiseRecorder} (hb : 1 ≤ r.binSizeMicroseconds)
    {now duration startTime : ℤ} (hnow : 0 ≤ now) (hd : 1 ≤ duration)
    (hstart : startTime ≠ timepointMin) :
    r.tryGet now duration startTime = some none ↔
      ¬ (timepointToBin r.binSizeMicroseconds now true - startTime / r.binSizeMicroseconds + 1
          ≤ r.totalWindowBins ∧ startTime + duration ≤ now) := by
  have hb₀ : 0 < r.binSizeMicroseconds := by omega
  have hearly : startTime < (timepointToBin r.binSizeMicroseconds now true - r.totalWindowBins + 1)
      * r.binSizeMicroseconds ↔
      startTime / r.binSizeMicroseconds <
        timepointToBin r.binSizeMicroseconds now true - r.totalWindowBins + 1 :=
    (Int.ediv_lt_iff_lt_mul hb₀).symm
  -- the start of the window is not before the earliest one either
  have hbin : ∀ k, k * r.binSizeMicroseconds ≤ startTime →
      k * r.binSizeMicroseconds ≤ timepointToBin r.binSizeMicroseconds startTime false
        * r.binSizeMicroseconds := by
    intro k hk
    refine Int.mul_le_mul_of_nonneg_right ?_ (by omega)
    have := Int.tdiv_le_tdiv hb₀ hk
    rwa [Int.mul_tdiv_cancel k (by omega), ← timepointToBin_false] at this
  rw [tryGet, if_neg (by omega)]
  simp only [ne_eq, hstart, not_false_eq_true, true_and, if_false, ge_iff_le,
    show ¬ duration = 0 by omega, if_true]
  constructor
  · intro h hin
    rw [if_neg (by omega), if_neg (by omega), if_pos (hbin _ (by omega))] at h
    obtain ⟨l, -, hl⟩ := Option.bind_eq_some_iff.mp h
    cases hl
  · intro hout
    by_cases hfirst : startTime < (timepointToBin r.binSizeMicroseconds now true - r.totalWindowBins
        + 1) * r.binSizeMicroseconds ∨ startTime > now
    · rw [if_pos hfirst]
    · rw [if_neg hfirst, if_pos (by omega)]

/-- **Live bins have slots of their own.** -/
theorem WithinWheel.wheelIndex_inj {r : NoiseRecorder} {now : ℤ} (h : r.WithinWheel now)
    (hr : r.Tidy) {k k' : ℤ} (hk₀ : 0 ≤ k) (hk₀' : 0 ≤ k') (hk : r.oldestServed now ≤ k)
    (hk' : r.oldestServed now ≤ k') (hkM : k ≤ r.maxEndOfReceptionBin)
    (hkM' : k' ≤ r.maxEndOfReceptionBin) (heq : r.wheelIndex k = r.wheelIndex k') : k = k' := by
  unfold WithinWheel at h
  have hslots := hr.fits.slots_eq
  rw [wheelIndex_eq hr.fits hk₀, wheelIndex_eq hr.fits hk₀'] at heq
  have hnn : ∀ x : ℤ, 0 ≤ x % (r.wheel.slots : ℤ) :=
    fun x => Int.emod_nonneg x (by have := hr.fits.slots_pos; omega)
  have hsame : k % (r.wheel.slots : ℤ) = k' % (r.wheel.slots : ℤ) := by
    have h₁ := hnn k
    have h₂ := hnn k'
    omega
  exact eq_of_emod_eq hk (by omega) hk' (by omega) hsame

end NoiseRecorder

end Emane.Noise
