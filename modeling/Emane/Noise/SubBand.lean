import Emane.Noise.Query
import Emane.Noise.SubBandMap

set_option autoImplicit false

/-! # The recorder with sub-bands

The sub-band copy of the merge sets the whole reception where the single-band copy sets only the new
bins, and a new range sets only the sub-bands the reception touches. So a recorder with sub-bands
refines the ledger in the runs whose steps meet `SubBandFits`: besides `GapFits`, a merge does not
straddle an end of the recorded range, and a new range starts on slots that are clear in the
sub-bands it does not touch.
-/

namespace Emane.Noise

open Emane.Lib

namespace NoiseRecorder

/-- The reception lies inside the recorded range or outside of it, not across one of its ends. -/
def Apart (r : NoiseRecorder) (s e : ℤ) : Prop :=
  ¬ (s < r.minStartOfReceptionBin ∧ r.minStartOfReceptionBin ≤ e) ∧
    ¬ (s ≤ r.maxEndOfReceptionBin ∧ r.maxEndOfReceptionBin < e)

/-- The slots of the bins `s..=e` hold nothing in the sub-bands outside `applies`. -/
def CleanOutside (r : NoiseRecorder) (applies : List BinPowerApply) (s e : ℤ) : Prop :=
  ∀ t < (e - s + 1).toNat, ∀ j < r.wheel.bins,
    ¬ Touches applies j → r.wheel.cellAt (s + (t : ℕ)) j = 0

/-- The condition on a step: if the call records bins, its gap fits, a merge does not straddle the
range, and a new range starts on clean slots. -/
def SubBandFits (r : NoiseRecorder) (c : UpdateCall) : Prop :=
  r.GapFits c ∧
    (r.effectiveStartBin c ≤ c.eorBin r.binSizeMicroseconds →
      (¬ r.StartsRange (r.effectiveStartBin c) →
        r.Apart (r.effectiveStartBin c) (c.eorBin r.binSizeMicroseconds)) ∧
      (r.StartsRange (r.effectiveStartBin c) →
        r.CleanOutside (r.rangeApplies c.startFrequencyHz c.endFrequencyHz)
          (r.effectiveStartBin c) (c.eorBin r.binSizeMicroseconds)))

instance (r : NoiseRecorder) (s e : ℤ) : Decidable (r.Apart s e) :=
  inferInstanceAs (Decidable (_ ∧ _))

instance (r : NoiseRecorder) (applies : List BinPowerApply) (s e : ℤ) :
    Decidable (r.CleanOutside applies s e) :=
  inferInstanceAs (Decidable (∀ t < (e - s + 1).toNat, ∀ j < r.wheel.bins,
    ¬ Touches applies j → r.wheel.cellAt (s + (t : ℕ)) j = 0))

instance (r : NoiseRecorder) (c : UpdateCall) : Decidable (r.SubBandFits c) :=
  inferInstanceAs (Decidable (_ ∧ _))

/-! ## Painting -/

section

variable {r : NoiseRecorder} {q : Reception} {s e : ℤ}

/-- Clearing the reception's bins and then setting its entries gives every sub-band its share. -/
theorem clear_set_paints {w : Wheel} (hw : r.Fits w) (hfit : AppliesFit q.applies w.bins) (hs : 0 ≤ s)
    {n : ℕ} (hn : n ≤ w.slots) :
    ∃ w', (w.set (r.wheelIndex s) n 0 0 r.totalSubBandBins).bind
        (setApplies q (r.wheelIndex s) n) = some w' ∧
      w.Paints w' s n (fun j _ => q.power * multiplierAt q.applies j) := by
  obtain ⟨w₁, hrun₁, hp₁⟩ := write_all_paints (fun _ => 0) hw s hn
  have hn₁ : n ≤ w₁.slots := by rw [hp₁.slots_eq]; exact hn
  obtain ⟨w₂, hrun₂, hp₂⟩ := setApplies_paints q (by rw [hp₁.slots_eq]; exact hw.slots_pos) s hn₁
    (by rw [hp₁.bins_eq]; exact hfit)
  refine ⟨w₂, ?_, (hp₁.trans hp₂).congr ?_⟩
  · rw [wheelIndex_eq hw hs, Wheel.set, hrun₁, Option.bind_some]
    rw [hp₁.slots_eq] at hrun₂
    exact hrun₂
  · intro j v _
    split
    · rfl
    · next h => rw [multiplierAt_of_not_touches h, mul_zero]

/-- A merge that does not straddle the range paints the shares of the sub-bands. -/
theorem subBand_painter (hmany : r.totalSubBandBins > 1) (hfit : AppliesFit q.applies r.wheel.bins)
    (hbins : r.totalSubBandBins = r.wheel.bins) (hr : r.Reachable s e) (hapart : r.Apart s e) :
    r.Painter q s e (fun j => q.power * multiplierAt q.applies j) := by
  obtain ⟨hm, hmM, hs, hse, hlen, hlate, hstale⟩ := hr
  obtain ⟨hmin, hmax⟩ := hapart
  have hfit' : ∀ {w : Wheel}, r.Fits w → AppliesFit q.applies w.bins := by
    intro w hw
    rw [← hw.bins_eq, hbins]
    exact hfit
  refine ⟨?_, ?_, ?_⟩
  · intro w hw hslots
    rw [recordBefore]
    by_cases hlt : s < r.minStartOfReceptionBin
    · have hcount : r.beforeCount s e = e - s + 1 := by
        rw [beforeCount, if_pos hlt, if_pos (by omega)]
      rw [if_pos hlt, hcount]
      simp only [if_pos hmany, asUsize_of_nonneg (show 0 ≤ e - s + 1 by omega)]
      exact clear_set_paints hw (hfit' hw) (by omega) (by omega)
    · rw [if_neg hlt, beforeCount, if_neg hlt]
      exact ⟨w, rfl, Wheel.Paints.zero w s _⟩
  · intro w hw hslots
    rw [recordAfter]
    by_cases hlt : e > r.maxEndOfReceptionBin
    · have hcount : r.afterCount s e = e - s + 1 := by
        rw [afterCount, if_pos hlt, if_pos (by omega)]
      have hidx := wheelIndex_sub hw (show 0 ≤ s by omega) (le_refl (e - s + 1).toNat)
      rw [Nat.sub_self, Int.natCast_zero, add_zero, ← wheelIndex_eq hw (by omega)] at hidx
      rw [if_pos hlt, hcount, show e + 1 - (e - s + 1) = s by omega]
      simp only [if_pos hmany, asUsize_of_nonneg (show 0 ≤ e - s + 1 by omega), hidx]
      exact clear_set_paints hw (hfit' hw) (by omega) (by omega)
    · rw [if_neg hlt, afterCount, if_neg hlt]
      exact ⟨w, rfl, Wheel.Paints.zero w _ _⟩
  · intro w hw hslots hpos
    -- bins inside the range mean that the whole reception is inside
    have hB : r.beforeCount s e = 0 := by
      simp only [withinCount, beforeCount, afterCount] at hpos ⊢
      split_ifs at hpos ⊢ <;> omega
    have hA : r.afterCount s e = 0 := by
      simp only [withinCount, beforeCount, afterCount] at hpos ⊢
      split_ifs at hpos ⊢ <;> omega
    have hcount : r.withinCount s e = e - s + 1 := by
      rw [withinCount, hB, hA]
      omega
    have hidx := wheelIndex_add hw (show 0 ≤ s by omega) 0
    rw [Int.natCast_zero, Int.add_zero] at hidx
    have hn : (e - s + 1).toNat ≤ w.slots := by omega
    rw [recordWithin, hB, hcount, add_zero, asUsize_of_nonneg (le_refl (0 : ℤ)), Int.toNat_zero,
      hidx, asUsize_of_nonneg (show 0 ≤ e - s + 1 by omega), if_pos hmany]
    exact addApplies_paints q hw.slots_pos s hn (hfit' hw)

/-- A new range on clean slots. -/
theorem subBand_recordFirst_started (hmany : r.totalSubBandBins > 1) (hw : r.Fits r.wheel)
    (hfit : AppliesFit q.applies r.wheel.bins) (hs : 0 < s) (hse : s ≤ e)
    (hlen : e - s + 1 ≤ r.wheel.slots) (hclean : r.CleanOutside q.applies s e) :
    ∃ r', r.recordFirst q s e = some r' ∧
      r.Started r' s e (fun j => q.power * multiplierAt q.applies j) := by
  obtain ⟨w', hrun, hp⟩ := setApplies_paints q hw.slots_pos s
    (show (e - s + 1).toNat ≤ r.wheel.slots by omega) hfit
  refine ⟨{ r with wheel := w', minStartOfReceptionBin := s, maxEndOfReceptionBin := e }, ?_, rfl,
    hp.slots_eq, hp.bins_eq, ?_⟩
  · simp only [recordFirst, if_pos hmany, wheelIndex_eq hw (show 0 ≤ s by omega),
      asUsize_of_nonneg (show 0 ≤ e - s + 1 by omega), hrun, Option.bind_eq_bind, Option.bind_some]
  · intro k j hj hk₁ hk₂
    show w'.cellAt k j = _
    rw [hp.cellAt_eq s hj le_rfl (by omega) hk₁ (by omega), if_pos ⟨hk₁, by omega⟩]
    split
    · rfl
    · next h =>
        have hcell := hclean (k - s).toNat (by omega) j hj h
        rw [show s + (((k - s).toNat : ℕ) : ℤ) = k by omega] at hcell
        rw [hcell, multiplierAt_of_not_touches h, mul_zero]

end

/-- The multiplier the band of `r₀` gives sub-band `j` for the frequency range of a call, times the
power of the call. -/
def subBandGain (r₀ : NoiseRecorder) (j : ℕ) (c : UpdateCall) : ℚ :=
  c.rxPower * multiplierAt (r₀.rangeApplies c.startFrequencyHz c.endFrequencyHz) j

/-- The recorder has sub-bands, those of `r₀`. -/
structure SubBands (r₀ r : NoiseRecorder) : Prop where
  sameBand : SameBand r₀ r
  binSizeHz_pos : 0 < r.bandwidthBinSizeHz
  many : r.totalSubBandBins > 1

theorem SubBands.of_frame {r₀ r r' : NoiseRecorder} (h : SubBands r₀ r)
    (hframe : r' = { r with
      wheel := r'.wheel
      minStartOfReceptionBin := r'.minStartOfReceptionBin
      maxEndOfReceptionBin := r'.maxEndOfReceptionBin }) : SubBands r₀ r' := by
  rw [hframe]
  obtain ⟨⟨h₁, h₂, h₃, h₄, h₅⟩, hsize, hmany⟩ := h
  exact ⟨⟨h₁, h₂, h₃, h₄, h₅⟩, hsize, hmany⟩

theorem SubBands.storeEorBins {r₀ r : NoiseRecorder} (h : SubBands r₀ r) (c : UpdateCall) :
    SubBands r₀ (r.storeEorBins c) := by
  rw [NoiseRecorder.storeEorBins]
  split
  · exact h
  · obtain ⟨⟨h₁, h₂, h₃, h₄, h₅⟩, hsize, hmany⟩ := h
    exact ⟨⟨h₁, h₂, h₃, h₄, h₅⟩, hsize, hmany⟩

/-- A step that completes first maps the frequency range, then records. -/
theorem SubBands.step_eq {r₀ r r' : NoiseRecorder} {c : UpdateCall} (h : SubBands r₀ r)
    (hstep : r.step c = some r') :
    ∃ map q, SubBands r₀ { r with binPowerApplyMap := map } ∧
      q.power = c.rxPower ∧
      q.applies = r₀.rangeApplies c.startFrequencyHz c.endFrequencyHz ∧
      AppliesFit q.applies r.totalSubBandBins ∧
      some r' = (if r.effectiveStartBin c ≤ c.eorBin r.binSizeMicroseconds then
        NoiseRecorder.record { r with binPowerApplyMap := map } q (r.effectiveStartBin c)
          (c.eorBin r.binSizeMicroseconds)
      else some { r with binPowerApplyMap := map }).map (·.storeEorBins c) := by
  rw [NoiseRecorder.step_eq] at hstep
  obtain ⟨⟨r₁, b, m⟩, hmap, hrecorded⟩ := Option.bind_eq_some_iff.mp hstep
  obtain ⟨⟨map, rfl⟩, hsame, hfind, hfit⟩ := mapSubBands_spec h.sameBand h.binSizeHz_pos
    (by have := h.many; omega) hmap
  rw [hfind, Option.getD_some] at hrecorded
  exact ⟨map, ⟨c.rxPower, r₀.rangeApplies c.startFrequencyHz c.endFrequencyHz, b, m⟩,
    ⟨hsame, h.binSizeHz_pos, h.many⟩, rfl, rfl, hfit, hrecorded.symm⟩

end NoiseRecorder

open NoiseRecorder

theorem Refines.withMap {bin o p d now : ℤ} {gain : ℕ → UpdateCall → ℚ} {history : List UpdateCall}
    {r : NoiseRecorder} (h : Refines bin o p d gain history now r)
    (map : Std.ExtTreeMap ℕ (Std.ExtTreeMap ℕ (List BinPowerApply))) :
    Refines bin o p d gain history now { r with binPowerApplyMap := map } := by
  obtain ⟨h₁, h₂, h₃, ⟨f₁, f₂, f₃, f₄⟩, h₅, h₆, h₇⟩ := h
  refine ⟨h₁, h₂, h₃, ⟨f₁, f₂, f₃, f₄⟩, h₅, h₆, ?_⟩
  rcases h₇ with h₇ | h₇
  · exact Or.inl ⟨h₇.1, h₇.2, h₇.3⟩
  · exact Or.inr ⟨h₇.1, h₇.2, h₇.3, h₇.4, h₇.5, h₇.6, h₇.7⟩

/-- Recording a reception with the entries of its range keeps the refinement. -/
theorem Refines.subBand_record {bin o p d now : ℤ} {history : List UpdateCall}
    {r₀ r r' : NoiseRecorder} {c : UpdateCall} {q : Reception}
    (h : Refines bin o p d r₀.subBandGain history now r) (hr : SubBands r₀ r)
    (hb : 1 ≤ bin) (hp : 0 < o ∧ 0 < p ∧ 0 < d)
    (hc : Admissible bin (o * bin) (p * bin) (d * bin) c) (hnow : now ≤ c.now)
    (hfits : r.SubBandFits c) (hpower : q.power = c.rxPower)
    (happlies : q.applies = r₀.rangeApplies c.startFrequencyHz c.endFrequencyHz)
    (hfit : AppliesFit q.applies r.totalSubBandBins)
    (hrec : some r' = (if r.effectiveStartBin c ≤ c.eorBin r.binSizeMicroseconds then
        r.record q (r.effectiveStartBin c) (c.eorBin r.binSizeMicroseconds)
      else some r).map (·.storeEorBins c)) :
    SubBands r₀ r' ∧ Refines bin o p d r₀.subBandGain (c :: history) c.now r' := by
  have hbounds := h.intervalBounds hb hc hnow
  have hstart := h.effectiveStartBin_eq hb hp.2.2 hc
  have hend := h.eorBin_eq (c := c)
  obtain ⟨hgap, hrest⟩ := hfits
  rw [NoiseRecorder.GapFits] at hgap
  rw [hstart, hend] at hrec hgap hrest
  rw [hr.sameBand.rangeApplies_eq, ← happlies] at hrest
  have hgain : (fun j => q.power * multiplierAt q.applies j) = (r₀.subBandGain · c) := by
    funext j
    rw [subBandGain, hpower, happlies]
  by_cases hse : (recordedInterval bin history c).1 ≤ (recordedInterval bin history c).2
  · rw [if_pos hse] at hrec
    have hpos := hbounds.start_pos
    have hslots := h.slots_eq
    have hlt := hbounds.end_lt
    have hmany := hr.many
    rw [h.fits.bins_eq] at hfit
    by_cases hst : r.StartsRange (recordedInterval bin history c).1
    · obtain ⟨r₂, hrun, hr₂⟩ := subBand_recordFirst_started hmany h.fits hfit (by omega) hse
        (by omega) ((hrest hse).2 hst)
      rw [hgain] at hr₂
      rw [record_of_starts hst, hrun] at hrec
      obtain rfl : r' = r₂.storeEorBins c := Option.some.inj hrec
      refine ⟨(hr.of_frame ?_).storeEorBins c,
        h.of_recorded hb hp hc hnow hse (Or.inl ⟨hst, hr₂⟩)⟩
      rw [hr₂.frame]
    · have hreach := h.reachable hb hp hc hnow hse hst
      have hle : (recordedInterval bin history c).2 ≤ r.maxEndOfReceptionBin + r.wheel.slots := by
        have := (hgap hse).resolve_left hst
        rwa [h.fits.slots_eq] at this
      obtain ⟨r₂, hrun, hr₂⟩ := recordMerge_merged h.fits hreach
        (subBand_painter hmany hfit h.fits.bins_eq hreach ((hrest hse).1 hst)) hle
      rw [hgain] at hr₂
      rw [record_of_not_starts hst, hrun] at hrec
      obtain rfl : r' = r₂.storeEorBins c := Option.some.inj hrec
      refine ⟨(hr.of_frame ?_).storeEorBins c,
        h.of_recorded hb hp hc hnow hse (Or.inr ⟨hst, hr₂⟩)⟩
      rw [hr₂.frame]
  · rw [if_neg hse] at hrec
    obtain rfl := Option.some.inj hrec
    exact ⟨hr.storeEorBins c, h.of_skipped hb hc hnow (by omega)⟩

/-- **The step**: a call that meets `SubBandFits` and does not panic keeps the refinement. -/
theorem Refines.subBand_step {bin o p d now : ℤ} {history : List UpdateCall}
    {r₀ r r' : NoiseRecorder} {c : UpdateCall}
    (h : Refines bin o p d r₀.subBandGain history now r) (hr : SubBands r₀ r)
    (hb : 1 ≤ bin) (hp : 0 < o ∧ 0 < p ∧ 0 < d)
    (hc : Admissible bin (o * bin) (p * bin) (d * bin) c) (hnow : now ≤ c.now)
    (hfits : r.SubBandFits c) (hstep : r.step c = some r') :
    SubBands r₀ r' ∧ Refines bin o p d r₀.subBandGain (c :: history) c.now r' := by
  obtain ⟨map, q, hr₁, hpower, happlies, hfit, hrec⟩ := hr.step_eq hstep
  exact (h.withMap map).subBand_record hr₁ hb hp hc hnow hfits hpower happlies hfit hrec

/-- **A recorder with sub-bands refines the energy ledger** in every completed run of admissible
calls with non-decreasing `now` whose steps all meet `SubBandFits`: the window a later query returns
has an entry for each bin the query asks for and each sub-band, the ledger's energy there. -/
theorem subBand_refines_ledger {bin maxOffset maxPropagation maxDuration : ℤ}
    (hparams : TimeParameters bin maxOffset maxPropagation maxDuration)
    (frequencyHz bandwidthHz bandwidthBinSizeHz : ℕ) (hsize : 0 < bandwidthBinSizeHz)
    (hband : 0 < bandwidthHz) (calls : List UpdateCall)
    (hadm : ∀ c ∈ calls, Admissible bin maxOffset maxPropagation maxDuration c)
    (hnow : calls.Pairwise (fun a b => a.now ≤ b.now))
    (hfits : RunMeets NoiseRecorder.step NoiseRecorder.SubBandFits
      (NoiseRecorder.new bin maxOffset maxPropagation maxDuration frequencyHz bandwidthHz
        bandwidthBinSizeHz) calls)
    (r : NoiseRecorder)
    (hrun : runSteps NoiseRecorder.step (NoiseRecorder.new bin maxOffset maxPropagation maxDuration
      frequencyHz bandwidthHz bandwidthBinSizeHz) calls = some r)
    (now' duration startTime t : ℤ) (window : List ℚ) (hlater : ∀ c ∈ calls, c.now ≤ now')
    (hget : r.tryGet now' duration startTime = some (some (window, t))) :
    ∃ startBin endBin,
      queryBins bin (maxDuration / bin) now' duration startTime = (startBin, endBin) ∧
      t = startBin * bin ∧
      (window.length : ℤ) = (endBin - startBin + 1) * r.totalSubBandBins ∧
      ∀ (k j : ℕ) (x : ℚ), j < r.totalSubBandBins →
        window[k * r.totalSubBandBins + j]? = some x →
        x = energyAt bin ((NoiseRecorder.new bin maxOffset maxPropagation maxDuration frequencyHz
          bandwidthHz bandwidthBinSizeHz).subBandGain j) calls.reverse (startBin + k) := by
  have hb := hparams.bin_pos
  have hd := le_of_lt hparams.duration_pos
  obtain ⟨o, p, d, rfl, rfl, rfl, hp⟩ := hparams.bins
  set r₀ := NoiseRecorder.new bin (o * bin) (p * bin) (d * bin) frequencyHz bandwidthHz
    bandwidthBinSizeHz with hr₀
  have hmany : r₀.totalSubBandBins > 1 := by
    have hceil : 0 < ⌈(bandwidthHz : ℚ) / bandwidthBinSizeHz⌉₊ :=
      Nat.ceil_pos.mpr (div_pos (by exact_mod_cast hband) (by exact_mod_cast hsize))
    simp only [hr₀, NoiseRecorder.new, if_pos hsize]
    omega
  have hband₀ : SubBands r₀ r₀ :=
    ⟨⟨rfl, rfl, rfl, rfl, fun s e applies h => by simp [hr₀, NoiseRecorder.new, findApplies] at h⟩,
      hsize, hmany⟩
  obtain ⟨-, hrefines⟩ := completed_run_invariant
    (LegalHistory bin (o * bin) (p * bin) (d * bin))
    (I := fun past r => SubBands r₀ r ∧ Refines bin o p d r₀.subBandGain past (lastNow past) r)
    (fun c past h => h.tail)
    (fun past c r r' hlegal hI hfits hstep => hI.2.subBand_step hI.1 hb hp (hlegal.1 c (by simp))
      (hlegal.lastNow_le hd hb) hfits hstep)
    calls [] r₀ r (legalHistory_reverse hadm hnow)
    ⟨hband₀, Refines.of_new hb hp frequencyHz bandwidthHz bandwidthBinSizeHz⟩ hfits hrun
  obtain ⟨_, _, hans⟩ := tryGet_answered hget
  obtain ⟨startBin, endBin, hquery, ht, hlen, hentries⟩ := hrefines.tryGet_eq hb hp
    (lastNow_reverse_le hans.now_nonneg hlater) hget
  rw [← hrefines.fits.bins_eq] at hlen hentries
  refine ⟨startBin, endBin, ?_, ht, hlen, ?_⟩
  · rw [Int.mul_ediv_cancel _ (by omega)]
    exact hquery
  · intro k j x hj hx
    simpa using hentries k j x hj hx

/-- A reception inside an earlier one, on part of its sub-bands: the query reads the ledger. -/
theorem subBand_refines_ledger_nested :
    ∃ r, runSteps NoiseRecorder.step (NoiseRecorder.new 10 10 10 100 1000 100 50)
        [receptionAt 1000 40 1 1 960 1040, receptionAt 1010 20 2 2 950 1000] = some r ∧
      r.tryGet 1040 0 1000 = some (some
        ([1 / 2, 1 / 2, 0, 5 / 2, 1 / 2, 0, 5 / 2, 1 / 2, 0, 1 / 2, 1 / 2, 0], 1000)) ∧
      ∃ startBin endBin, queryBins 10 (100 / 10) 1040 0 1000 = (startBin, endBin) ∧
        1000 = startBin * 10 ∧
        (([1 / 2, 1 / 2, 0, 5 / 2, 1 / 2, 0, 5 / 2, 1 / 2, 0, 1 / 2, 1 / 2, 0] : List ℚ).length : ℤ)
          = (endBin - startBin + 1) * r.totalSubBandBins ∧
        ∀ (k j : ℕ) (x : ℚ), j < r.totalSubBandBins →
          ([1 / 2, 1 / 2, 0, 5 / 2, 1 / 2, 0, 5 / 2, 1 / 2, 0, 1 / 2, 1 / 2, 0] : List ℚ)[
            k * r.totalSubBandBins + j]? = some x →
          x = energyAt 10 ((NoiseRecorder.new 10 10 10 100 1000 100 50).subBandGain j)
            [receptionAt 1000 40 1 1 960 1040, receptionAt 1010 20 2 2 950 1000].reverse
            (startBin + k) := by
  have hadm : ∀ c ∈ [receptionAt 1000 40 1 1 960 1040, receptionAt 1010 20 2 2 950 1000],
      Admissible 10 10 10 100 c := by
    intro c hc
    simp only [List.mem_cons, List.not_mem_nil, or_false] at hc
    rcases hc with rfl | rfl <;> exact admissible_receptionAt (by omega) (by omega) (by omega)
      (by omega) (by omega) (by omega)
  have hget : (runSteps NoiseRecorder.step (NoiseRecorder.new 10 10 10 100 1000 100 50)
      [receptionAt 1000 40 1 1 960 1040, receptionAt 1010 20 2 2 950 1000]).bind
        (·.tryGet 1040 0 1000) = some (some
          ([1 / 2, 1 / 2, 0, 5 / 2, 1 / 2, 0, 5 / 2, 1 / 2, 0, 1 / 2, 1 / 2, 0], 1000)) := by
    decide +kernel
  obtain ⟨r, hrun, hget⟩ := Option.bind_eq_some_iff.mp hget
  exact ⟨r, hrun, hget, subBand_refines_ledger
    (show TimeParameters 10 10 10 100 by constructor <;> decide) 1000 100 50 (by decide) (by decide)
    [receptionAt 1000 40 1 1 960 1040, receptionAt 1010 20 2 2 950 1000] hadm (by decide)
    (by decide +kernel) r hrun 1040 0 1000 1000 _ (by decide) hget⟩

/-- Receptions in bins `100..101` with power `1` and in bins `101..104` with power `2`, both with
half of their power in sub-band `0`: bin `101` reads `2` there, not `1 / 2 + 1`. The second
reception sets the bin and then adds to it. -/
theorem subBand_doubles_energy :
    (∀ c ∈ [receptionAt 1000 20 1 1 960 1040, receptionAt 1010 40 2 2 960 1040],
      Admissible 10 10 10 100 c) ∧
    (runSteps NoiseRecorder.step (NoiseRecorder.new 10 10 10 100 1000 100 50)
      [receptionAt 1000 20 1 1 960 1040, receptionAt 1010 40 2 2 960 1040]).bind
        (·.tryGet 1050 0 1000) = some (some
          ([1 / 2, 1 / 2, 0, 2, 2, 0, 1, 1, 0, 1, 1, 0, 1, 1, 0], 1000)) ∧
    energyAt 10 ((NoiseRecorder.new 10 10 10 100 1000 100 50).subBandGain 0)
      [receptionAt 1000 20 1 1 960 1040, receptionAt 1010 40 2 2 960 1040].reverse (100 + 1)
        = 3 / 2 := by
  refine ⟨?_, by decide +kernel, by decide +kernel⟩
  intro c hc
  simp only [List.mem_cons, List.not_mem_nil, or_false] at hc
  rcases hc with rfl | rfl <;> exact admissible_receptionAt (by omega) (by omega) (by omega)
    (by omega) (by omega) (by omega)

end Emane.Noise
