import Emane.Noise.Query

set_option autoImplicit false

/-! # The single-band recorder

A recorder without sub-bands (bandwidth bin size `0`) refines the ledger in every run of admissible
calls in which no merge clears bins it has just written. The merge sets the new bins first and
clears the gap between the old range and the new bins afterwards; when the reception ends more than
one wheel after the newest recorded bin, the slots of the gap are also the slots of its last bins.
`GapFits` excludes exactly this overlap.
-/

namespace Emane.Noise

open Emane.Lib

namespace NoiseRecorder

/-- The recorder has one band. -/
structure SingleBand (r : NoiseRecorder) : Prop where
  binSizeHz_eq : r.bandwidthBinSizeHz = 0
  bins_eq : r.totalSubBandBins = 1

/-- What a single-band `update` hands to `record`. -/
def singleReception (power : ℚ) (applies : List BinPowerApply) : Reception :=
  { power := power, applies := applies, subBandBinStart := 0, subBandBins := 1 }

section

variable {r : NoiseRecorder} {s e : ℤ}

theorem SingleBand.painter (h : r.SingleBand) (power : ℚ) (applies : List BinPowerApply)
    (hs : 0 < s) (hse : s ≤ e) (hlen : e - s + 1 ≤ r.wheel.slots) :
    r.Painter (singleReception power applies) s e (fun _ => power) := by
  have hone : ¬ r.totalSubBandBins > 1 := by rw [h.bins_eq]; omega
  have hB₀ := beforeCount_nonneg (r := r) hse
  have hA₀ := afterCount_nonneg (r := r) hse
  have hB₁ := beforeCount_le (r := r) hse
  have hA₁ := afterCount_le (r := r) hse
  refine ⟨?_, ?_, ?_⟩
  · intro w hw hslots
    rw [recordBefore]
    by_cases hlt : s < r.minStartOfReceptionBin
    · rw [if_pos hlt]
      simp only [if_neg hone, wheelIndex_eq hw (show 0 ≤ s by omega), asUsize_of_nonneg hB₀]
      have := write_all_paints (fun _ => power) hw s
        (show (r.beforeCount s e).toNat ≤ w.slots by omega)
      rw [h.bins_eq] at this
      exact this
    · rw [if_neg hlt, show r.beforeCount s e = 0 by
        have := beforeCount_pos_iff (r := r) hse; omega]
      exact ⟨w, rfl, Wheel.Paints.zero w s _⟩
  · intro w hw hslots
    rw [recordAfter]
    by_cases hlt : e > r.maxEndOfReceptionBin
    · rw [if_pos hlt]
      have hidx := wheelIndex_sub hw (show 0 ≤ s by omega)
        (show (r.afterCount s e).toNat ≤ (e - s + 1).toNat by omega)
      rw [show s + (((e - s + 1).toNat - (r.afterCount s e).toNat : ℕ) : ℤ)
        = e + 1 - r.afterCount s e by omega] at hidx
      simp only [if_neg hone, asUsize_of_nonneg hA₀,
        asUsize_of_nonneg (show 0 ≤ e - s + 1 by omega), hidx]
      have := write_all_paints (fun _ => power) hw (e + 1 - r.afterCount s e)
        (show (r.afterCount s e).toNat ≤ w.slots by omega)
      rw [h.bins_eq] at this
      exact this
    · rw [if_neg hlt, show r.afterCount s e = 0 by
        have := afterCount_pos_iff (r := r) hse; omega]
      exact ⟨w, rfl, Wheel.Paints.zero w _ _⟩
  · intro w hw hslots hpos
    have hW : r.withinCount s e = e - s + 1 - r.beforeCount s e - r.afterCount s e := rfl
    have hidx := wheelIndex_add hw (show 0 ≤ s by omega) (r.beforeCount s e).toNat
    rw [Int.toNat_of_nonneg hB₀] at hidx
    rw [recordWithin]
    simp only [if_neg hone, asUsize_of_nonneg hB₀, asUsize_of_nonneg (le_of_lt hpos), hidx]
    have := write_all_paints (· + power) hw (s + r.beforeCount s e)
      (show (r.withinCount s e).toNat ≤ w.slots by omega)
    rw [h.bins_eq] at this
    exact this

theorem SingleBand.recordFirst_started (h : r.SingleBand) (power : ℚ)
    (applies : List BinPowerApply) (hfit : r.Fits r.wheel) (hs : 0 < s) (hse : s ≤ e)
    (hlen : e - s + 1 ≤ r.wheel.slots) :
    ∃ r', r.recordFirst (singleReception power applies) s e = some r' ∧
      r.Started r' s e (fun _ => power) := by
  have hone : ¬ r.totalSubBandBins > 1 := by rw [h.bins_eq]; omega
  obtain ⟨w', hrun, hp⟩ := write_all_paints (fun _ => power) hfit s
    (show (e - s + 1).toNat ≤ r.wheel.slots by omega)
  rw [h.bins_eq] at hrun
  refine ⟨{ r with wheel := w', minStartOfReceptionBin := s, maxEndOfReceptionBin := e }, ?_, rfl,
    hp.slots_eq, hp.bins_eq, ?_⟩
  · simp only [recordFirst, if_neg hone, wheelIndex_eq hfit (show 0 ≤ s by omega),
      asUsize_of_nonneg (show 0 ≤ e - s + 1 by omega), singleReception, Wheel.set, hrun,
      Option.bind_eq_bind, Option.bind_some]
  · intro k j hj hk₁ hk₂
    show w'.cellAt k j = power
    rw [hp.cellAt_eq s hj le_rfl (by omega) hk₁ (by omega), if_pos ⟨hk₁, by omega⟩]

end

theorem SingleBand.update_eq {r : NoiseRecorder} (h : r.SingleBand) (c : UpdateCall) :
    ∃ applies, r.step c = (if r.effectiveStartBin c ≤ c.eorBin r.binSizeMicroseconds then
        r.record (singleReception c.rxPower applies) (r.effectiveStartBin c)
          (c.eorBin r.binSizeMicroseconds)
      else some r).map (·.storeEorBins c) := by
  refine ⟨(r.findApplies c.startFrequencyHz c.endFrequencyHz).getD [], ?_⟩
  have hmap : r.mapSubBands c.startFrequencyHz c.endFrequencyHz = some (r, 0, 1) := by
    rw [mapSubBands, if_neg (by rw [h.binSizeHz_eq]; omega)]
  rw [step_eq, hmap, Option.bind_some]
  rfl

theorem SingleBand.storeEorBins {r : NoiseRecorder} (h : r.SingleBand) (c : UpdateCall) :
    (r.storeEorBins c).SingleBand := by
  rw [NoiseRecorder.storeEorBins]
  split
  · exact h
  · exact ⟨h.binSizeHz_eq, h.bins_eq⟩

end NoiseRecorder

/-- **The step**: a call whose gap fits keeps the refinement. -/
theorem Refines.singleBand_step {bin o p d now : ℤ} {history : List UpdateCall}
    {r : NoiseRecorder} {c : UpdateCall}
    (h : Refines bin o p d (fun _ c => c.rxPower) history now r) (hr : r.SingleBand)
    (hb : 1 ≤ bin) (hp : 0 < o ∧ 0 < p ∧ 0 < d)
    (hc : Admissible bin (o * bin) (p * bin) (d * bin) c) (hnow : now ≤ c.now)
    (hgap : r.GapFits c) :
    ∃ r', r.step c = some r' ∧ r'.SingleBand ∧
      Refines bin o p d (fun _ c => c.rxPower) (c :: history) c.now r' := by
  have hbounds := h.intervalBounds hb hc hnow
  have hstart := h.effectiveStartBin_eq hb hp.2.2 hc
  have hend := h.eorBin_eq (c := c)
  obtain ⟨applies, hstep⟩ := hr.update_eq c
  rw [NoiseRecorder.GapFits] at hgap
  rw [hstart, hend] at hstep hgap
  by_cases hse : (recordedInterval bin history c).1 ≤ (recordedInterval bin history c).2
  · rw [if_pos hse] at hstep
    have hpos := hbounds.start_pos
    have hslots := h.slots_eq
    have hlt := hbounds.end_lt
    by_cases hst : r.StartsRange (recordedInterval bin history c).1
    · obtain ⟨r', hrun, hr'⟩ := hr.recordFirst_started c.rxPower applies h.fits (by omega) hse (by omega)
      rw [NoiseRecorder.record_of_starts hst, hrun] at hstep
      refine ⟨_, hstep, ?_, h.of_recorded hb hp hc hnow hse (Or.inl ⟨hst, hr'⟩)⟩
      refine NoiseRecorder.SingleBand.storeEorBins ?_ c
      rw [hr'.frame]
      exact ⟨hr.binSizeHz_eq, hr.bins_eq⟩
    · have hreach := h.reachable hb hp hc hnow hse hst
      have hle : (recordedInterval bin history c).2 ≤ r.maxEndOfReceptionBin + r.wheel.slots := by
        have := (hgap hse).resolve_left hst
        rwa [h.fits.slots_eq] at this
      obtain ⟨r', hrun, hr'⟩ := NoiseRecorder.recordMerge_merged h.fits hreach
        (hr.painter c.rxPower applies hreach.start_pos hse hreach.length_le) hle
      rw [NoiseRecorder.record_of_not_starts hst, hrun] at hstep
      refine ⟨_, hstep, ?_, h.of_recorded hb hp hc hnow hse (Or.inr ⟨hst, hr'⟩)⟩
      refine NoiseRecorder.SingleBand.storeEorBins ?_ c
      rw [hr'.frame]
      exact ⟨hr.binSizeHz_eq, hr.bins_eq⟩
  · rw [if_neg hse] at hstep
    exact ⟨_, hstep, hr.storeEorBins c, h.of_skipped hb hc hnow (by omega)⟩

/-- **A single-band recorder refines the energy ledger** in every run of admissible calls with
non-decreasing `now` whose steps all meet `GapFits`: the run does not panic, and the window a later
query returns has an entry for each bin the query asks for, the ledger's energy of the bin. -/
theorem singleBand_refines_ledger {bin maxOffset maxPropagation maxDuration : ℤ}
    (hparams : TimeParameters bin maxOffset maxPropagation maxDuration)
    (frequencyHz bandwidthHz : ℕ) (calls : List UpdateCall)
    (hadm : ∀ c ∈ calls, Admissible bin maxOffset maxPropagation maxDuration c)
    (hnow : calls.Pairwise (fun a b => a.now ≤ b.now))
    (hgap : RunMeets NoiseRecorder.step NoiseRecorder.GapFits
      (NoiseRecorder.new bin maxOffset maxPropagation maxDuration frequencyHz bandwidthHz 0) calls) :
    ∃ r, runSteps NoiseRecorder.step
        (NoiseRecorder.new bin maxOffset maxPropagation maxDuration frequencyHz bandwidthHz 0) calls
          = some r ∧
      ∀ (now' duration startTime t : ℤ) (window : List ℚ), (∀ c ∈ calls, c.now ≤ now') →
        r.tryGet now' duration startTime = some (some (window, t)) →
        ∃ startBin endBin,
          queryBins bin (maxDuration / bin) now' duration startTime = (startBin, endBin) ∧
          t = startBin * bin ∧ (window.length : ℤ) = endBin - startBin + 1 ∧
          ∀ (k : ℕ) (x : ℚ), window[k]? = some x →
            x = energyAt bin (·.rxPower) calls.reverse (startBin + k) := by
  have hb := hparams.bin_pos
  have hd := le_of_lt hparams.duration_pos
  obtain ⟨o, p, d, rfl, rfl, rfl, hp⟩ := hparams.bins
  obtain ⟨r, hrun, hr, hrefines⟩ := run_invariant
    (LegalHistory bin (o * bin) (p * bin) (d * bin))
    (I := fun past r => r.SingleBand ∧
      Refines bin o p d (fun _ c => c.rxPower) past (lastNow past) r)
    (fun c past h => h.tail)
    (fun past c r hlegal hI hgap => hI.2.singleBand_step hI.1 hb hp (hlegal.1 c (by simp))
      (hlegal.lastNow_le hd hb) hgap)
    calls [] _ (legalHistory_reverse hadm hnow)
    ⟨⟨rfl, rfl⟩, Refines.of_new hb hp frequencyHz bandwidthHz 0⟩ hgap
  refine ⟨r, hrun, ?_⟩
  intro now' duration startTime t window hlater hget
  obtain ⟨_, _, hans⟩ := NoiseRecorder.tryGet_answered hget
  obtain ⟨startBin, endBin, hquery, ht, hlen, hentries⟩ := hrefines.tryGet_eq hb hp
    (lastNow_reverse_le hans.now_nonneg hlater) hget
  have hbins : r.wheel.bins = 1 := hrefines.fits.bins_eq.symm.trans hr.bins_eq
  refine ⟨startBin, endBin, ?_, ht, by simpa [hbins] using hlen, ?_⟩
  · rw [Int.mul_ediv_cancel _ (by omega)]
    exact hquery
  · intro k x hx
    have := hentries k 0 x (by omega) (by simpa [hbins] using hx)
    simpa using this

/-- Two overlapping receptions: the query succeeds and reads the ledger. -/
theorem singleBand_refines_ledger_overlap :
    ∃ r, runSteps NoiseRecorder.step (NoiseRecorder.new 10 10 10 100 1000 100 0)
        [receptionAt 1000 20 1 1 950 1050, receptionAt 1010 40 2 2 950 1050] = some r ∧
      r.tryGet 1050 0 1000 = some (some ([1, 3, 2, 2, 2], 1000)) ∧
      ∃ startBin endBin, queryBins 10 (100 / 10) 1050 0 1000 = (startBin, endBin) ∧
        1000 = startBin * 10 ∧ (([1, 3, 2, 2, 2] : List ℚ).length : ℤ) = endBin - startBin + 1 ∧
        ∀ (k : ℕ) (x : ℚ), ([1, 3, 2, 2, 2] : List ℚ)[k]? = some x →
          x = energyAt 10 (·.rxPower)
            [receptionAt 1000 20 1 1 950 1050, receptionAt 1010 40 2 2 950 1050].reverse
            (startBin + k) := by
  have hadm : ∀ c ∈ [receptionAt 1000 20 1 1 950 1050, receptionAt 1010 40 2 2 950 1050],
      Admissible 10 10 10 100 c := by
    intro c hc
    simp only [List.mem_cons, List.not_mem_nil, or_false] at hc
    rcases hc with rfl | rfl <;> exact admissible_receptionAt (by omega) (by omega) (by omega)
      (by omega) (by omega) (by omega)
  obtain ⟨r, hrun, hquery⟩ := singleBand_refines_ledger
    (show TimeParameters 10 10 10 100 by constructor <;> decide) 1000 100
    [receptionAt 1000 20 1 1 950 1050, receptionAt 1010 40 2 2 950 1050] hadm (by decide)
    (by decide +kernel)
  have hget : (runSteps NoiseRecorder.step (NoiseRecorder.new 10 10 10 100 1000 100 0)
      [receptionAt 1000 20 1 1 950 1050, receptionAt 1010 40 2 2 950 1050]).bind
        (·.tryGet 1050 0 1000) = some (some ([1, 3, 2, 2, 2], 1000)) := by decide +kernel
  rw [hrun, Option.bind_some] at hget
  exact ⟨r, hrun, hget, hquery 1050 0 1000 1000 _ (by decide) hget⟩

/-- Two receptions, in bins `100..101` and `120..125` of a wheel of `22` slots: clearing the gap
`102..119` erases bins `124` and `125`, which were just recorded. -/
theorem singleBand_loses_energy :
    (∀ c ∈ [receptionAt 1000 20 1 1 950 1050, receptionAt 1200 60 1 1 950 1050],
      Admissible 10 10 10 100 c) ∧
    (runSteps NoiseRecorder.step (NoiseRecorder.new 10 10 10 100 1000 100 0)
      [receptionAt 1000 20 1 1 950 1050, receptionAt 1200 60 1 1 950 1050]).bind
        (·.tryGet 1260 0 NoiseRecorder.timepointMin)
      = some (some ([0, 0, 0, 0, 1, 1, 1, 1, 0, 0], 1160)) ∧
    (energyAt 10 (·.rxPower) [receptionAt 1000 20 1 1 950 1050,
      receptionAt 1200 60 1 1 950 1050].reverse (116 + 8)) = 1 := by
  refine ⟨?_, by decide +kernel, by decide +kernel⟩
  intro c hc
  simp only [List.mem_cons, List.not_mem_nil, or_false] at hc
  rcases hc with rfl | rfl <;> exact admissible_receptionAt (by omega) (by omega) (by omega)
    (by omega) (by omega) (by omega)

end Emane.Noise
