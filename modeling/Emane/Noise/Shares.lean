import Mathlib
import Emane.Lib.Run
import Emane.Noise.SubBandMap

set_option autoImplicit false

/-! # The shares of the sub-bands

The power of a reception is to be spread over the sub-bands it overlaps, in proportion to the overlap.
`frequency_overlap_ratio` builds both frequency ranges from their centre and half their width, so an odd
width loses its last hertz, of a sub-band as well as of the reception.

So the entries are the exact shares if both widths are even, or if the reception lies in one sub-band
and clear of the edges that are lost (`HalvesFit`), and never else (`energyConserved_iff`).
-/

namespace Emane.Noise

open Emane.Lib

/-! ## Overlaps in whole hertz -/

/-- The width of the overlap of `[s, e)` and `[s', e')`. -/
def overlap (s e s' e' : ℕ) : ℕ := min e e' - max s s'

/-- The width `frequency_overlap_ratio` credits to the sub-band of size `b` that starts at `l`, for the
range `[s, e)`: the widths are halved and doubled, and a range inside the sub-band counts as a whole. -/
def credit (b l s e : ℕ) : ℕ :=
  if l ≤ s ∧ s + 2 * ((e - s) / 2) ≤ l + 2 * (b / 2) ∧ s < l + 2 * (b / 2) ∧ l < s + 2 * ((e - s) / 2)
  then e - s
  else overlap l (l + 2 * (b / 2)) s (s + 2 * ((e - s) / 2))

/-- The bin size and the width are even; or the range lies in one sub-band, does not consist of its
first hertz alone, and does not reach its end if the bin size is odd and the width is even or `1`. -/
def HalvesFit (b s e : ℕ) : Prop :=
  2 ∣ b ∧ 2 ∣ e - s ∨
    ∃ k, k * b ≤ s ∧ e ≤ k * b + b ∧ (e = s + 1 → s ≠ k * b) ∧
      (¬ 2 ∣ b → e = k * b + b → ¬ 2 ∣ e - s ∧ e ≠ s + 1)

theorem ratio_eq_credit {b l s e : ℕ} (h : s < e) :
    (frequencyOverlapRatio (l + b / 2) b (s + (e - s) / 2) (e - s)).1 =
      (credit b l s e : ℚ) / ((e - s : ℕ) : ℚ) := by
  have hlower1 : l + b / 2 - b / 2 = l := by omega
  have hlower2 : s + (e - s) / 2 - (e - s) / 2 = s := by omega
  have hwidth : ((e - s : ℕ) : ℚ) ≠ 0 := by
    have : e - s ≠ 0 := by omega
    exact_mod_cast this
  unfold frequencyOverlapRatio credit overlap
  simp only [hlower1, hlower2, gt_iff_lt, ge_iff_le]
  generalize e - s = w at *
  by_cases hin : l ≤ s ∧ s + 2 * (w / 2) ≤ l + 2 * (b / 2) ∧ s < l + 2 * (b / 2) ∧ l < s + 2 * (w / 2)
  · rw [if_pos hin, if_pos (by omega), if_pos hin.1, if_pos (by omega), div_self hwidth]
  · rw [if_neg hin]
    -- in each of the other branches the overlap is the one of the halved ranges
    have hcases (n : ℕ) (hn : n = min (l + 2 * (b / 2)) (s + 2 * (w / 2)) - max l s) :
        (n : ℚ) / (w : ℚ) =
          ((min (l + 2 * (b / 2)) (s + 2 * (w / 2)) - max l s : ℕ) : ℚ) / (w : ℚ) := by rw [hn]
    split_ifs with hmeet hlower hupper hupper
    · omega
    · exact hcases _ (by omega)
    · exact hcases _ (by omega)
    · exact hcases _ (by omega)
    · rw [show min (l + 2 * (b / 2)) (s + 2 * (w / 2)) - max l s = 0 by omega, Nat.cast_zero, zero_div]

/-! ## When the credits are the overlaps -/

theorem credit_even {b l s e : ℕ} (h : s < e) (hb : 2 ∣ b) (hw : 2 ∣ e - s) :
    credit b l s e = overlap l (l + b) s e := by
  unfold credit overlap
  split <;> omega

/-- Outside the only sub-band with an overlap nothing is credited. -/
theorem credit_eq_zero {b l s e : ℕ} (h : s < e) (hout : l + b ≤ s ∨ e ≤ l) : credit b l s e = 0 := by
  unfold credit overlap
  rw [if_neg (by omega)]
  omega

/-- **The credits are the overlaps** in all sub-bands exactly if the halves fit. -/
theorem credit_eq_overlap_iff {b s e bins : ℕ} (hb : 0 < b) (h : s < e) (he : e ≤ bins * b) :
    (∀ k < bins, credit b (k * b) s e = overlap (k * b) (k * b + b) s e) ↔ HalvesFit b s e := by
  constructor
  · intro hall
    have hfirst : s / b < bins := Nat.div_lt_of_lt_mul (by rw [mul_comm]; omega)
    have hlast : (e - 1) / b < bins := Nat.div_lt_of_lt_mul (by rw [mul_comm]; omega)
    have hs : s / b * b ≤ s ∧ s < s / b * b + b := by
      have := Nat.div_add_mod' s b
      have := Nat.mod_lt s hb
      omega
    have he : (e - 1) / b * b ≤ e - 1 ∧ e - 1 < (e - 1) / b * b + b := by
      have := Nat.div_add_mod' (e - 1) b
      have := Nat.mod_lt (e - 1) hb
      omega
    have h₁ := hall _ hfirst
    have h₂ := hall _ hlast
    unfold credit overlap at h₁ h₂
    by_cases hone : e ≤ s / b * b + b
    · -- the range lies in one sub-band: the credit is the whole width
      refine Or.inr ⟨s / b, hs.1, hone, ?_, ?_⟩
      · intro hw hstart
        rw [if_neg (by omega)] at h₁
        omega
      · intro hodd hend
        split at h₁ <;> omega
    · have hmore : s / b * b + b ≤ (e - 1) / b * b := by
        have hlt : s / b < (e - 1) / b := lt_of_mul_lt_mul_right (a := b) (by omega) (Nat.zero_le b)
        rw [← Nat.succ_mul]
        exact Nat.mul_le_mul_right b hlt
      -- the first sub-band shows that its size is even, the last one that the width is
      have heven : 2 ∣ b := by split at h₁ <;> omega
      refine Or.inl ⟨heven, ?_⟩
      rw [if_neg (by omega)] at h₂
      omega
  · rintro (⟨heven, hwidth⟩ | ⟨k₀, hle, hend, hfirst, hlast⟩) k hk
    · exact credit_even h heven hwidth
    · have hnext {i j : ℕ} (hij : i < j) : i * b + b ≤ j * b := by
        rw [← Nat.succ_mul]
        exact Nat.mul_le_mul_right b hij
      rcases lt_trichotomy k k₀ with hlt | rfl | hlt
      · have := hnext hlt
        rw [credit_eq_zero h (Or.inl (by omega)), overlap]
        omega
      · unfold credit overlap
        split <;> omega
      · have := hnext hlt
        rw [credit_eq_zero h (Or.inr (by omega)), overlap]
        omega

theorem credit_le (b l s e : ℕ) : credit b l s e ≤ e - s := by
  unfold credit overlap
  split <;> omega

/-- The overlaps of the first sub-bands of size `b` with `[s, e)` add up. -/
theorem sum_overlap {b d s e : ℕ} (hs : d ≤ s) (bins : ℕ) :
    ∑ k ∈ Finset.range bins, overlap (k * b + d) (k * b + d + b) s e = min e (bins * b + d) - s := by
  induction bins with
  | zero =>
      rw [Finset.range_zero, Finset.sum_empty]
      omega
  | succ bins ih =>
      rw [Finset.sum_range_succ, ih, Nat.succ_mul, overlap]
      omega

namespace NoiseRecorder

/-! ## What the loop makes of the ratios -/

/-- The ratio the loop computes for sub-band `bin`. -/
def ratioAt (r : NoiseRecorder) (startHz endHz bin : ℕ) : ℚ :=
  (frequencyOverlapRatio (bin * r.bandwidthBinSizeHz + r.bandStartFrequencyHz + r.bandwidthBinSizeHz / 2)
    r.bandwidthBinSizeHz (startHz + (endHz - startHz) / 2) (endHz - startHz)).1

theorem ratioAt_eq (r : NoiseRecorder) {startHz endHz : ℕ} (h : startHz < endHz) (bin : ℕ) :
    r.ratioAt startHz endHz bin =
      (credit r.bandwidthBinSizeHz (bin * r.bandwidthBinSizeHz + r.bandStartFrequencyHz) startHz endHz : ℚ)
        / ((endHz - startHz : ℕ) : ℚ) :=
  ratio_eq_credit h

theorem ratioAt_mem (r : NoiseRecorder) {startHz endHz : ℕ} (h : startHz < endHz) (bin : ℕ) :
    0 ≤ r.ratioAt startHz endHz bin ∧ r.ratioAt startHz endHz bin ≤ 1 := by
  rw [r.ratioAt_eq h]
  refine ⟨by positivity, div_le_one_of_le₀ ?_ (Nat.cast_nonneg _)⟩
  exact_mod_cast credit_le _ _ startHz endHz

/-- The entries once the pending run is closed before sub-band `bin`. -/
def closed (st : ApplyState) (bin : ℕ) : List BinPowerApply :=
  st.1 ++ (st.2.map fun pendingStart => ⟨pendingStart, bin - 1, 1⟩).toList

theorem multiplierAt_append (as bs : List BinPowerApply) (j : ℕ) :
    multiplierAt (as ++ bs) j = multiplierAt as j + multiplierAt bs j := by
  induction as with
  | nil => simp [multiplierAt]
  | cons a as ih => rw [List.cons_append, multiplierAt, multiplierAt, ih, add_assoc]

theorem multiplierAt_singleton (first last j : ℕ) (multiplier : ℚ) :
    multiplierAt [⟨first, last, multiplier⟩] j = if first ≤ j ∧ j ≤ last then multiplier else 0 := by
  simp only [multiplierAt, add_zero]
  rfl

/-- **One iteration** adds the ratio of its sub-band, whether the run is closed, goes on or begins. -/
theorem multiplierAt_closed_applyStep (r : NoiseRecorder) {startHz endHz : ℕ} (h : startHz < endHz)
    {st : ApplyState} {bin : ℕ} (hst : ∀ p, st.2 = some p → p < bin) (j : ℕ) :
    multiplierAt (closed (r.applyStep startHz endHz st bin) (bin + 1)) j =
      multiplierAt (closed st bin) j + if j = bin then r.ratioAt startHz endHz bin else 0 := by
  obtain ⟨applies, pending⟩ := st
  have hbounds := r.ratioAt_mem h bin
  -- entries for single sub-bands and for runs that end at `bin`
  have hone (ratio : ℚ) : multiplierAt [⟨bin, bin, ratio⟩] j = if j = bin then ratio else 0 := by
    rw [multiplierAt_singleton]
    exact if_congr (by omega) rfl rfl
  have hgrow {p : ℕ} (hp : p < bin) : multiplierAt [⟨p, bin, 1⟩] j =
      multiplierAt [⟨p, bin - 1, 1⟩] j + if j = bin then 1 else 0 := by
    rw [multiplierAt_singleton, multiplierAt_singleton]
    split_ifs <;> first | omega | norm_num
  generalize hratio : r.ratioAt startHz endHz bin = ratio at *
  unfold ratioAt at hratio
  simp only [applyStep, hratio]
  split
  · cases pending with
    | none => simp [closed, multiplierAt_append, hone]
    | some p =>
        have hcons : (⟨p, bin - 1, 1⟩ :: [⟨bin, bin, ratio⟩] : List BinPowerApply) =
            [⟨p, bin - 1, 1⟩] ++ [⟨bin, bin, ratio⟩] := rfl
        simp only [closed, hcons, Option.map_none, Option.map_some, Option.toList_none,
          Option.toList_some, List.append_nil, multiplierAt_append, hone]
        ring
  · split
    · next hfull =>
        subst hfull
        cases pending with
        | none => simp [closed, multiplierAt_append, hone]
        | some p =>
            simp only [closed, Option.map_some, Option.toList_some, Nat.add_sub_cancel,
              multiplierAt_append, hgrow (hst p rfl)]
            ring
    · next hpart hfull =>
        have hzero : ratio = 0 := by
          by_contra hne
          exact hpart ⟨lt_of_le_of_ne hbounds.1 (Ne.symm hne), lt_of_le_of_ne hbounds.2 hfull⟩
        cases pending with
        | none => simp [closed, hzero]
        | some p => simp [closed, hzero]

/-- The loop over `n` sub-bands from `bin` on adds their ratios. -/
theorem multiplierAt_closed_foldl (r : NoiseRecorder) {startHz endHz : ℕ} (h : startHz < endHz) (n : ℕ)
    {bin : ℕ} {st : ApplyState} (hst : ApplyInv st bin) (j : ℕ) :
    multiplierAt (closed ((List.range' bin n).foldl (r.applyStep startHz endHz) st) (bin + n)) j =
      multiplierAt (closed st bin) j +
        if bin ≤ j ∧ j < bin + n then r.ratioAt startHz endHz j else 0 := by
  induction n generalizing bin st with
  | zero =>
      rw [if_neg (by omega), add_zero, add_zero]
      rfl
  | succ n ih =>
      rw [List.range'_succ, List.foldl_cons, show bin + (n + 1) = bin + 1 + n by omega,
        ih (applyStep_inv r startHz endHz hst),
        r.multiplierAt_closed_applyStep h hst.pending_lt, add_assoc]
      congr 1
      by_cases hj : j = bin
      · rw [if_pos hj, if_neg (by omega), if_pos (by omega), add_zero, hj]
      · rw [if_neg hj, zero_add]
        exact if_congr (by omega) rfl rfl

/-- **The entries of a range** give each of its sub-bands the ratio computed for it. -/
theorem multiplierAt_binPowerApplies (r : NoiseRecorder) {startHz endHz first last : ℕ}
    (h : startHz < endHz) (hle : first ≤ last) (j : ℕ) :
    multiplierAt (r.binPowerApplies startHz endHz first last) j =
      if first ≤ j ∧ j ≤ last then r.ratioAt startHz endHz j else 0 := by
  have hinv : ApplyInv ([], none) first := ⟨List.Pairwise.nil, by simp, by simp, by simp⟩
  have hloop := r.multiplierAt_closed_foldl h (last + 1 - first) hinv j
  have hclosed : r.binPowerApplies startHz endHz first last =
      closed ((List.range' first (last + 1 - first)).foldl (r.applyStep startHz endHz) ([], none))
        (first + (last + 1 - first)) := by
    rw [binPowerApplies, show first + (last + 1 - first) = last + 1 by omega]
    generalize (List.range' first (last + 1 - first)).foldl (r.applyStep startHz endHz) ([], none) = st
    obtain ⟨applies, pending⟩ := st
    cases pending with
    | none => exact (List.append_nil applies).symm
    | some p => rfl
  rw [hclosed, hloop, closed, Option.map_none, Option.toList_none, List.append_nil, multiplierAt,
    zero_add]
  exact if_congr (by omega) rfl rfl

/-! ## The sub-bands of a range -/

/-- The end of the band is the end of its last sub-band. -/
structure Banded (r : NoiseRecorder) : Prop where
  size_pos : 0 < r.bandwidthBinSizeHz
  bins_pos : 0 < r.totalSubBandBins
  end_eq : r.bandEndFrequencyHz + 1 =
    r.totalSubBandBins * r.bandwidthBinSizeHz + r.bandStartFrequencyHz

theorem banded_new (bin maxOffset maxPropagation maxDuration : ℤ) (frequencyHz bandwidthHz : ℕ)
    {bandwidthBinSizeHz : ℕ} (h : 0 < bandwidthBinSizeHz) :
    (new bin maxOffset maxPropagation maxDuration frequencyHz bandwidthHz bandwidthBinSizeHz).Banded := by
  refine ⟨h, ?_, ?_⟩
  · simp only [new, if_pos (show bandwidthBinSizeHz > 0 from h)]
    omega
  · simp only [new, if_pos (show bandwidthBinSizeHz > 0 from h), if_neg h.ne']
    have := Nat.mul_pos (Nat.succ_pos ⌈(bandwidthHz : ℚ) / bandwidthBinSizeHz⌉₊) h
    rw [Nat.succ_eq_add_one] at this
    omega

/-- **The index computation does not underflow**, and the sub-bands it leaves out do not meet the range. -/
theorem subBandRange_spec {r : NoiseRecorder} (hr : r.Banded) {startHz endHz : ℕ}
    (hstart : r.bandStartFrequencyHz ≤ startHz) (h : startHz < endHz)
    (hend : endHz ≤ r.bandEndFrequencyHz + 1) :
    ∃ first last, r.subBandRange startHz endHz = some (first, last) ∧ first ≤ last ∧
      last < r.totalSubBandBins ∧
      ∀ bin < r.totalSubBandBins, ¬ (first ≤ bin ∧ bin ≤ last) →
        bin * r.bandwidthBinSizeHz + r.bandStartFrequencyHz + r.bandwidthBinSizeHz ≤ startHz ∨
          endHz ≤ bin * r.bandwidthBinSizeHz + r.bandStartFrequencyHz := by
  obtain ⟨hb, hbins, hband⟩ := hr
  unfold subBandRange
  generalize r.bandStartFrequencyHz = d at *
  generalize r.bandEndFrequencyHz = bandEnd at *
  generalize r.totalSubBandBins = bins at *
  generalize r.bandwidthBinSizeHz = b at *
  -- the range, measured from the start of the band
  obtain ⟨s, rfl⟩ := Nat.exists_eq_add_of_le' hstart
  obtain ⟨e, rfl⟩ := Nat.exists_eq_add_of_le' (hstart.trans h.le)
  have hfirst : (if s + d > d then (s + d - d) / b else 0) = s / b := by
    rw [Nat.add_sub_cancel]
    split
    · rfl
    · rw [show s = 0 by omega, Nat.zero_div]
  have hbelow {bin : ℕ} (hbin : bin < s / b) : bin * b + d + b ≤ s + d := by
    have := (Nat.le_div_iff_mul_le hb).mp (Nat.succ_le_of_lt hbin)
    rw [Nat.succ_mul] at this
    omega
  have hfirst_lt : s / b < bins := Nat.div_lt_of_lt_mul (by rw [mul_comm]; omega)
  rw [hfirst]
  split
  · next hinside =>
      have hlast_lt : e / b < bins := Nat.div_lt_of_lt_mul (by rw [mul_comm]; omega)
      have habove : (bandEnd - (e + d)) / b = bins - (e / b + 1) := by
        rw [show bandEnd - (e + d) = b * bins - (e + 1) by rw [mul_comm b bins]; omega]
        exact Nat.mul_sub_div e b bins (by rw [mul_comm b bins]; omega)
      dsimp only
      have hnot : ¬ bins - 1 < bins - (e / b + 1) := by
        generalize e / b = q
        omega
      rw [habove, if_neg hnot]
      refine ⟨s / b, _, rfl, ?_, by omega, ?_⟩
      · have := Nat.div_le_div_right (c := b) (show s ≤ e by omega)
        omega
      · intro bin _ hout
        by_cases hbin : bin < s / b
        · exact Or.inl (hbelow hbin)
        · have := (Nat.div_lt_iff_lt_mul hb).mp (show e / b < bin by omega)
          exact Or.inr (by omega)
  · refine ⟨s / b, bins - 1, rfl, by omega, by omega, ?_⟩
    intro bin hbin hout
    exact Or.inl (hbelow (by omega))

/-! ## Conservation -/

/-- The entries spread the power over the band: runs of sub-bands below the number of sub-bands, no two
of which meet, each sub-band with the share of the range that lies in it, and all shares together `1`. -/
structure Conserves (r : NoiseRecorder) (startHz endHz : ℕ) (applies : List BinPowerApply) : Prop where
  fit : AppliesFit applies r.totalSubBandBins
  share : ∀ bin < r.totalSubBandBins, multiplierAt applies bin =
    (overlap (bin * r.bandwidthBinSizeHz + r.bandStartFrequencyHz)
      (bin * r.bandwidthBinSizeHz + r.bandStartFrequencyHz + r.bandwidthBinSizeHz) startHz endHz : ℚ)
        / ((endHz - startHz : ℕ) : ℚ)
  total : ∑ bin ∈ Finset.range r.totalSubBandBins, multiplierAt applies bin = 1

/-- The sub-band part of `update` completes, without an underflow, and stores entries that conserve the
energy. -/
def EnergyConserved (r : NoiseRecorder) (startHz endHz : ℕ) : Prop :=
  ∃ r' first count applies, r.mapSubBands startHz endHz = some (r', first, count) ∧
    r'.findApplies startHz endHz = some applies ∧ r.Conserves startHz endHz applies

/-- Credits and overlaps measured from the start of the band. -/
theorem credit_shift {b l s e d : ℕ} (hs : d ≤ s) (h : s < e) :
    credit b (l + d) s e = credit b l (s - d) (e - d) := by
  obtain ⟨s, rfl⟩ := Nat.exists_eq_add_of_le' hs
  obtain ⟨e, rfl⟩ := Nat.exists_eq_add_of_le' (hs.trans h.le)
  rw [Nat.add_sub_cancel, Nat.add_sub_cancel]
  unfold credit overlap
  rw [Nat.add_sub_add_right]
  split_ifs <;> omega

theorem overlap_shift {b l s e d : ℕ} (hs : d ≤ s) (h : s < e) :
    overlap (l + d) (l + d + b) s e = overlap l (l + b) (s - d) (e - d) := by
  unfold overlap
  omega

section

variable {r : NoiseRecorder} {startHz endHz : ℕ}

/-- The entries conserve the energy exactly if the halves fit. -/
theorem conserves_iff (hr : r.Banded) (hstart : r.bandStartFrequencyHz ≤ startHz) (h : startHz < endHz)
    (hend : endHz ≤ r.bandEndFrequencyHz + 1) {first last : ℕ}
    (hrange : r.subBandRange startHz endHz = some (first, last)) :
    r.Conserves startHz endHz (r.binPowerApplies startHz endHz first last) ↔
      HalvesFit r.bandwidthBinSizeHz (startHz - r.bandStartFrequencyHz)
        (endHz - r.bandStartFrequencyHz) := by
  obtain ⟨first', last', hrange', hle, hlt, hout⟩ := subBandRange_spec hr hstart h hend
  rw [hrange, Option.some.injEq, Prod.mk.injEq] at hrange'
  obtain ⟨rfl, rfl⟩ := hrange'
  have hwidth : ((endHz - startHz : ℕ) : ℚ) ≠ 0 := by
    have : endHz - startHz ≠ 0 := by omega
    exact_mod_cast this
  have hcredit {bin : ℕ} (hbin : bin < r.totalSubBandBins) :
      multiplierAt (r.binPowerApplies startHz endHz first last) bin =
        (credit r.bandwidthBinSizeHz (bin * r.bandwidthBinSizeHz + r.bandStartFrequencyHz) startHz
          endHz : ℚ) / ((endHz - startHz : ℕ) : ℚ) := by
    rw [r.multiplierAt_binPowerApplies h hle]
    split
    · exact r.ratioAt_eq h bin
    · next hnot => rw [credit_eq_zero h (hout bin hbin hnot), Nat.cast_zero, zero_div]
  have hshares : (∀ bin < r.totalSubBandBins,
      multiplierAt (r.binPowerApplies startHz endHz first last) bin =
        (overlap (bin * r.bandwidthBinSizeHz + r.bandStartFrequencyHz)
          (bin * r.bandwidthBinSizeHz + r.bandStartFrequencyHz + r.bandwidthBinSizeHz) startHz
          endHz : ℚ) / ((endHz - startHz : ℕ) : ℚ)) ↔
      HalvesFit r.bandwidthBinSizeHz (startHz - r.bandStartFrequencyHz)
        (endHz - r.bandStartFrequencyHz) := by
    have hinside : endHz - r.bandStartFrequencyHz ≤ r.totalSubBandBins * r.bandwidthBinSizeHz := by
      have := hr.end_eq
      omega
    rw [← credit_eq_overlap_iff hr.size_pos (by omega) hinside]
    refine forall₂_congr fun bin hbin => ?_
    rw [hcredit hbin, div_left_inj' hwidth, Nat.cast_inj, credit_shift hstart h, overlap_shift hstart h]
  refine ⟨fun hc => hshares.mp hc.share, fun hfit => ?_⟩
  have hshare := hshares.mpr hfit
  refine ⟨r.binPowerApplies_fit startHz endHz hle hlt, hshare, ?_⟩
  -- the sub-bands cover the range
  rw [Finset.sum_congr rfl fun bin hbin => hshare bin (Finset.mem_range.mp hbin), ← Finset.sum_div,
    ← Nat.cast_sum, sum_overlap hstart, min_eq_left (by rw [← hr.end_eq]; exact hend),
    div_self hwidth]

end

/-- **Energy conservation.** In every recorder with sub-bands, after any updates, and for every range in
its band: the shares are exact and the energy is conserved if and only if the halves fit. -/
theorem energyConserved_iff (bin maxOffset maxPropagation maxDuration : ℤ)
    (frequencyHz bandwidthHz bandwidthBinSizeHz : ℕ) (hsize : 0 < bandwidthBinSizeHz)
    (calls : List UpdateCall) (r : NoiseRecorder)
    (hrun : runSteps NoiseRecorder.step (new bin maxOffset maxPropagation maxDuration frequencyHz
      bandwidthHz bandwidthBinSizeHz) calls = some r)
    (startHz endHz : ℕ) (hstart : r.bandStartFrequencyHz ≤ startHz) (h : startHz < endHz)
    (hend : endHz ≤ r.bandEndFrequencyHz + 1) :
    r.EnergyConserved startHz endHz ↔
      HalvesFit bandwidthBinSizeHz (startHz - r.bandStartFrequencyHz)
        (endHz - r.bandStartFrequencyHz) := by
  set r₀ := new bin maxOffset maxPropagation maxDuration frequencyHz bandwidthHz bandwidthBinSizeHz
    with hr₀
  have hbanded : r₀.Banded :=
    banded_new bin maxOffset maxPropagation maxDuration frequencyHz bandwidthHz hsize
  have hsame₀ : SameBand r₀ r₀ :=
    ⟨rfl, rfl, rfl, rfl, fun s e applies h => by simp [hr₀, NoiseRecorder.new, findApplies] at h⟩
  have hsame : SameBand r₀ r := runSteps_keeps
    (fun _ _ _ h hstep => h.step hbanded.size_pos hbanded.bins_pos hstep) hsame₀ hrun
  have hr : r.Banded := by
    obtain ⟨h₁, h₂, h₃⟩ := hbanded
    exact ⟨by rwa [hsame.binSizeHz_eq], by rwa [hsame.bins_eq],
      by rwa [hsame.end_eq, hsame.bins_eq, hsame.binSizeHz_eq, hsame.start_eq]⟩
  obtain ⟨first, last, hrange, hle, -, -⟩ := subBandRange_spec hr hstart h hend
  -- no step of the computation fails
  have hsome : (r.mapSubBands startHz endHz).isSome := by
    rw [mapSubBands, if_pos hr.size_pos, hrange]
    simp only [Option.bind_eq_bind, Option.bind_some]
    rw [if_neg (by omega)]
    split
    · rfl
    · rw [if_neg (by omega)]
      rfl
  obtain ⟨⟨r', first', count⟩, hmap⟩ := Option.isSome_iff_exists.mp hsome
  obtain ⟨-, -, hfind, -⟩ := mapSubBands_spec hsame hr.size_pos hr.bins_pos hmap
  have happlies : r₀.rangeApplies startHz endHz = r.binPowerApplies startHz endHz first last := by
    rw [← hsame.rangeApplies_eq, rangeApplies, hrange]
  rw [happlies] at hfind
  have hiff := conserves_iff hr hstart h hend hrange
  rw [show bandwidthBinSizeHz = r.bandwidthBinSizeHz from hsame.binSizeHz_eq.symm, ← hiff]
  constructor
  · rintro ⟨r₁, first₁, count₁, applies, hmap₁, hfind₁, hconserves⟩
    rw [hmap, Option.some.injEq, Prod.mk.injEq] at hmap₁
    rw [← hmap₁.1, hfind, Option.some.injEq] at hfind₁
    rwa [← hfind₁] at hconserves
  · exact fun hconserves => ⟨r', first', count, _, hmap, hfind, hconserves⟩

/-- Sub-bands of 50 Hz and a range of 80 Hz. -/
theorem energyConserved_even :
    EnergyConserved (new 10 10 10 100 1000 100 50) 960 1040 :=
  (energyConserved_iff 10 10 10 100 1000 100 50 (by decide) [] _ rfl 960 1040 (by decide) (by decide)
    (by decide +kernel)).mpr (Or.inl ⟨by decide, by decide⟩)

/-- **Two sub-bands of 25 Hz** that a range fills get 24 / 50 of its power each. -/
theorem energy_not_conserved :
    (((new 10 10 10 100 1000 100 25).mapSubBands 950 1000).bind (·.1.findApplies 950 1000)) =
        some [⟨0, 0, 24 / 50⟩, ⟨1, 1, 24 / 50⟩] ∧
      ¬ EnergyConserved (new 10 10 10 100 1000 100 25) 950 1000 := by
  have hentries : (((new 10 10 10 100 1000 100 25).mapSubBands 950 1000).bind
      (·.1.findApplies 950 1000)) = some [⟨0, 0, 24 / 50⟩, ⟨1, 1, 24 / 50⟩] := by decide +kernel
  refine ⟨hentries, ?_⟩
  rintro ⟨r', first, count, applies, hmap, hfind, hconserves⟩
  rw [hmap, Option.bind_some, hfind, Option.some.injEq] at hentries
  have hshare := hconserves.share 0 (by decide +kernel)
  rw [hentries] at hshare
  revert hshare
  decide +kernel

end NoiseRecorder

end Emane.Noise
