import Emane.Noise.Paint

set_option autoImplicit false

/-! # The sub-band map

The entries `update` computes for a frequency range are increasing runs of sub-bands of the band
(`binPowerApplies_fit`), and the map of `update` only ever returns what the computation for that
range gives (`SameBand`, `mapSubBands_spec`).
-/

namespace Emane.Noise

namespace NoiseRecorder

/-! ## The entries of a range -/

/-- The loop state before sub-band `bin`: finished runs end before the pending run, which starts
before `bin`. -/
structure ApplyInv (st : ApplyState) (bin : ℕ) : Prop where
  ordered : st.1.Pairwise (fun a b => a.last < b.first)
  first_le : ∀ a ∈ st.1, a.first ≤ a.last
  last_lt : ∀ a ∈ st.1, a.last < st.2.getD bin
  pending_lt : ∀ p, st.2 = some p → p < bin

theorem ApplyInv.push {applies : List BinPowerApply} {bin : ℕ} {a : BinPowerApply}
    (h : ApplyInv (applies, none) bin) (hfirst : bin ≤ a.first) (hle : a.first ≤ a.last) :
    ApplyInv (applies ++ [a], none) (a.last + 1) := by
  have hlt : ∀ b ∈ applies, b.last < bin := h.last_lt
  refine ⟨?_, ?_, ?_, by simp⟩
  · refine List.pairwise_append.mpr ⟨h.ordered, List.pairwise_singleton _ _, ?_⟩
    intro b hb a' ha'
    rw [List.mem_singleton] at ha'
    subst ha'
    exact lt_of_lt_of_le (hlt b hb) hfirst
  · intro b hb
    simp only [List.mem_append, List.mem_singleton] at hb
    rcases hb with hb | rfl
    · exact h.first_le b hb
    · exact hle
  · intro b hb
    simp only [List.mem_append, List.mem_singleton] at hb
    rcases hb with hb | rfl
    · have := hlt b hb
      simp only [Option.getD_none]
      omega
    · simp

/-- Closing the pending run. -/
theorem ApplyInv.close {applies : List BinPowerApply} {bin pending : ℕ}
    (h : ApplyInv (applies, some pending) bin) (multiplier : ℚ) :
    ApplyInv (applies ++ [⟨pending, bin - 1, multiplier⟩], none) bin := by
  have hlt : pending < bin := h.pending_lt pending rfl
  have h' : ApplyInv (applies, none) pending :=
    ⟨h.ordered, h.first_le, h.last_lt, by simp⟩
  have := h'.push (a := ⟨pending, bin - 1, multiplier⟩) le_rfl (by simp only; omega)
  rwa [show bin - 1 + 1 = bin by omega] at this

theorem ApplyInv.skip {applies : List BinPowerApply} {bin bin' : ℕ}
    (h : ApplyInv (applies, none) bin) (hle : bin ≤ bin') : ApplyInv (applies, none) bin' :=
  ⟨h.ordered, h.first_le, fun a ha => lt_of_lt_of_le (h.last_lt a ha) hle, by simp⟩

theorem applyStep_inv (r : NoiseRecorder) (startHz endHz : ℕ) {st : ApplyState} {bin : ℕ}
    (h : ApplyInv st bin) : ApplyInv (r.applyStep startHz endHz st bin) (bin + 1) := by
  obtain ⟨applies, pending⟩ := st
  simp only [applyStep]
  generalize (frequencyOverlapRatio (bin * r.bandwidthBinSizeHz + r.bandStartFrequencyHz
    + r.bandwidthBinSizeHz / 2) r.bandwidthBinSizeHz (startHz + (endHz - startHz) / 2)
    (endHz - startHz)).1 = ratio
  have hpush : ∀ {l : List BinPowerApply}, ApplyInv (l, none) bin →
      ApplyInv (l ++ [⟨bin, bin, ratio⟩], none) (bin + 1) :=
    fun hl => hl.push (a := ⟨bin, bin, ratio⟩) le_rfl le_rfl
  split
  · cases pending with
    | none => exact hpush h
    | some p =>
        have := hpush (h.close 1)
        rwa [List.append_assoc] at this
  · split
    · cases pending with
      | none => exact ⟨h.ordered, h.first_le, h.last_lt, by simp⟩
      | some p =>
          refine ⟨h.ordered, h.first_le, h.last_lt, ?_⟩
          intro q hq
          exact lt_trans (h.pending_lt q hq) (Nat.lt_succ_self bin)
    · cases pending with
      | none => exact h.skip (by omega)
      | some p => exact (h.close 1).skip (by omega)

theorem foldl_applyStep_inv (r : NoiseRecorder) (startHz endHz : ℕ) :
    ∀ (n bin : ℕ) (st : ApplyState), ApplyInv st bin →
      ApplyInv ((List.range' bin n).foldl (r.applyStep startHz endHz) st) (bin + n) := by
  intro n
  induction n with
  | zero =>
      intro bin st h
      exact h
  | succ n ih =>
      intro bin st h
      rw [List.range'_succ, List.foldl_cons, show bin + (n + 1) = bin + 1 + n by omega]
      exact ih (bin + 1) _ (applyStep_inv r startHz endHz h)

/-- **The entries of a range are increasing runs of sub-bands.** -/
theorem binPowerApplies_fit (r : NoiseRecorder) (startHz endHz : ℕ) {first last bins : ℕ}
    (hle : first ≤ last) (hlast : last < bins) :
    AppliesFit (r.binPowerApplies startHz endHz first last) bins := by
  have hinv := foldl_applyStep_inv r startHz endHz (last + 1 - first) first ([], none)
    ⟨List.Pairwise.nil, by simp, by simp, by simp⟩
  rw [show first + (last + 1 - first) = last + 1 by omega] at hinv
  rw [binPowerApplies]
  generalize (List.range' first (last + 1 - first)).foldl (r.applyStep startHz endHz) ([], none)
    = st at hinv
  obtain ⟨applies, pending⟩ := st
  have hfit : ∀ {l : List BinPowerApply}, ApplyInv (l, none) (last + 1) → AppliesFit l bins := by
    intro l h
    refine ⟨h.ordered, h.first_le, ?_⟩
    intro a ha
    have : a.last < last + 1 := h.last_lt a ha
    omega
  cases pending with
  | none => exact hfit hinv
  | some p => exact hfit (hinv.close 1)

theorem subBandRange_lt {r : NoiseRecorder} {startHz endHz first last : ℕ}
    (hpos : 0 < r.totalSubBandBins) (h : r.subBandRange startHz endHz = some (first, last)) :
    last < r.totalSubBandBins := by
  simp only [subBandRange] at h
  generalize (r.bandEndFrequencyHz - endHz) / r.bandwidthBinSizeHz = above at h
  split at h
  · split at h
    · exact absurd h (by simp)
    · simp only [Option.some.injEq, Prod.mk.injEq] at h
      omega
  · simp only [Option.some.injEq, Prod.mk.injEq] at h
    omega

/-! ## The map -/

/-- The entries of a frequency range, computed from the band alone. -/
def rangeApplies (r : NoiseRecorder) (startHz endHz : ℕ) : List BinPowerApply :=
  match r.subBandRange startHz endHz with
  | some (first, last) => r.binPowerApplies startHz endHz first last
  | none => []

/-- `r` works on the band of `r₀`, and its map holds what that band gives. -/
structure SameBand (r₀ r : NoiseRecorder) : Prop where
  binSizeHz_eq : r.bandwidthBinSizeHz = r₀.bandwidthBinSizeHz
  start_eq : r.bandStartFrequencyHz = r₀.bandStartFrequencyHz
  bins_eq : r.totalSubBandBins = r₀.totalSubBandBins
  end_eq : r.bandEndFrequencyHz = r₀.bandEndFrequencyHz
  cached : ∀ startHz endHz applies, r.findApplies startHz endHz = some applies →
    applies = r₀.rangeApplies startHz endHz

theorem SameBand.rangeApplies_eq {r₀ r : NoiseRecorder} (h : SameBand r₀ r) (startHz endHz : ℕ) :
    r.rangeApplies startHz endHz = r₀.rangeApplies startHz endHz := by
  have hstep : r.applyStep startHz endHz = r₀.applyStep startHz endHz := by
    funext st bin
    simp only [applyStep, h.binSizeHz_eq, h.start_eq]
  simp only [rangeApplies, subBandRange, binPowerApplies, hstep, h.binSizeHz_eq, h.start_eq,
    h.bins_eq, h.end_eq]

theorem findApplies_insert (r : NoiseRecorder) (startHz endHz : ℕ) (applies : List BinPowerApply)
    (s e : ℕ) :
    NoiseRecorder.findApplies { r with
      binPowerApplyMap := r.binPowerApplyMap.insert startHz
        (((r.binPowerApplyMap[startHz]?).getD ∅).insert endHz applies) } s e
      = if startHz = s ∧ endHz = e then some applies else r.findApplies s e := by
  simp only [findApplies, Std.ExtTreeMap.getElem?_insert]
  by_cases hs : startHz = s
  · subst hs
    by_cases he : endHz = e
    · simp [he]
    · cases r.binPowerApplyMap[startHz]? <;> simp [he, Std.ExtTreeMap.getElem?_insert]
  · simp [hs]

/-- **The sub-band part of `update`**: it changes nothing but the map, and the map then gives the
entries of the range. -/
theorem mapSubBands_spec {r₀ r r' : NoiseRecorder} {startHz endHz b m : ℕ} (h : SameBand r₀ r)
    (hsize : 0 < r.bandwidthBinSizeHz) (hbins : 0 < r.totalSubBandBins)
    (hmap : r.mapSubBands startHz endHz = some (r', b, m)) :
    (∃ map, r' = { r with binPowerApplyMap := map }) ∧ SameBand r₀ r' ∧
      r'.findApplies startHz endHz = some (r₀.rangeApplies startHz endHz) ∧
      AppliesFit (r₀.rangeApplies startHz endHz) r.totalSubBandBins := by
  rw [mapSubBands, if_pos hsize] at hmap
  simp only [Option.bind_eq_bind] at hmap
  obtain ⟨⟨first, last⟩, hrange, hmap⟩ := Option.bind_eq_some_iff.mp hmap
  simp only at hmap
  split at hmap
  · exact absurd hmap (by simp)
  next hle =>
  have happlies : r.rangeApplies startHz endHz = r.binPowerApplies startHz endHz first last := by
    rw [rangeApplies, hrange]
  have hfit : AppliesFit (r₀.rangeApplies startHz endHz) r.totalSubBandBins := by
    rw [← h.rangeApplies_eq, happlies]
    exact binPowerApplies_fit r startHz endHz (by omega) (subBandRange_lt hbins hrange)
  split at hmap
  next hfound =>
      simp only [Option.some.injEq, Prod.mk.injEq] at hmap
      obtain ⟨rfl, -, -⟩ := hmap
      obtain ⟨applies, happ⟩ := Option.isSome_iff_exists.mp hfound
      exact ⟨⟨_, rfl⟩, h, by rw [happ, h.cached _ _ _ happ], hfit⟩
  next hfound =>
      split at hmap
      · exact absurd hmap (by simp)
      · simp only [Option.some.injEq, Prod.mk.injEq] at hmap
        obtain ⟨rfl, -, -⟩ := hmap
        refine ⟨⟨_, rfl⟩, ⟨h.binSizeHz_eq, h.start_eq, h.bins_eq, h.end_eq, ?_⟩, ?_, hfit⟩
        · intro s e applies happ
          rw [findApplies_insert] at happ
          split at happ
          next heq =>
              obtain ⟨rfl, rfl⟩ := heq
              rw [← Option.some.inj happ, ← happlies, h.rangeApplies_eq]
          next hne => exact h.cached s e applies happ
        · rw [findApplies_insert, if_pos ⟨rfl, rfl⟩, ← happlies, h.rangeApplies_eq]

/-- A recorder keeps its band, and the map goes on to hold what the band gives. -/
theorem SameBand.step {r₀ r r' : NoiseRecorder} {c : UpdateCall} (h : SameBand r₀ r)
    (hsize : 0 < r₀.bandwidthBinSizeHz) (hbins : 0 < r₀.totalSubBandBins)
    (hstep : r.step c = some r') : SameBand r₀ r' := by
  obtain ⟨⟨r₃, sor, eor⟩, hupdate, rfl⟩ := Option.map_eq_some_iff.mp hstep
  obtain ⟨r₁, first, count, r₂, hmap, hrecord, rfl, -, -⟩ := update_cases hupdate
  obtain ⟨-, h₁, -, -⟩ := mapSubBands_spec h (by rw [h.binSizeHz_eq]; exact hsize)
    (by rw [h.bins_eq]; exact hbins) hmap
  have h₂ : SameBand r₀ r₂ := by
    rcases hrecord with ⟨-, hrecord⟩ | ⟨-, rfl⟩
    · obtain ⟨w, minStart, maxEnd, rfl⟩ := record_frame hrecord
      exact ⟨h₁.1, h₁.2, h₁.3, h₁.4, h₁.5⟩
    · exact h₁
  obtain ⟨map, hstore⟩ := storeEorBins_frame r₂ c
  show SameBand r₀ (r₂.storeEorBins c)
  rw [hstore]
  exact ⟨h₂.1, h₂.2, h₂.3, h₂.4, h₂.5⟩

end NoiseRecorder

end Emane.Noise
