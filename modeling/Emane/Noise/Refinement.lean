import Emane.Noise.Ledger
import Emane.Noise.Merge

set_option autoImplicit false

/-! # The recorder refines the ledger

`Refines` relates a recorder to a history of calls: the stored end-of-reception bins are the
ledger's, and the wheel is either empty with a zero ledger or `Live`: inside the recorded range the
last `slots` bins hold the ledger's energy, above the range the ledger is zero, and below it the
ledger is zero for every bin a query can still ask for. The oldest recorded bin never advances, so
only the newest `slots` bins of the range are claimed.

`Refines.of_recorded` is the step all recorder proofs use: whatever way a reception was recorded
(`Recorded`: a new range, or a merge into the old one), the recorder refines the longer history.
-/

namespace Emane.Noise

open Emane.Lib

/-! ## The stored end-of-reception bins -/

namespace NoiseRecorder

theorem foldl_insertEorBin (antenna : ℕ) (eor : ℤ) :
    ∀ (ts : List ℕ) (map : Std.ExtTreeMap ℕ (Std.ExtTreeMap ℕ ℤ)) (nem a : ℕ),
      ((ts.foldl (insertEorBin antenna eor) map)[nem]?).bind (·[a]?)
        = if nem ∈ ts ∧ antenna = a then some eor else (map[nem]?).bind (·[a]?) := by
  intro ts
  induction ts with
  | nil =>
      intro map nem a
      simp
  | cons t ts ih =>
      intro map nem a
      rw [List.foldl_cons, ih]
      by_cases hmem : nem ∈ ts ∧ antenna = a
      · simp [hmem]
      · rw [if_neg hmem]
        by_cases hnem : t = nem
        · subst hnem
          by_cases ha : antenna = a
          · simp [insertEorBin, ha]
          · cases hrow : map[t]? <;> simp [insertEorBin, ha, hrow, Std.ExtTreeMap.getElem?_insert]
        · have hne : ¬ nem = t := fun h => hnem h.symm
          have : ¬ (nem ∈ t :: ts ∧ antenna = a) := by
            simpa [hne] using hmem
          rw [if_neg this]
          simp [insertEorBin, hnem, Std.ExtTreeMap.getElem?_insert]

/-- The store at the end of `update` puts the call in front of the history. -/
theorem eorBinOf_storeEorBins {r : NoiseRecorder} {history : List UpdateCall}
    (h : ∀ nem a, r.eorBinOf nem a = lastStoredEor r.binSizeMicroseconds history nem a)
    (c : UpdateCall) (nem a : ℕ) :
    (r.storeEorBins c).eorBinOf nem a
      = lastStoredEor r.binSizeMicroseconds (c :: history) nem a := by
  rw [storeEorBins]
  cases hmore : c.isMore with
  | true => simpa [lastStoredEor, hmore] using h nem a
  | false =>
      simp only [eorBinOf, Bool.false_eq_true, if_false, foldl_insertEorBin]
      by_cases hmem : nem ∈ c.transmitters ∧ c.txAntennaIndex = a
      · rw [if_pos hmem]
        simp [lastStoredEor, hmore, hmem.1, hmem.2]
      · rw [if_neg hmem]
        have hskip : (!c.isMore && decide (nem ∈ c.transmitters)
            && decide (c.txAntennaIndex = a)) = false := by
          simpa [hmore] using hmem
        rw [lastStoredEor, List.find?_cons, hskip]
        exact h nem a

theorem foldl_stored (f : ℕ → Option ℤ) :
    ∀ (ts : List ℕ) (x : ℤ),
      ts.foldl (fun stored t =>
        match f t with
        | some eor => if stored < eor then eor else stored
        | none => stored) x = (ts.filterMap f).foldl max x := by
  intro ts
  induction ts with
  | nil =>
      intro x
      rfl
  | cons t ts ih =>
      intro x
      rw [List.foldl_cons, ih]
      cases hf : f t with
      | none => simp [hf]
      | some eor =>
          simp only [List.filterMap_cons, hf, List.foldl_cons]
          congr 1
          split <;> omega

end NoiseRecorder

theorem foldl_max_map_succ (x : ℤ) :
    ∀ (l : List ℤ) (b : ℤ),
      (l.map (· + 1)).foldl max (max x (b + 1)) = max x (l.foldl max b + 1) := by
  intro l
  induction l with
  | nil =>
      intro b
      rfl
  | cons y l ih =>
      intro b
      rw [List.map_cons, List.foldl_cons, List.foldl_cons, ← ih]
      congr 1
      omega

theorem foldl_max_le {B : ℤ} :
    ∀ (l : List ℤ) (x : ℤ), x ≤ B → (∀ y ∈ l, y ≤ B) → l.foldl max x ≤ B := by
  intro l
  induction l with
  | nil =>
      intro x hx _
      exact hx
  | cons y l ih =>
      intro x hx hl
      have hy : y ≤ B := hl y (by simp)
      exact ih (max x y) (by omega) (fun z hz => hl z (by simp [hz]))

theorem le_foldl_max : ∀ (l : List ℤ) (x : ℤ), x ≤ l.foldl max x := by
  intro l
  induction l with
  | nil =>
      intro x
      exact le_rfl
  | cons y l ih =>
      intro x
      exact le_trans (le_max_left x y) (ih (max x y))

theorem le_foldl_max_of_mem {y : ℤ} : ∀ (l : List ℤ) (x : ℤ), y ∈ l → y ≤ l.foldl max x := by
  intro l
  induction l with
  | nil =>
      intro x hy
      exact absurd hy (by simp)
  | cons z l ih =>
      intro x hy
      rcases List.mem_cons.mp hy with rfl | hy
      · exact le_trans (le_max_right x y) (le_foldl_max l (max x y))
      · exact ih (max x z) hy

/-- The adjusted start bin of `update` is the start of the ledger's interval. -/
theorem NoiseRecorder.effectiveStartBin_eq {r : NoiseRecorder} {history : List UpdateCall}
    {c : UpdateCall}
    (h : ∀ nem a, r.eorBinOf nem a = lastStoredEor r.binSizeMicroseconds history nem a)
    (hpos : 1 ≤ c.sorBin r.binSizeMicroseconds) :
    r.effectiveStartBin c = (recordedInterval r.binSizeMicroseconds history c).1 := by
  have hf : (fun t => r.eorBinOf t c.txAntennaIndex)
      = (lastStoredEor r.binSizeMicroseconds history · c.txAntennaIndex) := by
    funext t
    exact h t c.txAntennaIndex
  have hstored : r.storedMaxEorBin c.transmitters c.txAntennaIndex
      = (c.transmitters.filterMap
          (lastStoredEor r.binSizeMicroseconds history · c.txAntennaIndex)).foldl max 0 := by
    rw [← hf]
    exact foldl_stored (fun t => r.eorBinOf t c.txAntennaIndex) c.transmitters 0
  have hmax := foldl_max_map_succ (c.sorBin r.binSizeMicroseconds) (c.transmitters.filterMap
    (lastStoredEor r.binSizeMicroseconds history · c.txAntennaIndex)) 0
  rw [show max (c.sorBin r.binSizeMicroseconds) (0 + 1) = c.sorBin r.binSizeMicroseconds by omega]
    at hmax
  simp only [effectiveStartBin, recordedInterval, hstored, hmax]
  split <;> omega

theorem sorBin_le_recordedInterval (bin : ℤ) (history : List UpdateCall) (c : UpdateCall) :
    c.sorBin bin ≤ (recordedInterval bin history c).1 :=
  le_foldl_max _ _

theorem recordedInterval_le {bin B : ℤ} {history : List UpdateCall} {c : UpdateCall}
    (hsor : c.sorBin bin ≤ B)
    (hstored : ∀ nem a e, lastStoredEor bin history nem a = some e → e + 1 ≤ B) :
    (recordedInterval bin history c).1 ≤ B := by
  refine foldl_max_le _ _ hsor ?_
  intro y hy
  simp only [List.mem_map, List.mem_filterMap] at hy
  obtain ⟨e, ⟨t, -, ht⟩, rfl⟩ := hy
  exact hstored t _ e ht

/-- What `lastStoredEor` can be after one more call. -/
theorem lastStoredEor_cons {bin : ℤ} {c : UpdateCall} {history : List UpdateCall} {nem a : ℕ}
    {e : ℤ} (h : lastStoredEor bin (c :: history) nem a = some e) :
    e = c.eorBin bin ∨ lastStoredEor bin history nem a = some e := by
  rw [lastStoredEor, List.find?_cons] at h
  split at h
  · exact Or.inl (by simpa using h.symm)
  · exact Or.inr h

/-! ## The refinement -/

section

variable (bin o p d : ℤ) (gain : ℕ → UpdateCall → ℚ)

/-- The recorded range of the wheel against the ledger, at time `now`. -/
structure Live (history : List UpdateCall) (now : ℤ) (r : NoiseRecorder) : Prop where
  now_ge : (d + 1) * bin ≤ now
  min_pos : 0 < r.minStartOfReceptionBin
  min_le_max : r.minStartOfReceptionBin ≤ r.maxEndOfReceptionBin
  max_le : r.maxEndOfReceptionBin ≤ (now - 1) / bin + o + p + d
  cells : ∀ k j, j < r.wheel.bins → r.minStartOfReceptionBin ≤ k → k ≤ r.maxEndOfReceptionBin →
    r.maxEndOfReceptionBin - r.wheel.slots < k →
    r.wheel.cellAt k j = energyAt bin (gain j) history k
  above : ∀ k j, r.maxEndOfReceptionBin < k → energyAt bin (gain j) history k = 0
  below : ∀ k j, k < r.minStartOfReceptionBin → (now - 1) / bin - d + 1 ≤ k →
    energyAt bin (gain j) history k = 0

/-- The wheel holds nothing and neither does the ledger. -/
structure Blank (history : List UpdateCall) (r : NoiseRecorder) : Prop where
  max_eq : r.maxEndOfReceptionBin = 0
  min_eq : r.minStartOfReceptionBin = 0
  energy_eq : ∀ k j, energyAt bin (gain j) history k = 0

/-- **The recorder refines the history.** -/
structure Refines (history : List UpdateCall) (now : ℤ) (r : NoiseRecorder) : Prop where
  binSize_eq : r.binSizeMicroseconds = bin
  window_eq : r.totalWindowBins = d
  slots_eq : (r.wheel.slots : ℤ) = o + p + 2 * d
  fits : r.Fits r.wheel
  eor_eq : ∀ nem a, r.eorBinOf nem a = lastStoredEor bin history nem a
  eor_le : ∀ nem a e, lastStoredEor bin history nem a = some e →
    e ≤ max r.maxEndOfReceptionBin (now / bin + o + p - 1)
  range : Blank bin gain history r ∨ Live bin o p d gain history now r

end

namespace NoiseRecorder

/-- The reception starts a new recorded range: the wheel is empty or completely stale. -/
def StartsRange (r : NoiseRecorder) (s : ℤ) : Prop :=
  (r.maxEndOfReceptionBin = 0 ∧ r.minStartOfReceptionBin = 0) ∨
    r.maxEndOfReceptionBin + r.totalWheelBins ≤ s

instance (r : NoiseRecorder) (s : ℤ) : Decidable (r.StartsRange s) :=
  inferInstanceAs (Decidable (_ ∨ _))

/-- The reception of `c` records nothing, starts a new range, or ends at most one wheel after the
newest recorded bin. -/
def GapFits (r : NoiseRecorder) (c : UpdateCall) : Prop :=
  r.effectiveStartBin c ≤ c.eorBin r.binSizeMicroseconds →
    r.StartsRange (r.effectiveStartBin c) ∨
      c.eorBin r.binSizeMicroseconds ≤ r.maxEndOfReceptionBin + r.totalWheelBins

instance (r : NoiseRecorder) (c : UpdateCall) : Decidable (r.GapFits c) :=
  inferInstanceAs (Decidable (_ → _))

/-- `r'` is `r` with the new recorded range `s..=e`. -/
structure Started (r r' : NoiseRecorder) (s e : ℤ) (gain : ℕ → ℚ) : Prop where
  frame : r' = { r with
    wheel := r'.wheel
    minStartOfReceptionBin := s
    maxEndOfReceptionBin := e }
  slots_eq : r'.wheel.slots = r.wheel.slots
  bins_eq : r'.wheel.bins = r.wheel.bins
  cells : ∀ k j, j < r.wheel.bins → s ≤ k → k ≤ e → r'.wheel.cellAt k j = gain j

/-- The two correct outcomes of recording the bins `s..=e`. -/
def Recorded (r r' : NoiseRecorder) (s e : ℤ) (gain : ℕ → ℚ) : Prop :=
  (r.StartsRange s ∧ r.Started r' s e gain) ∨ (¬ r.StartsRange s ∧ r.Merged r' s e gain)

theorem record_of_starts {r : NoiseRecorder} {s : ℤ} (h : r.StartsRange s) (p : Reception) (e : ℤ) :
    r.record p s e = r.recordFirst p s e := by
  rw [record, resetStale]
  by_cases hstale : r.maxEndOfReceptionBin + r.totalWheelBins ≤ s
  · rw [if_pos hstale]
    rfl
  · rw [if_neg hstale]
    rcases h with h | h
    · exact if_pos h
    · exact absurd h hstale

theorem record_of_not_starts {r : NoiseRecorder} {s : ℤ} (h : ¬ r.StartsRange s) (p : Reception)
    (e : ℤ) : r.record p s e = r.recordMerge p s e := by
  rw [StartsRange, not_or] at h
  rw [record, resetStale, if_neg h.2]
  exact if_neg h.1

end NoiseRecorder

namespace Refines

variable {bin o p d now : ℤ} {gain : ℕ → UpdateCall → ℚ} {history : List UpdateCall}
  {r r' : NoiseRecorder} {c : UpdateCall}

/-- The start bin `update` computes is the start of the ledger's interval. -/
theorem effectiveStartBin_eq (h : Refines bin o p d gain history now r) (hb : 1 ≤ bin)
    (hd : 0 < d) (hc : Admissible bin (o * bin) (p * bin) (d * bin) c) :
    r.effectiveStartBin c = (recordedInterval bin history c).1 := by
  have hstored : ∀ nem a, r.eorBinOf nem a
      = lastStoredEor r.binSizeMicroseconds history nem a := by
    rw [h.binSize_eq]
    exact h.eor_eq
  have hpos := (hc.callBins hb).start_pos
  rw [NoiseRecorder.effectiveStartBin_eq hstored (by rw [h.binSize_eq]; omega), h.binSize_eq]

theorem eorBin_eq (h : Refines bin o p d gain history now r) :
    c.eorBin r.binSizeMicroseconds = (recordedInterval bin history c).2 := by
  rw [h.binSize_eq]
  rfl

/-- The interval of an admissible call against the recorded range. -/
structure IntervalBounds (o p d N A M s e : ℤ) : Prop where
  start_ge : N - d + 2 ≤ s
  start_le : s ≤ max (M + 1) (N + o + p)
  start_pos : d + 1 ≤ s
  end_le : e ≤ A + o + p + d
  end_lt : e ≤ max (s - 1) (s + d)
  adjusted_le : A ≤ N
  adjusted_ge : N ≤ A + 1

theorem intervalBounds (h : Refines bin o p d gain history now r) (hb : 1 ≤ bin)
    (hc : Admissible bin (o * bin) (p * bin) (d * bin) c) (hnow : now ≤ c.now) :
    IntervalBounds o p d (c.now / bin) ((c.now - 1) / bin) r.maxEndOfReceptionBin
      (recordedInterval bin history c).1 (recordedInterval bin history c).2 := by
  obtain ⟨h₁, h₂, h₃, h₄, h₅, h₆, h₇, h₈⟩ := hc.callBins hb
  have hN : now / bin ≤ c.now / bin := Int.ediv_le_ediv (by omega) hnow
  have hsor := sorBin_le_recordedInterval bin history c
  have hle : (recordedInterval bin history c).1
      ≤ max (r.maxEndOfReceptionBin + 1) (c.now / bin + o + p) := by
    refine recordedInterval_le (by omega) ?_
    intro nem a e he
    have := h.eor_le nem a e he
    omega
  have he : (recordedInterval bin history c).2 = c.eorBin bin := rfl
  exact ⟨by omega, hle, by omega, by omega, by omega, h₇, h₈⟩

theorem energyAt_cons_of_mem {k : ℤ} {g : UpdateCall → ℚ}
    (h : (recordedInterval bin history c).1 ≤ k ∧ k ≤ (recordedInterval bin history c).2) :
    energyAt bin g (c :: history) k = g c + energyAt bin g history k := by
  rw [energyAt, if_pos h]

theorem energyAt_cons_of_not_mem {k : ℤ} {g : UpdateCall → ℚ}
    (h : ¬ ((recordedInterval bin history c).1 ≤ k ∧ k ≤ (recordedInterval bin history c).2)) :
    energyAt bin g (c :: history) k = energyAt bin g history k := by
  rw [energyAt, if_neg h, zero_add]

section

variable (h : Refines bin o p d gain history now r) (hb : 1 ≤ bin) (hp : 0 < o ∧ 0 < p ∧ 0 < d)
  (hc : Admissible bin (o * bin) (p * bin) (d * bin) c) (hnow : now ≤ c.now)

include h hb hp hc hnow

/-- A new recorded range: everything older has left the query window. -/
theorem live_of_started
    (hse : (recordedInterval bin history c).1 ≤ (recordedInterval bin history c).2)
    (hst : r.StartsRange (recordedInterval bin history c).1)
    (hr : r.Started r' (recordedInterval bin history c).1 (recordedInterval bin history c).2
      (gain · c)) :
    Live bin o p d gain (c :: history) c.now r' := by
  obtain ⟨h₁, h₂, h₃, h₄, h₅, h₆, h₇⟩ := h.intervalBounds hb hc hnow
  have hmin : r'.minStartOfReceptionBin = (recordedInterval bin history c).1 := by rw [hr.frame]
  have hmax : r'.maxEndOfReceptionBin = (recordedInterval bin history c).2 := by rw [hr.frame]
  have hA : (now - 1) / bin ≤ (c.now - 1) / bin := Int.ediv_le_ediv (by omega) (by omega)
  -- the old ledger is zero from the new start on, and below it inside the query window
  have hold : ∀ k j, (c.now - 1) / bin - d + 1 ≤ k → energyAt bin (gain j) history k = 0 := by
    intro k j hk
    rcases h.range with hblank | hlive
    · exact hblank.energy_eq k j
    · have hstale : r.maxEndOfReceptionBin + r.totalWheelBins
          ≤ (recordedInterval bin history c).1 := by
        rcases hst with ⟨hz, -⟩ | hst
        · have := hlive.min_pos
          have := hlive.min_le_max
          omega
        · exact hst
      rw [h.fits.slots_eq, h.slots_eq] at hstale
      exact hlive.above k j (by omega)
  refine ⟨?_, by omega, by omega, by omega, ?_, ?_, ?_⟩
  · have hge := hc.now_ge
    calc (d + 1) * bin = d * bin + bin := by ring
      _ ≤ c.now := hge
  · intro k j hj hk₁ hk₂ _
    rw [hmin] at hk₁
    rw [hmax] at hk₂
    rw [hr.bins_eq] at hj
    rw [hr.cells k j hj hk₁ hk₂, energyAt_cons_of_mem ⟨hk₁, hk₂⟩, hold k j (by omega), add_zero]
  · intro k j hk
    rw [energyAt_cons_of_not_mem (by omega), hold k j (by omega)]
  · intro k j hk hk'
    rw [energyAt_cons_of_not_mem (by omega), hold k j hk']

/-- A merge into the old range. -/
theorem live_of_merged
    (hse : (recordedInterval bin history c).1 ≤ (recordedInterval bin history c).2)
    (hst : ¬ r.StartsRange (recordedInterval bin history c).1)
    (hr : r.Merged r' (recordedInterval bin history c).1 (recordedInterval bin history c).2
      (gain · c)) :
    Live bin o p d gain (c :: history) c.now r' := by
  obtain ⟨h₁, h₂, h₃, h₄, h₅, h₆, h₇⟩ := h.intervalBounds hb hc hnow
  have hlive : Live bin o p d gain history now r := by
    rcases h.range with hblank | hlive
    · exact absurd (Or.inl ⟨hblank.max_eq, hblank.min_eq⟩) hst
    · exact hlive
  obtain ⟨-, hm, hmM, hM, hcells, habove, hbelow⟩ := hlive
  have hmin : r'.minStartOfReceptionBin
      = min r.minStartOfReceptionBin (recordedInterval bin history c).1 := by rw [hr.frame]
  have hmax : r'.maxEndOfReceptionBin
      = max r.maxEndOfReceptionBin (recordedInterval bin history c).2 := by rw [hr.frame]
  have hA : (now - 1) / bin ≤ (c.now - 1) / bin := Int.ediv_le_ediv (by omega) (by omega)
  refine ⟨?_, by omega, by omega, by omega, ?_, ?_, ?_⟩
  · have hge := hc.now_ge
    calc (d + 1) * bin = d * bin + bin := by ring
      _ ≤ c.now := hge
  · intro k j hj hk₁ hk₂ hk₃
    rw [hmin] at hk₁
    rw [hmax] at hk₂ hk₃
    rw [hr.slots_eq] at hk₃
    rw [hr.bins_eq] at hj
    rw [hr.cells k j hj hk₁ hk₂ hk₃, energyAt, add_comm]
    congr 1
    by_cases hin : r.minStartOfReceptionBin ≤ k ∧ k ≤ r.maxEndOfReceptionBin
    · rw [if_pos hin]
      exact hcells k j hj hin.1 hin.2 (by omega)
    · rw [if_neg hin]
      by_cases hlow : k < r.minStartOfReceptionBin
      · exact (hbelow k j hlow (by omega)).symm
      · exact (habove k j (by omega)).symm
  · intro k j hk
    rw [energyAt_cons_of_not_mem (by omega), habove k j (by omega)]
  · intro k j hk hk'
    rw [energyAt_cons_of_not_mem (by omega), hbelow k j (by omega) (by omega)]

omit hp hc in
/-- A call that records nothing. -/
theorem range_of_skipped
    (hse : (recordedInterval bin history c).2 < (recordedInterval bin history c).1) :
    Blank bin gain (c :: history) r ∨ Live bin o p d gain (c :: history) c.now r := by
  have hA : (now - 1) / bin ≤ (c.now - 1) / bin := Int.ediv_le_ediv (by omega) (by omega)
  have henergy : ∀ k j, energyAt bin (gain j) (c :: history) k = energyAt bin (gain j) history k :=
    fun k j => energyAt_cons_of_not_mem (by omega)
  rcases h.range with ⟨h₁, h₂, h₃⟩ | ⟨h₀, h₁, h₂, h₃, h₄, h₅, h₆⟩
  · exact Or.inl ⟨h₁, h₂, fun k j => (henergy k j).trans (h₃ k j)⟩
  · refine Or.inr ⟨le_trans h₀ hnow, h₁, h₂, by omega, ?_, ?_, ?_⟩
    · intro k j hj hk₁ hk₂ hk₃
      rw [henergy]
      exact h₄ k j hj hk₁ hk₂ hk₃
    · intro k j hk
      rw [henergy]
      exact h₅ k j hk
    · intro k j hk hk'
      rw [henergy]
      exact h₆ k j hk (by omega)

omit hp hc in
/-- The step, from what it did to the range. -/
theorem of_range (hframe : r' = { r with
      wheel := r'.wheel
      minStartOfReceptionBin := r'.minStartOfReceptionBin
      maxEndOfReceptionBin := r'.maxEndOfReceptionBin })
    (hslots : r'.wheel.slots = r.wheel.slots) (hbins : r'.wheel.bins = r.wheel.bins)
    (hmax : r.maxEndOfReceptionBin ≤ r'.maxEndOfReceptionBin)
    (hend : c.eorBin bin ≤ max r'.maxEndOfReceptionBin (c.now / bin + o + p - 1))
    (hrange : Blank bin gain (c :: history) r' ∨ Live bin o p d gain (c :: history) c.now r') :
    Refines bin o p d gain (c :: history) c.now (r'.storeEorBins c) := by
  have hN : now / bin ≤ c.now / bin := Int.ediv_le_ediv (by omega) hnow
  have hsize : r'.binSizeMicroseconds = bin := by rw [hframe]; exact h.binSize_eq
  have hstored : ∀ nem a, r'.eorBinOf nem a
      = lastStoredEor r'.binSizeMicroseconds history nem a := by
    rw [hsize, hframe]
    exact h.eor_eq
  have hfits : r'.Fits r'.wheel := by
    obtain ⟨h₁, h₂, h₃, h₄⟩ := h.fits
    rw [← hslots] at h₁ h₂
    rw [← hbins] at h₃ h₄
    rw [hframe]
    exact ⟨h₁, h₂, h₃, h₄⟩
  have hwindow : r'.totalWindowBins = d := by rw [hframe]; exact h.window_eq
  have hwheel : (r'.wheel.slots : ℤ) = o + p + 2 * d := by rw [hslots]; exact h.slots_eq
  have hle : ∀ nem a e, lastStoredEor bin (c :: history) nem a = some e →
      e ≤ max r'.maxEndOfReceptionBin (c.now / bin + o + p - 1) := by
    intro nem a e he
    rcases lastStoredEor_cons he with rfl | he
    · exact hend
    · have := h.eor_le nem a e he
      omega
  have heor := NoiseRecorder.eorBinOf_storeEorBins hstored c
  rw [hsize] at heor
  -- the store touches nothing but the map of end-of-reception bins
  have hstore : ∃ map, r'.storeEorBins c = { r' with nemAntennaIndexEorBinMap := map } := by
    rw [NoiseRecorder.storeEorBins]
    split
    · exact ⟨r'.nemAntennaIndexEorBinMap, rfl⟩
    · exact ⟨_, rfl⟩
  obtain ⟨map, hmap⟩ := hstore
  rw [hmap] at heor ⊢
  refine ⟨hsize, hwindow, hwheel, ⟨hfits.1, hfits.2, hfits.3, hfits.4⟩, heor, hle, ?_⟩
  rcases hrange with hrange | hrange
  · exact Or.inl ⟨hrange.1, hrange.2, hrange.3⟩
  · exact Or.inr ⟨hrange.1, hrange.2, hrange.3, hrange.4, hrange.5, hrange.6, hrange.7⟩

/-- **The step, when bins were recorded.** -/
theorem of_recorded
    (hse : (recordedInterval bin history c).1 ≤ (recordedInterval bin history c).2)
    (hr : r.Recorded r' (recordedInterval bin history c).1 (recordedInterval bin history c).2
      (gain · c)) :
    Refines bin o p d gain (c :: history) c.now (r'.storeEorBins c) := by
  have hbounds := h.intervalBounds hb hc hnow
  have hend : (recordedInterval bin history c).2 = c.eorBin bin := rfl
  rcases hr with ⟨hst, hr⟩ | ⟨hst, hr⟩
  · have hmax : r'.maxEndOfReceptionBin = (recordedInterval bin history c).2 := by rw [hr.frame]
    have hpos := hbounds.start_pos
    have hslots := h.fits.slots_eq
    refine h.of_range hb hnow ?_ hr.slots_eq hr.bins_eq ?_ (by omega)
      (Or.inr (h.live_of_started hb hp hc hnow hse hst hr))
    · rw [hr.frame]
    · rcases hst with ⟨hz, -⟩ | hst <;> omega
  · have hmax : r'.maxEndOfReceptionBin
        = max r.maxEndOfReceptionBin (recordedInterval bin history c).2 := by rw [hr.frame]
    refine h.of_range hb hnow ?_ hr.slots_eq hr.bins_eq (by omega) (by omega)
      (Or.inr (h.live_of_merged hb hp hc hnow hse hst hr))
    rw [hr.frame]

omit hp in
/-- **The step, when nothing was recorded.** -/
theorem of_skipped
    (hse : (recordedInterval bin history c).2 < (recordedInterval bin history c).1) :
    Refines bin o p d gain (c :: history) c.now (r.storeEorBins c) := by
  have hbounds := h.intervalBounds hb hc hnow
  have hend : (recordedInterval bin history c).2 = c.eorBin bin := rfl
  have hle := hbounds.start_le
  exact h.of_range hb hnow rfl rfl rfl le_rfl (by omega) (h.range_of_skipped hb hnow hse)

/-- A reception that does not start a new range reaches the old one. -/
theorem reachable
    (hse : (recordedInterval bin history c).1 ≤ (recordedInterval bin history c).2)
    (hst : ¬ r.StartsRange (recordedInterval bin history c).1) :
    r.Reachable (recordedInterval bin history c).1 (recordedInterval bin history c).2 := by
  obtain ⟨h₁, h₂, h₃, h₄, h₅, h₆, h₇⟩ := h.intervalBounds hb hc hnow
  have hA : (now - 1) / bin ≤ (c.now - 1) / bin := Int.ediv_le_ediv (by omega) (by omega)
  have hslots := h.slots_eq
  rcases h.range with hblank | hlive
  · exact absurd (Or.inl ⟨hblank.max_eq, hblank.min_eq⟩) hst
  · have hmax := hlive.max_le
    rw [NoiseRecorder.StartsRange, not_or, h.fits.slots_eq] at hst
    exact ⟨hlive.min_pos, hlive.min_le_max, by omega, hse, by omega, by omega, by omega⟩

end

/-- **The start**: a new recorder refines the empty history. -/
theorem of_new (hb : 1 ≤ bin) (hp : 0 < o ∧ 0 < p ∧ 0 < d) (frequencyHz bandwidthHz binSizeHz : ℕ) :
    Refines bin o p d gain [] now
      (NoiseRecorder.new bin (o * bin) (p * bin) (d * bin) frequencyHz bandwidthHz binSizeHz) := by
  obtain ⟨ho, hp', hd⟩ := hp
  have hmul : ∀ x : ℤ, 0 < x → 0 < x * bin := fun x hx => Int.mul_pos hx (by omega)
  have hbin : max bin 1 = bin := by omega
  have hO : max (o * bin) 0 = o * bin := max_eq_left (le_of_lt (hmul o ho))
  have hP : max (p * bin) 0 = p * bin := max_eq_left (le_of_lt (hmul p hp'))
  have hD : max (d * bin) bin = d * bin := by
    have : 0 ≤ (d - 1) * bin := Int.mul_nonneg (by omega) (by omega)
    have : (d - 1) * bin = d * bin - bin := by ring
    omega
  have hwheel : (o * bin + p * bin + d * bin * 2).tdiv bin = o + p + 2 * d := by
    rw [show o * bin + p * bin + d * bin * 2 = (o + p + 2 * d) * bin by ring,
      Int.mul_tdiv_cancel _ (by omega)]
  have hwindow : (d * bin).tdiv bin = d := Int.mul_tdiv_cancel _ (by omega)
  have hslots : asUsize (max (o + p + 2 * d) 1) = (o + p + 2 * d).toNat := by
    rw [asUsize_of_nonneg (by omega)]
    congr 1
    omega
  refine ⟨hbin, ?_, ?_, ⟨?_, ?_, rfl, ?_⟩, ?_, ?_, Or.inl ⟨rfl, rfl, fun _ _ => rfl⟩⟩
  · simp only [NoiseRecorder.new, hbin, hD, hwindow]
    omega
  · simp only [NoiseRecorder.new, Wheel.new, hbin, hO, hP, hD, hwheel, hslots]
    omega
  · simp only [NoiseRecorder.new, Wheel.new, hbin, hO, hP, hD, hwheel, hslots]
    omega
  · simp only [NoiseRecorder.new, Wheel.new, hbin, hO, hP, hD, hwheel, hslots]
    omega
  · simp only [NoiseRecorder.new, Wheel.new]
    split <;> omega
  · intro nem a
    simp [NoiseRecorder.new, NoiseRecorder.eorBinOf, lastStoredEor]
  · intro nem a e he
    simp [lastStoredEor] at he

end Refines

end Emane.Noise
