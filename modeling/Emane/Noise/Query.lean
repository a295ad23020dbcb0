import Emane.Noise.Refinement

set_option autoImplicit false

/-! # Queries of a refined recorder

`try_get` cuts its window into the part before the recorded range, the part read from the wheel and
the part after the range. For a recorder that refines a history the window it returns is the
ledger, bin by bin and sub-band by sub-band, over the bins the query asks for
(`Refines.tryGet_eq`).
-/

namespace Emane.Noise

/-! ## The bins of a query -/

section

variable (bin windowBins now duration startTime : ℤ)

/-- The time a query reads from: the asked one, or the start of the oldest bin of the window. -/
def queryStart : ℤ :=
  if startTime = NoiseRecorder.timepointMin then
    (timepointToBin bin now true - windowBins + 1) * bin
  else startTime

/-- The time a query reads up to. -/
def queryEnd : ℤ :=
  if duration ≠ 0 then queryStart bin windowBins now startTime + duration else now

/-- The first and the last bin of a query. -/
def queryBins : ℤ × ℤ :=
  (timepointToBin bin (queryStart bin windowBins now startTime) false,
    timepointToBin bin (queryEnd bin windowBins now duration startTime) true)

end

namespace NoiseRecorder

/-! ## The window -/

theorem getElem?_zeros {n bins i : ℕ} (hi : i < n * bins) :
    (List.replicate (n * bins) (0 : ℚ))[i]? = some 0 := by
  rw [List.getElem?_replicate, if_pos hi]

theorem row_lt {n bins k j : ℕ} (hk : k < n) (hj : j < bins) : k * bins + j < n * bins := by
  calc k * bins + j < k * bins + bins := by omega
    _ = (k + 1) * bins := by ring
    _ ≤ n * bins := Nat.mul_le_mul_right _ hk

/-- Rows `0 .. a` of a list of rows come from its first part, the others from its second. -/
theorem getElem?_append_row {l₁ l₂ : List ℚ} {a bins k j : ℕ} (hlen : l₁.length = a * bins)
    (hj : j < bins) :
    (l₁ ++ l₂)[k * bins + j]?
      = if k < a then l₁[k * bins + j]? else l₂[(k - a) * bins + j]? := by
  by_cases hk : k < a
  · rw [if_pos hk, List.getElem?_append_left (by rw [hlen]; exact row_lt hk hj)]
  · obtain ⟨u, rfl⟩ : ∃ u, k = a + u := ⟨k - a, by omega⟩
    have hge : a * bins ≤ (a + u) * bins + j :=
      le_trans (Nat.mul_le_mul_right _ (Nat.le_add_right a u)) (Nat.le_add_right _ _)
    have hsub : (a + u) * bins + j - a * bins = (a + u - a) * bins + j := by
      rw [Nat.add_mul, Nat.add_sub_cancel_left]
      omega
    rw [if_neg hk, List.getElem?_append_right (by rw [hlen]; exact hge), hlen, hsub]

/-- **The window of a live recorder**: the wheel inside the recorded range, zero outside. -/
theorem window_eq {r : NoiseRecorder} (hfit : r.Fits r.wheel) {a b : ℤ}
    (hm : 0 < r.minStartOfReceptionBin) (hmM : r.minStartOfReceptionBin ≤ r.maxEndOfReceptionBin)
    (ha : 0 < a) (hab : a ≤ b + 1) (hlen : b - a + 1 ≤ r.wheel.slots) :
    ∃ l, r.window a b = some l ∧ l.length = (b - a + 1).toNat * r.wheel.bins ∧
      ∀ k j : ℕ, (k : ℤ) < b - a + 1 → j < r.wheel.bins →
        l[k * r.wheel.bins + j]? = some
          (if r.minStartOfReceptionBin ≤ a + k ∧ a + k ≤ r.maxEndOfReceptionBin then
            r.wheel.cellAt (a + k) j else 0) := by
  set m := r.minStartOfReceptionBin with hmdef
  set M := r.maxEndOfReceptionBin with hMdef
  set after := if b > M then min (b - M) (b - a + 1) else 0 with hafter
  set before := if a < m then min (m - a) (b - a + 1) else 0 with hbefore
  set remainder := b - a + 1 - (before + after) with hrem
  have hafter₀ : 0 ≤ after ∧ after ≤ b - a + 1 := by
    rw [hafter]; split <;> omega
  have hbefore₀ : 0 ≤ before ∧ before ≤ b - a + 1 := by
    rw [hbefore]; split <;> omega
  have hrem₀ : 0 ≤ remainder := by
    rw [hrem, hafter, hbefore]; split <;> split <;> omega
  -- the part read from the wheel
  obtain ⟨mid, hmid, hmidlen, hcells⟩ : ∃ mid : List ℚ,
      (if remainder > 0 then
        r.wheel.get (asUsize ((b - after).tmod r.totalWheelBins)) (asUsize remainder)
      else some []) = some mid ∧ mid.length = remainder.toNat * r.wheel.bins ∧
      ∀ t j : ℕ, t < remainder.toNat → j < r.wheel.bins →
        mid[t * r.wheel.bins + j]? = some (r.wheel.cellAt (a + before + t) j) := by
    by_cases hpos : remainder > 0
    · obtain ⟨l, hl, hlen', hget⟩ := Wheel.get_getElem? (w := r.wheel) (k := b - after)
        (n := remainder.toNat) (by omega) (by omega)
      refine ⟨l, ?_, hlen', ?_⟩
      · have hnn : 0 ≤ (b - after) % (r.wheel.slots : ℤ) :=
          Int.emod_nonneg _ (by have := hfit.slots_pos; omega)
        rw [if_pos hpos, hfit.slots_eq, Int.tmod_eq_emod_of_nonneg (by omega),
          asUsize_of_nonneg hnn, asUsize_of_nonneg hrem₀]
        exact hl
      · intro t j ht hj
        rw [hget t j ht hj]
        congr 2
        omega
    · refine ⟨[], if_neg hpos, ?_, ?_⟩
      · rw [show remainder.toNat = 0 by omega, Nat.zero_mul]
        rfl
      · intro t j ht
        omega
  refine ⟨List.replicate (before.toNat * r.wheel.bins) 0 ++ mid
    ++ List.replicate (after.toNat * r.wheel.bins) 0, ?_, ?_, ?_⟩
  · have hlive : r.maxEndOfReceptionBin ≠ 0 ∧ r.minStartOfReceptionBin ≠ 0 :=
      ⟨by omega, by omega⟩
    have hzb : zeros before r.totalSubBandBins
        = some (List.replicate (before.toNat * r.wheel.bins) 0) := by
      rw [zeros, if_neg (by omega), hfit.bins_eq]
    have hza : zeros after r.totalSubBandBins
        = some (List.replicate (after.toNat * r.wheel.bins) 0) := by
      rw [zeros, if_neg (by omega), hfit.bins_eq]
    rw [window, if_pos hlive]
    simp only [← hmdef, ← hMdef, ← hafter, ← hbefore, ← hrem, hzb, hza, Option.bind_eq_bind,
      Option.bind_some]
    by_cases hpos : remainder > 0
    · rw [if_pos hpos] at hmid ⊢
      rw [hmid, Option.bind_some]
    · rw [if_neg hpos] at hmid ⊢
      rw [Option.some.inj hmid]
  · rw [List.length_append, List.length_append, List.length_replicate, List.length_replicate,
      hmidlen, ← Nat.add_mul, ← Nat.add_mul]
    congr 1
    omega
  · intro k j hk hj
    have hlen₁ : (List.replicate (before.toNat * r.wheel.bins) (0 : ℚ)).length
        = before.toNat * r.wheel.bins := List.length_replicate
    have hlen₂ : (List.replicate (before.toNat * r.wheel.bins) (0 : ℚ) ++ mid).length
        = (before.toNat + remainder.toNat) * r.wheel.bins := by
      rw [List.length_append, hlen₁, hmidlen, ← Nat.add_mul]
    rw [getElem?_append_row hlen₂ hj, getElem?_append_row hlen₁ hj]
    by_cases hkr : k < before.toNat + remainder.toNat
    · rw [if_pos hkr]
      by_cases hkb : k < before.toNat
      · have hout : ¬ (m ≤ a + k ∧ a + k ≤ M) := by
          rw [hbefore] at hkb
          split at hkb <;> omega
        rw [if_pos hkb, if_neg hout, getElem?_zeros (row_lt hkb hj)]
      · have hin : m ≤ a + k ∧ a + k ≤ M := by
          rw [hrem] at hkr
          rw [hbefore] at hkb hkr
          rw [hafter] at hkr
          split_ifs at hkb hkr <;> omega
        rw [if_neg hkb, if_pos hin, hcells (k - before.toNat) j (by omega) hj]
        congr 2
        omega
    · have hout : ¬ (m ≤ a + k ∧ a + k ≤ M) := by
        rw [hrem, hbefore, hafter] at hkr
        split_ifs at hkr <;> omega
      rw [if_neg hkr, if_neg hout, getElem?_zeros (row_lt (by omega) hj)]

/-- The window of an empty recorder is zero. -/
theorem window_blank {r : NoiseRecorder} (hM : r.maxEndOfReceptionBin = 0) {a b : ℤ} {l : List ℚ}
    (h : r.window a b = some l) :
    (l.length : ℤ) = (b - a + 1) * r.totalSubBandBins ∧ ∀ x ∈ l, x = 0 := by
  rw [window, if_neg (fun hc => hc.1 hM), zeros] at h
  split at h
  · exact absurd h (by simp)
  · rw [← Option.some.inj h]
    constructor
    · rw [List.length_replicate, Nat.cast_mul, Int.toNat_of_nonneg (by omega)]
    · intro x hx
      exact List.eq_of_mem_replicate hx

/-! ## The query -/

/-- What a successful query asked for. -/
structure Answered (r : NoiseRecorder) (now duration startTime : ℤ) (l : List ℚ) (t a b : ℤ) :
    Prop where
  now_nonneg : 0 ≤ now
  window_eq : r.window a b = some l
  time_eq : t = a * r.binSizeMicroseconds
  start_ge : (timepointToBin r.binSizeMicroseconds now true - r.totalWindowBins + 1)
    * r.binSizeMicroseconds ≤ a * r.binSizeMicroseconds
  bins_eq : queryBins r.binSizeMicroseconds r.totalWindowBins now duration startTime = (a, b)
  end_le : queryEnd r.binSizeMicroseconds r.totalWindowBins now duration startTime ≤ now
  start_le : queryStart r.binSizeMicroseconds r.totalWindowBins now startTime
      ≤ queryEnd r.binSizeMicroseconds r.totalWindowBins now duration startTime ∨
    (queryEnd r.binSizeMicroseconds r.totalWindowBins now duration startTime = now ∧
      queryStart r.binSizeMicroseconds r.totalWindowBins now startTime
        = (timepointToBin r.binSizeMicroseconds now true - r.totalWindowBins + 1)
          * r.binSizeMicroseconds)

theorem tryGet_answered {r : NoiseRecorder} {now duration startTime t : ℤ} {l : List ℚ}
    (h : r.tryGet now duration startTime = some (some (l, t))) :
    ∃ a b, r.Answered now duration startTime l t a b := by
  rw [tryGet] at h
  split at h
  · exact absurd h (by simp)
  next hneg =>
  simp only [Option.bind_eq_bind] at h
  generalize hmin : (timepointToBin r.binSizeMicroseconds now true - r.totalWindowBins + 1)
    * r.binSizeMicroseconds = minStart at h
  generalize hvalid : (if startTime = timepointMin then minStart else startTime) = start at h
  generalize hstop : (if duration ≠ 0 then start + duration else now) = stop at h
  have hqueryStart : queryStart r.binSizeMicroseconds r.totalWindowBins now startTime = start := by
    rw [queryStart, hmin, hvalid]
  have hqueryEnd :
      queryEnd r.binSizeMicroseconds r.totalWindowBins now duration startTime = stop := by
    rw [queryEnd, hqueryStart, hstop]
  split at h
  · exact absurd h (by simp)
  next hstart =>
  split at h
  · exact absurd h (by simp)
  next hdur =>
  split at h
  next hwin =>
      obtain ⟨w, hw, hwl⟩ := Option.bind_eq_some_iff.mp h
      simp only [Option.some.injEq, Prod.mk.injEq] at hwl
      obtain ⟨rfl, rfl⟩ := hwl
      refine ⟨_, _, by omega, hw, rfl, by rw [hmin]; exact hwin, ?_, ?_, ?_⟩
      · rw [queryBins, hqueryStart, hqueryEnd]
      · rw [hqueryEnd]
        split at hstop <;> omega
      · rw [hqueryStart, hqueryEnd, hmin]
        split at hstop
        · left
          omega
        · split at hvalid
          · exact Or.inr ⟨hstop.symm, hvalid.symm⟩
          · left
            omega
  · exact absurd h (by simp)

end NoiseRecorder

namespace Refines

variable {bin o p d now : ℤ} {gain : ℕ → UpdateCall → ℚ} {history : List UpdateCall}
  {r : NoiseRecorder}

/-- The bins of an answered query of a live recorder lie in the query window. -/
theorem answered_bins (h : Refines bin o p d gain history now r) (hb : 1 ≤ bin) (hd : 0 < d)
    {now' duration startTime : ℤ} (hnow' : (d + 1) * bin ≤ now') {l : List ℚ} {t a b : ℤ}
    (ha : r.Answered now' duration startTime l t a b) :
    (now' - 1) / bin - d + 1 ≤ a ∧ 0 < a ∧ a ≤ b + 1 ∧ b ≤ (now' - 1) / bin := by
  obtain ⟨-, -, -, hge, hbins, hle, hss⟩ := ha
  simp only [queryBins, Prod.mk.injEq] at hbins
  obtain ⟨hstart, hstop⟩ := hbins
  generalize queryStart r.binSizeMicroseconds r.totalWindowBins now' startTime = start at hstart hss
  generalize queryEnd r.binSizeMicroseconds r.totalWindowBins now' duration startTime = stop
    at hstop hle hss
  have hb₀ : 0 < bin := by omega
  have hpos : 0 < (d + 1) * bin := Int.mul_pos (by omega) hb₀
  rw [h.binSize_eq, timepointToBin_end hb (by omega), h.window_eq] at hge hss
  rw [h.binSize_eq] at hstart hstop
  have ha₁ : (now' - 1) / bin - d + 1 ≤ a := Int.le_of_mul_le_mul_right hge hb₀
  have hA : d ≤ (now' - 1) / bin := by
    refine Int.le_ediv_of_mul_le hb₀ ?_
    have : (d + 1) * bin = d * bin + bin := by ring
    omega
  have hstart₀ : 0 < start := by
    by_contra hneg
    have htdiv : start.tdiv bin ≤ 0 := by
      have := Int.tdiv_le_tdiv hb₀ (show start ≤ 0 by omega)
      rwa [Int.zero_tdiv] at this
    have hbin : timepointToBin bin start false ≤ 0 := by
      rw [timepointToBin]
      split
      · exact le_rfl
      · simpa using htdiv
    omega
  rw [timepointToBin_start hstart₀] at hstart
  have hmono : ∀ {x y : ℤ}, x ≤ y → x / bin ≤ y / bin := fun h => Int.ediv_le_ediv hb₀ h
  have hone : start / bin - 1 ≤ (start - 1) / bin := by
    have h' := hmono (show start + (-1) * bin ≤ start - 1 by omega)
    rw [Int.add_mul_ediv_right _ _ (by omega)] at h'
    omega
  have hstop₀ : start ≤ stop := by
    rcases hss with hss | ⟨rfl, hss⟩
    · exact hss
    · have hmul : (stop - 1) / bin * bin ≤ stop - 1 := Int.ediv_mul_le _ (by omega)
      have hd' : 0 ≤ (d - 1) * bin := Int.mul_nonneg (by omega) (by omega)
      have hexp : ((stop - 1) / bin - d + 1) * bin
          = (stop - 1) / bin * bin - (d - 1) * bin := by ring
      omega
  rw [timepointToBin_end hb (by omega)] at hstop
  have h₁ := hmono (show stop - 1 ≤ now' - 1 by omega)
  have h₂ := hmono (show start - 1 ≤ stop - 1 by omega)
  exact ⟨ha₁, by omega, by omega, by omega⟩

/-- **A query reads the ledger**, over the bins it asks for. -/
theorem tryGet_eq (h : Refines bin o p d gain history now r) (hb : 1 ≤ bin)
    (hp : 0 < o ∧ 0 < p ∧ 0 < d) {now' duration startTime t : ℤ} {l : List ℚ} (hnow : now ≤ now')
    (hget : r.tryGet now' duration startTime = some (some (l, t))) :
    ∃ a b, queryBins bin d now' duration startTime = (a, b) ∧ t = a * bin ∧
      (l.length : ℤ) = (b - a + 1) * r.wheel.bins ∧
      ∀ (k j : ℕ) (x : ℚ), j < r.wheel.bins → l[k * r.wheel.bins + j]? = some x →
        x = energyAt bin (gain j) history (a + k) := by
  obtain ⟨a, b, hans⟩ := NoiseRecorder.tryGet_answered hget
  refine ⟨a, b, ?_, ?_, ?_⟩
  · rw [← h.binSize_eq, ← h.window_eq]
    exact hans.bins_eq
  · rw [← h.binSize_eq]
    exact hans.time_eq
  · rcases h.range with hblank | hlive
    · obtain ⟨hlen, hzero⟩ := NoiseRecorder.window_blank hblank.max_eq hans.window_eq
      refine ⟨by rw [hlen, h.fits.bins_eq], ?_⟩
      intro k j x hj hx
      rw [hblank.energy_eq]
      exact hzero x (List.mem_of_getElem? hx)
    · obtain ⟨ha₁, ha₀, hab, hbA⟩ := h.answered_bins hb hp.2.2 (le_trans hlive.now_ge hnow) hans
      have hslots := h.slots_eq
      obtain ⟨l', hl', hlen, hcell⟩ := NoiseRecorder.window_eq h.fits hlive.min_pos
        hlive.min_le_max ha₀ hab (by omega)
      obtain rfl : l' = l := Option.some.inj (hl'.symm.trans hans.window_eq)
      refine ⟨by rw [hlen, Nat.cast_mul, Int.toNat_of_nonneg (by omega)], ?_⟩
      intro k j x hj hx
      have hk : (k : ℤ) < b - a + 1 := by
        have hlt : k * r.wheel.bins + j < (b - a + 1).toNat * r.wheel.bins := by
          rw [← hlen]
          exact (List.getElem?_eq_some_iff.mp hx).1
        by_contra hge
        have : (b - a + 1).toNat * r.wheel.bins ≤ k * r.wheel.bins :=
          Nat.mul_le_mul_right _ (by omega)
        omega
      have hA : (now - 1) / bin ≤ (now' - 1) / bin := Int.ediv_le_ediv (by omega) (by omega)
      have hmax := hlive.max_le
      rw [hcell k j hk hj, Option.some.injEq] at hx
      rw [← hx]
      by_cases hin : r.minStartOfReceptionBin ≤ a + k ∧ a + k ≤ r.maxEndOfReceptionBin
      · rw [if_pos hin]
        exact hlive.cells (a + k) j hj hin.1 hin.2 (by omega)
      · rw [if_neg hin]
        by_cases hlow : a + k < r.minStartOfReceptionBin
        · exact (hlive.below (a + k) j hlow (by omega)).symm
        · exact (hlive.above (a + k) j (by omega)).symm

end Refines

/-! ## Whole runs -/

/-- The time of the newest call, `0` before the first one. -/
def lastNow : List UpdateCall → ℤ
  | [] => 0
  | c :: _ => c.now

/-- Admissible calls in the order of their `now`, newest first. -/
def LegalHistory (bin maxOffset maxPropagation maxDuration : ℤ) (history : List UpdateCall) :
    Prop :=
  (∀ c ∈ history, Admissible bin maxOffset maxPropagation maxDuration c) ∧
    history.Pairwise (fun newer older => older.now ≤ newer.now)

section

variable {bin maxOffset maxPropagation maxDuration : ℤ} {c : UpdateCall}
  {history : List UpdateCall}

theorem LegalHistory.tail (h : LegalHistory bin maxOffset maxPropagation maxDuration (c :: history)) :
    LegalHistory bin maxOffset maxPropagation maxDuration history :=
  ⟨fun c' hc' => h.1 c' (by simp [hc']), (List.pairwise_cons.mp h.2).2⟩

theorem LegalHistory.lastNow_le (hd : 0 ≤ maxDuration) (hb : 1 ≤ bin)
    (h : LegalHistory bin maxOffset maxPropagation maxDuration (c :: history)) :
    lastNow history ≤ c.now := by
  cases history with
  | nil =>
      have := (h.1 c (by simp)).now_ge
      simp only [lastNow]
      omega
  | cons c' older => exact (List.pairwise_cons.mp h.2).1 c' (by simp)

theorem legalHistory_reverse {calls : List UpdateCall}
    (hadm : ∀ c ∈ calls, Admissible bin maxOffset maxPropagation maxDuration c)
    (hnow : calls.Pairwise (fun a b => a.now ≤ b.now)) :
    LegalHistory bin maxOffset maxPropagation maxDuration (calls.reverse ++ []) := by
  rw [List.append_nil]
  refine ⟨fun c hc => hadm c (List.mem_reverse.mp hc), ?_⟩
  exact List.pairwise_reverse.mpr hnow

end

theorem lastNow_reverse_le {calls : List UpdateCall} {now : ℤ} (h₀ : 0 ≤ now)
    (h : ∀ c ∈ calls, c.now ≤ now) : lastNow (calls.reverse ++ []) ≤ now := by
  rw [List.append_nil]
  cases hrev : calls.reverse with
  | nil => exact h₀
  | cons c older => exact h c (List.mem_reverse.mp (by rw [hrev]; simp))

/-- Time parameters as numbers of bins. -/
theorem TimeParameters.bins {bin maxOffset maxPropagation maxDuration : ℤ}
    (h : TimeParameters bin maxOffset maxPropagation maxDuration) :
    ∃ o p d, maxOffset = o * bin ∧ maxPropagation = p * bin ∧ maxDuration = d * bin ∧
      0 < o ∧ 0 < p ∧ 0 < d := by
  obtain ⟨hb, ho, ⟨o, rfl⟩, hp, ⟨p, rfl⟩, hd, ⟨d, rfl⟩⟩ := h
  have hpos : ∀ {x : ℤ}, 0 < bin * x → 0 < x := fun hx => pos_of_mul_pos_right hx (by omega)
  exact ⟨o, p, d, mul_comm _ _, mul_comm _ _, mul_comm _ _, hpos ho, hpos hp, hpos hd⟩

end Emane.Noise
