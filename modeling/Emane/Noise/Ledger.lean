import Emane.Lib.Run
import Emane.Noise.Recorder

set_option autoImplicit false

/-! # The energy ledger

What a noise recorder is for, without a wheel: an unbounded list of the receptions seen so far,
each with the interval of time bins it is credited for, and the energy of a bin as the sum over the
receptions that cover it. Histories are newest first, so that "last stored" is the first match.

The second part states which calls are admissible and what that means for their bins
(`Admissible.callBins`); nothing here mentions the wheel.
-/

namespace Emane.Noise

open Emane.Lib

/-! ## The ledger -/

/-- The end-of-reception bin last stored for a NEM and an antenna. -/
def lastStoredEor (bin : ℤ) (history : List UpdateCall) (nem antenna : ℕ) : Option ℤ :=
  (history.find? fun c =>
    !c.isMore && decide (nem ∈ c.transmitters) && decide (c.txAntennaIndex = antenna)).map
      (·.eorBin bin)

/-- The interval of bins a reception is credited for: it starts past the largest bin last stored
for its transmitters on its antenna. It is empty when the start is past the end. -/
def recordedInterval (bin : ℤ) (history : List UpdateCall) (c : UpdateCall) : ℤ × ℤ :=
  (((c.transmitters.filterMap (lastStoredEor bin history · c.txAntennaIndex)).map (· + 1)).foldl
    max (c.sorBin bin), c.eorBin bin)

/-- The energy of time bin `k`: the sum of the gains of the receptions whose interval contains
`k`. -/
def energyAt (bin : ℤ) (gain : UpdateCall → ℚ) : List UpdateCall → ℤ → ℚ
  | [], _ => 0
  | c :: older, k =>
      (if (recordedInterval bin older c).1 ≤ k ∧ k ≤ (recordedInterval bin older c).2 then gain c
        else 0) + energyAt bin gain older k

/-! ## Admissible parameters and calls -/

/-- The time parameters the framework configuration guarantees: positive multiples of the bin. -/
structure TimeParameters (bin maxOffset maxPropagation maxDuration : ℤ) : Prop where
  bin_pos : 1 ≤ bin
  offset_pos : 0 < maxOffset
  offset_dvd : bin ∣ maxOffset
  propagation_pos : 0 < maxPropagation
  propagation_dvd : bin ∣ maxPropagation
  duration_pos : 0 < maxDuration
  duration_dvd : bin ∣ maxDuration

/-- A call within the configured limits, for a transmission that is neither in the future nor too
old. -/
structure Admissible (bin maxOffset maxPropagation maxDuration : ℤ) (c : UpdateCall) : Prop where
  now_ge : maxDuration + bin ≤ c.now
  txTime_ge : maxDuration + bin ≤ c.txTime
  offset_nonneg : 0 ≤ c.offset
  offset_le : c.offset ≤ maxOffset
  propagation_nonneg : 0 ≤ c.propagation
  propagation_le : c.propagation ≤ maxPropagation
  duration_nonneg : 0 ≤ c.duration
  duration_le : c.duration ≤ maxDuration
  txTime_le : c.txTime ≤ c.now
  lag_lt : c.now - c.txTime < maxDuration - 2 * bin

/-- A reception of `duration` microseconds sent and received at `now`, by NEM `nem`. -/
def receptionAt (now duration : ℤ) (nem : ℕ) (power : ℚ) (startHz endHz : ℕ) : UpdateCall :=
  { now := now, txTime := now, offset := 0, propagation := 0, duration := duration
    rxPower := power, transmitters := [nem], startFrequencyHz := startHz, endFrequencyHz := endHz
    txAntennaIndex := 0, isMore := false }

theorem admissible_receptionAt {bin maxOffset maxPropagation maxDuration now duration : ℤ}
    {nem startHz endHz : ℕ} {power : ℚ} (hO : 0 ≤ maxOffset) (hP : 0 ≤ maxPropagation)
    (hD : 2 * bin < maxDuration) (hnow : maxDuration + bin ≤ now) (h₀ : 0 ≤ duration)
    (hd : duration ≤ maxDuration) :
    Admissible bin maxOffset maxPropagation maxDuration
      (receptionAt now duration nem power startHz endHz) := by
  refine ⟨hnow, hnow, le_rfl, hO, le_rfl, hP, h₀, hd, le_rfl, ?_⟩
  simp only [receptionAt]
  omega

/-! ## Bins of positive time points -/

theorem timepointToBin_start {bin x : ℤ} (hx : 0 < x) : timepointToBin bin x false = x / bin := by
  rw [timepointToBin, if_neg (by omega), Int.tdiv_eq_ediv_of_nonneg (by omega)]
  simp

theorem timepointToBin_end {bin x : ℤ} (hb : 1 ≤ bin) (hx : 0 < x) :
    timepointToBin bin x true = (x - 1) / bin := by
  rw [timepointToBin, if_neg (by omega), Int.tdiv_eq_ediv_of_nonneg (by omega),
    Int.tmod_eq_emod_of_nonneg (by omega)]
  have hx' := Int.mul_ediv_add_emod x bin
  have h₀ := Int.emod_nonneg x (show bin ≠ 0 by omega)
  have h₁ := Int.emod_lt_of_pos x (show 0 < bin by omega)
  by_cases hr : x % bin = 0
  · simp only [hr, and_self, if_true]
    have : x - 1 = (bin - 1) + (x / bin - 1) * bin := by
      have : (x / bin - 1) * bin = bin * (x / bin) - bin := by ring
      omega
    have h₂ : (bin - 1) / bin = 0 := Int.ediv_eq_zero_of_lt (by omega) (by omega)
    rw [this, Int.add_mul_ediv_right _ _ (by omega), h₂]
    omega
  · simp only [hr, and_false, if_false]
    have : x - 1 = (x % bin - 1) + (x / bin) * bin := by
      have : (x / bin) * bin = bin * (x / bin) := by ring
      omega
    have h₂ : (x % bin - 1) / bin = 0 := Int.ediv_eq_zero_of_lt (by omega) (by omega)
    rw [this, Int.add_mul_ediv_right _ _ (by omega), h₂]
    omega

/-- The bins of an admissible call, relative to the bin of `now`. -/
structure CallBins (o p d N A S E : ℤ) : Prop where
  start_ge : N - d + 2 ≤ S
  start_le : S ≤ N + o + p
  end_le : E ≤ A + o + p + d
  end_ge : S - 1 ≤ E
  length_le : E ≤ S + d
  start_pos : d + 1 ≤ S
  adjusted_le : A ≤ N
  adjusted_ge : N ≤ A + 1

theorem Admissible.callBins {bin o p d : ℤ} {c : UpdateCall} (hb : 1 ≤ bin)
    (h : Admissible bin (o * bin) (p * bin) (d * bin) c) :
    CallBins o p d (c.now / bin) ((c.now - 1) / bin) (c.sorBin bin) (c.eorBin bin) := by
  obtain ⟨h₁, h₂, h₃, h₄, h₅, h₆, h₇, h₈, h₉, h₁₀⟩ := h
  have hb₀ : (0 : ℤ) < bin := by omega
  have hD : 0 ≤ d * bin := by omega
  have hsor : c.sorBin bin = (c.txTime + c.offset + c.propagation) / bin :=
    timepointToBin_start (by simp only [UpdateCall.startOfReception]; omega)
  have heor : c.eorBin bin = (c.txTime + c.offset + c.propagation + c.duration - 1) / bin :=
    timepointToBin_end hb (by
      simp only [UpdateCall.endOfReception, UpdateCall.startOfReception]; omega)
  have hmono : ∀ {x y : ℤ}, x ≤ y → x / bin ≤ y / bin := fun h => Int.ediv_le_ediv hb₀ h
  have hshift : ∀ x q : ℤ, (x + q * bin) / bin = x / bin + q :=
    fun x q => Int.add_mul_ediv_right x q (by omega)
  have hone : ∀ x : ℤ, x / bin - 1 ≤ (x - 1) / bin := by
    intro x
    have h := hmono (show x + (-1) * bin ≤ x - 1 by omega)
    rw [hshift] at h
    omega
  rw [hsor, heor]
  refine ⟨?_, ?_, ?_, ?_, ?_, ?_, hmono (by omega), ?_⟩
  · have h := hmono (show c.now + (2 - d) * bin ≤ c.txTime + c.offset + c.propagation by
      have : (2 - d) * bin = 2 * bin - d * bin := by ring
      omega)
    rw [hshift] at h
    omega
  · have h := hmono (show c.txTime + c.offset + c.propagation ≤ c.now + (o + p) * bin by
      have : (o + p) * bin = o * bin + p * bin := by ring
      omega)
    rw [hshift] at h
    omega
  · have h := hmono (show c.txTime + c.offset + c.propagation + c.duration - 1
        ≤ c.now - 1 + (o + p + d) * bin by
      have : (o + p + d) * bin = o * bin + p * bin + d * bin := by ring
      omega)
    rw [hshift] at h
    omega
  · have h := hmono (show c.txTime + c.offset + c.propagation - 1
        ≤ c.txTime + c.offset + c.propagation + c.duration - 1 by omega)
    have := hone (c.txTime + c.offset + c.propagation)
    omega
  · have h := hmono (show c.txTime + c.offset + c.propagation + c.duration - 1
        ≤ c.txTime + c.offset + c.propagation + d * bin by omega)
    rw [hshift] at h
    omega
  · have h := hmono (show 0 + (d + 1) * bin ≤ c.txTime + c.offset + c.propagation by
      have : (d + 1) * bin = d * bin + bin := by ring
      omega)
    rw [hshift] at h
    simpa using h
  · have := hone c.now
    omega

end Emane.Noise
