import Mathlib

set_option autoImplicit false

/-! # Spectral overlap

`SpectralMaskManager::get_spectral_overlap` of `spectral_mask.rs`. The loaded masks are a parameter
(`Masks`); powers and ratios are exact rationals, frequencies are natural numbers with the `u64`
saturation and overflow checks of the source written out. Mask `0` stands for the plain transmitter
bandwidth; the overlap with any other mask does not read that bandwidth
(`getSpectralOverlap_mask`).
-/

namespace Emane.Spectrum

/-- `u64::MAX`. -/
def u64Max : ℕ := 18446744073709551615

/-- `u64::saturating_add`. -/
def saturatingAdd (a b : ℕ) : ℕ := min (a + b) u64Max

/-- `u64::checked_add`. -/
def checkedAdd (a b : ℕ) : Option ℕ := if a + b ≤ u64Max then some (a + b) else none

/-- `frequency_overlap_ratio` of `spectral_mask.rs`: the share of the second band inside the first
one, with the bounds of the overlap. -/
def frequencyOverlapRatio (freq1 bw1 freq2 bw2 : ℕ) : ℚ × ℕ × ℕ :=
  if bw1 = 0 ∨ bw2 = 0 then (0, 0, 0)
  else
    let upper1 := saturatingAdd freq1 (bw1 / 2)
    let lower1 := freq1 - bw1 / 2
    let upper2 := saturatingAdd freq2 (bw2 / 2)
    let lower2 := freq2 - bw2 / 2
    if lower2 < upper1 ∧ upper2 > lower1 then
      if lower2 ≥ lower1 then
        if upper2 ≤ upper1 then (1, lower2, upper2)
        else (((upper1 - lower2 : ℕ) : ℚ) / bw2, lower2, upper1)
      else
        if upper2 ≤ upper1 then (((upper2 - lower1 : ℕ) : ℚ) / bw2, lower1, upper2)
        else (((upper1 - lower1 : ℕ) : ℚ) / bw2, lower1, upper1)
    else (0, 0, 0)

/-- One entry of a mask, the primary signal or a spur: its offset from the centre, its bandwidth and
its shape as (width, power modifier) pairs. -/
structure MaskEntry where
  offset : ℤ
  bandwidth : ℕ
  shape : List (ℕ × ℚ)

/-- The loaded masks by id. -/
abbrev Masks := ℕ → Option (List MaskEntry)

/-- A segment `(ratio, modifier, lower, upper)` of an overlap. -/
structure SpectralSegment where
  ratio : ℚ
  modifier : ℚ
  lower : ℕ
  upper : ℕ
deriving DecidableEq

/-- The overlap of one mask entry. -/
structure SpectralOverlap where
  segments : List SpectralSegment
  lower : ℕ
  upper : ℕ
deriving DecidableEq

/-- The overlap of a whole mask, with the number of its segments. -/
structure MaskOverlap where
  overlaps : List SpectralOverlap
  lower : ℕ
  upper : ℕ
  total : ℕ
deriving DecidableEq

/-- The inner loop over the shape of one entry: the segments that overlap so far with the bounds of
their overlap. A shape that leaves the `u64` range stops the loop. -/
def shapeLoop (rxFreq rxBw : ℕ) : ℕ → List (ℕ × ℚ) → SpectralOverlap → SpectralOverlap
  | _, [], acc => acc
  | txLower, (segWidth, segMw) :: shape, acc =>
      match checkedAdd txLower segWidth with
      | none => acc
      | some txUpper =>
          let (ratio, lowerSeg, upperSeg) := frequencyOverlapRatio rxFreq rxBw
            (saturatingAdd txLower (segWidth / 2)) segWidth
          shapeLoop rxFreq rxBw txUpper shape
            (if ratio > 0 then
              { segments := acc.segments ++ [⟨ratio, segMw, txLower, txUpper⟩]
                lower := min acc.lower lowerSeg
                upper := max acc.upper upperSeg }
            else acc)

/-- The outer loop over the mask entries. A receiver bandwidth of `0` becomes the bandwidth of the
first entry and stays so. -/
def entryLoop (txFreq rxFreq : ℕ) : ℕ → List MaskEntry → MaskOverlap → MaskOverlap
  | _, [], acc => acc
  | rxBw, entry :: entries, acc =>
      let rxBw := if rxBw = 0 then entry.bandwidth else rxBw
      let txLower : ℤ := (txFreq : ℤ) + entry.offset - (entry.bandwidth / 2 : ℕ)
      if txLower < 0 ∨ (u64Max : ℤ) < txLower then entryLoop txFreq rxFreq rxBw entries acc
      else
        let spur := shapeLoop rxFreq rxBw txLower.toNat entry.shape ⟨[], u64Max, 0⟩
        entryLoop txFreq rxFreq rxBw entries
          (if spur.segments.isEmpty then acc
          else
            { overlaps := acc.overlaps ++ [spur]
              lower := min acc.lower spur.lower
              upper := max acc.upper spur.upper
              total := acc.total + spur.segments.length })

/-- `get_spectral_overlap`. -/
def getSpectralOverlap (masks : Masks) (txFreq rxFreq rxBw txBw maskId : ℕ) : Option MaskOverlap :=
  if maskId ≠ 0 then
    match masks maskId with
    | none => none
    | some entries =>
        let overlap := entryLoop txFreq rxFreq rxBw entries ⟨[], u64Max, 0, 0⟩
        if overlap.overlaps.isEmpty then none else some overlap
  else
    let (ratio, lower, upper) := frequencyOverlapRatio rxFreq rxBw txFreq txBw
    if ratio > 0 then some ⟨[⟨[⟨ratio, 1, lower, upper⟩], lower, upper⟩], lower, upper, 1⟩ else none

/-- `overlap_power_mw`. -/
def overlapPowerMw (overlap : MaskOverlap) (rxPowerMw : ℚ) : ℚ :=
  ((overlap.overlaps.flatMap (·.segments)).map
    (fun segment => rxPowerMw * segment.modifier * segment.ratio)).sum

/-- The overlap with a mask does not depend on the transmitter bandwidth. -/
theorem getSpectralOverlap_mask (masks : Masks) (txFreq rxFreq rxBw txBw txBw' : ℕ) {maskId : ℕ}
    (h : maskId ≠ 0) :
    getSpectralOverlap masks txFreq rxFreq rxBw txBw maskId
      = getSpectralOverlap masks txFreq rxFreq rxBw txBw' maskId := by
  unfold getSpectralOverlap
  rw [if_pos h, if_pos h]

end Emane.Spectrum
