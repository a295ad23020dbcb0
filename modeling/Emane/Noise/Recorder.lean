import Emane.Noise.Wheel

set_option autoImplicit false

/-! # The noise recorder

`NoiseRecorder` of `noise_recorder.rs`. Times (`i64` microseconds) and time bins are integers,
frequencies and sizes are natural numbers, powers and ratios are exact rationals; `none` is a
panic (a wheel check that fails, an unsigned subtraction below zero, a negative count used as an
allocation size). The maps are extensional ordered maps: the code never observes the order of its
hash maps.

`update` is cut along its source: the sub-band mapping (`mapSubBands`), the lookup of the stored
end-of-reception bins (`effectiveStartBin`), the recording of the bin interval on the wheel
(`record`, with one definition per branch) and the store of the end-of-reception bin.
-/

namespace Emane.Noise

open Std

/-- `value as usize` of an `i64`: negative values wrap. -/
def asUsize (value : ℤ) : ℕ := if value < 0 then (value + 2 ^ 64).toNat else value.toNat

/-- `frequency_overlap_ratio` of `noise_recorder.rs`: the share of the second band that lies in the
first one, with the bounds of the overlap. -/
def frequencyOverlapRatio (frequencyHz1 bandwidthHz1 frequencyHz2 bandwidthHz2 : ℕ) : ℚ × ℕ × ℕ :=
  let upper1 := frequencyHz1 + bandwidthHz1 / 2
  let lower1 := frequencyHz1 - bandwidthHz1 / 2
  let upper2 := frequencyHz2 + bandwidthHz2 / 2
  let lower2 := frequencyHz2 - bandwidthHz2 / 2
  if lower2 < upper1 ∧ upper2 > lower1 then
    if lower2 ≥ lower1 then
      if upper2 ≤ upper1 then (1, lower2, upper2)
      else (((upper1 - lower2 : ℕ) : ℚ) / bandwidthHz2, lower2, upper1)
    else
      if upper2 ≤ upper1 then (((upper2 - lower1 : ℕ) : ℚ) / bandwidthHz2, lower1, upper2)
      else (((upper1 - lower1 : ℕ) : ℚ) / bandwidthHz2, lower1, upper1)
  else (0, 0, 0)

/-- A run of sub-bands `first..=last` and the share of the power each of them receives. -/
structure BinPowerApply where
  first : ℕ
  last : ℕ
  multiplier : ℚ
deriving DecidableEq

/-- The recorder. `nemAntennaIndexEorBinMap` maps a NEM and an antenna index to the last stored
end-of-reception bin, `binPowerApplyMap` a frequency range to its sub-band shares. -/
structure NoiseRecorder where
  totalWindowBins : ℤ
  totalWheelBins : ℤ
  binSizeMicroseconds : ℤ
  bandwidthBinSizeHz : ℕ
  bandStartFrequencyHz : ℕ
  totalSubBandBins : ℕ
  bandEndFrequencyHz : ℕ
  wheel : Wheel
  maxEndOfReceptionBin : ℤ
  minStartOfReceptionBin : ℤ
  nemAntennaIndexEorBinMap : ExtTreeMap ℕ (ExtTreeMap ℕ ℤ)
  binPowerApplyMap : ExtTreeMap ℕ (ExtTreeMap ℕ (List BinPowerApply))

/-- The arguments of one `update` call. -/
structure UpdateCall where
  now : ℤ
  txTime : ℤ
  offset : ℤ
  propagation : ℤ
  duration : ℤ
  rxPower : ℚ
  transmitters : List ℕ
  startFrequencyHz : ℕ
  endFrequencyHz : ℕ
  txAntennaIndex : ℕ
  isMore : Bool

/-- The bin of a time point; with `adjust`, a time point on a bin boundary belongs to the bin
before it. -/
def timepointToBin (binSize tp : ℤ) (adjust : Bool) : ℤ :=
  if tp = 0 then 0
  else tp.tdiv binSize - if adjust ∧ tp.tmod binSize = 0 then 1 else 0

namespace UpdateCall

def startOfReception (c : UpdateCall) : ℤ := c.txTime + c.offset + c.propagation

def endOfReception (c : UpdateCall) : ℤ := c.startOfReception + c.duration

/-- The reported start-of-reception bin. -/
def sorBin (binSize : ℤ) (c : UpdateCall) : ℤ := timepointToBin binSize c.startOfReception false

/-- The end-of-reception bin. -/
def eorBin (binSize : ℤ) (c : UpdateCall) : ℤ := timepointToBin binSize c.endOfReception true

end UpdateCall

namespace NoiseRecorder

/-- `NoiseRecorder::new`. The receiver sensitivity argument is stored but never read, so it is left
out. -/
def new (bin maxOffset maxPropagation maxDuration : ℤ)
    (frequencyHz bandwidthHz bandwidthBinSizeHz : ℕ) : NoiseRecorder :=
  let bin := max bin 1
  let maxOffset := max maxOffset 0
  let maxPropagation := max maxPropagation 0
  let maxDuration := max maxDuration bin
  let totalWheelBins := max ((maxOffset + maxPropagation + maxDuration * 2).tdiv bin) 1
  let bandStart := frequencyHz - bandwidthHz / 2
  let totalSubBandBins :=
    if bandwidthBinSizeHz > 0 then ⌈(bandwidthHz : ℚ) / bandwidthBinSizeHz⌉₊ + 1 else 1
  { totalWindowBins := max (maxDuration.tdiv bin) 1
    totalWheelBins := totalWheelBins
    binSizeMicroseconds := bin
    bandwidthBinSizeHz := bandwidthBinSizeHz
    bandStartFrequencyHz := bandStart
    totalSubBandBins := totalSubBandBins
    bandEndFrequencyHz :=
      if bandwidthBinSizeHz = 0 then bandStart + bandwidthHz - 1
      else bandStart + totalSubBandBins * bandwidthBinSizeHz - 1
    wheel := Wheel.new (asUsize totalWheelBins) totalSubBandBins
    maxEndOfReceptionBin := 0
    minStartOfReceptionBin := 0
    nemAntennaIndexEorBinMap := ∅
    binPowerApplyMap := ∅ }

/-! ## The sub-band mapping -/

/-- The first and the last sub-band a frequency range touches. -/
def subBandRange (r : NoiseRecorder) (startHz endHz : ℕ) : Option (ℕ × ℕ) :=
  let first :=
    if startHz > r.bandStartFrequencyHz then
      (startHz - r.bandStartFrequencyHz) / r.bandwidthBinSizeHz
    else 0
  if endHz < r.bandEndFrequencyHz then
    let above := (r.bandEndFrequencyHz - endHz) / r.bandwidthBinSizeHz
    if r.totalSubBandBins - 1 < above then none
    else some (first, r.totalSubBandBins - 1 - above)
  else some (first, r.totalSubBandBins - 1)

/-- The loop state of the sub-band mapping: the finished runs and the start of the pending one. -/
abbrev ApplyState := List BinPowerApply × Option ℕ

/-- One iteration of `for bin in sub_band_bin_start..=sub_band_bin_end`. -/
def applyStep (r : NoiseRecorder) (startHz endHz : ℕ) (st : ApplyState) (bin : ℕ) : ApplyState :=
  let binStart := bin * r.bandwidthBinSizeHz + r.bandStartFrequencyHz
  let ratio := (frequencyOverlapRatio (binStart + r.bandwidthBinSizeHz / 2) r.bandwidthBinSizeHz
    (startHz + (endHz - startHz) / 2) (endHz - startHz)).1
  if ratio > 0 ∧ ratio < 1 then
    match st.2 with
    | some pendingStart => (st.1 ++ [⟨pendingStart, bin - 1, 1⟩, ⟨bin, bin, ratio⟩], none)
    | none => (st.1 ++ [⟨bin, bin, ratio⟩], none)
  else if ratio = 1 then
    match st.2 with
    | some _ => st
    | none => (st.1, some bin)
  else
    match st.2 with
    | some pendingStart => (st.1 ++ [⟨pendingStart, bin - 1, 1⟩], none)
    | none => st

/-- The entries `update` computes for a frequency range it sees for the first time. -/
def binPowerApplies (r : NoiseRecorder) (startHz endHz first last : ℕ) : List BinPowerApply :=
  match (List.range' first (last + 1 - first)).foldl (r.applyStep startHz endHz) ([], none) with
  | (applies, some pendingStart) => applies ++ [⟨pendingStart, last, 1⟩]
  | (applies, none) => applies

def findApplies (r : NoiseRecorder) (startHz endHz : ℕ) : Option (List BinPowerApply) :=
  (r.binPowerApplyMap[startHz]?).bind (·[endHz]?)

/-- The sub-band part of `update`: the recorder with the range's entries in its map, and the
arguments `sub_band_bin_start`, `sub_band_bins` of the single-band wheel calls. -/
def mapSubBands (r : NoiseRecorder) (startHz endHz : ℕ) : Option (NoiseRecorder × ℕ × ℕ) :=
  if r.bandwidthBinSizeHz > 0 then do
    let (first, last) ← r.subBandRange startHz endHz
    if last < first then none
    else if (r.findApplies startHz endHz).isSome then some (r, first, last - first + 1)
    else if endHz < startHz then none
    else
      let applies := r.binPowerApplies startHz endHz first last
      let row := (r.binPowerApplyMap[startHz]?).getD ∅
      some ({ r with
        binPowerApplyMap := r.binPowerApplyMap.insert startHz (row.insert endHz applies) },
        first, last - first + 1)
  else some (r, 0, 1)

/-! ## The stored end-of-reception bins -/

def eorBinOf (r : NoiseRecorder) (nem antenna : ℕ) : Option ℤ :=
  (r.nemAntennaIndexEorBinMap[nem]?).bind (·[antenna]?)

/-- The largest end-of-reception bin stored for the transmitters, `0` if none is larger. -/
def storedMaxEorBin (r : NoiseRecorder) (transmitters : List ℕ) (antenna : ℕ) : ℤ :=
  transmitters.foldl
    (fun stored transmitter =>
      match r.eorBinOf transmitter antenna with
      | some eorBin => if stored < eorBin then eorBin else stored
      | none => stored) 0

/-- The start bin after the adjustment: past everything already recorded for the transmitters. -/
def effectiveStartBin (r : NoiseRecorder) (c : UpdateCall) : ℤ :=
  let stored := r.storedMaxEorBin c.transmitters c.txAntennaIndex
  let sor := c.sorBin r.binSizeMicroseconds
  if sor ≤ stored then stored + 1 else sor

def insertEorBin (antenna : ℕ) (eorBin : ℤ) (map : ExtTreeMap ℕ (ExtTreeMap ℕ ℤ)) (nem : ℕ) :
    ExtTreeMap ℕ (ExtTreeMap ℕ ℤ) :=
  map.insert nem (((map[nem]?).getD ∅).insert antenna eorBin)

/-- The store at the end of `update`. -/
def storeEorBins (r : NoiseRecorder) (c : UpdateCall) : NoiseRecorder :=
  if c.isMore then r
  else { r with
    nemAntennaIndexEorBinMap := c.transmitters.foldl
      (insertEorBin c.txAntennaIndex (c.eorBin r.binSizeMicroseconds)) r.nemAntennaIndexEorBinMap }

/-! ## Recording on the wheel -/

/-- What one `record` call writes: the power, the sub-band entries of the range and the two
arguments of the single-band calls. -/
structure Reception where
  power : ℚ
  applies : List BinPowerApply
  subBandBinStart : ℕ
  subBandBins : ℕ

/-- `for (start, end, multiplier) in applies { wheel.set(index, count, power * multiplier, ..) }` -/
def setApplies (p : Reception) (index count : ℕ) (w : Wheel) : Option Wheel :=
  p.applies.foldlM
    (fun w a => w.set index count (p.power * a.multiplier) a.first (a.last - a.first + 1)) w

/-- The same loop with `wheel.add`. -/
def addApplies (p : Reception) (index count : ℕ) (w : Wheel) : Option Wheel :=
  p.applies.foldlM
    (fun w a => w.add index count (p.power * a.multiplier) a.first (a.last - a.first + 1)) w

/-- The `%` that turns a bin into a wheel index. -/
def wheelIndex (r : NoiseRecorder) (bin : ℤ) : ℕ := asUsize bin % asUsize r.totalWheelBins

/-- The branch for an empty (or completely stale) wheel. -/
def recordFirst (r : NoiseRecorder) (p : Reception) (startBin endBin : ℤ) : Option NoiseRecorder := do
  let count := asUsize (endBin - startBin + 1)
  let wheel ←
    if r.totalSubBandBins > 1 then setApplies p (r.wheelIndex startBin) count r.wheel
    else r.wheel.set (r.wheelIndex startBin) count p.power p.subBandBinStart p.subBandBins
  some { r with
    wheel := wheel
    minStartOfReceptionBin := startBin
    maxEndOfReceptionBin := endBin }

/-- `before_min_sor_bin_duration_count`. -/
def beforeCount (r : NoiseRecorder) (startBin endBin : ℤ) : ℤ :=
  if startBin < r.minStartOfReceptionBin then
    if endBin < r.minStartOfReceptionBin then endBin - startBin + 1
    else r.minStartOfReceptionBin - startBin
  else 0

/-- `after_max_eor_bin_duration_count`. -/
def afterCount (r : NoiseRecorder) (startBin endBin : ℤ) : ℤ :=
  if endBin > r.maxEndOfReceptionBin then
    if startBin > r.maxEndOfReceptionBin then endBin - startBin + 1
    else endBin - r.maxEndOfReceptionBin
  else 0

/-- `within_min_sor_max_eor_bin_count`. -/
def withinCount (r : NoiseRecorder) (startBin endBin : ℤ) : ℤ :=
  endBin - startBin + 1 - r.beforeCount startBin endBin - r.afterCount startBin endBin

/-- The part of the reception before the recorded range. With sub-bands the new bins are cleared
and then the whole reception is set. -/
def recordBefore (r : NoiseRecorder) (p : Reception) (startBin endBin : ℤ) (w : Wheel) :
    Option Wheel :=
  if startBin < r.minStartOfReceptionBin then
    let count := asUsize (r.beforeCount startBin endBin)
    let index := r.wheelIndex startBin
    if r.totalSubBandBins > 1 then do
      let w ← w.set index count 0 0 r.totalSubBandBins
      setApplies p index (asUsize (endBin - startBin + 1)) w
    else w.set index count p.power p.subBandBinStart p.subBandBins
  else some w

/-- The part of the reception after the recorded range. -/
def recordAfter (r : NoiseRecorder) (p : Reception) (startBin endBin : ℤ) (w : Wheel) :
    Option Wheel :=
  if endBin > r.maxEndOfReceptionBin then
    let count := asUsize (r.afterCount startBin endBin)
    let duration := asUsize (endBin - startBin + 1)
    let index := (r.wheelIndex startBin + duration - count) % asUsize r.totalWheelBins
    if r.totalSubBandBins > 1 then do
      let w ← w.set index count 0 0 r.totalSubBandBins
      setApplies p (r.wheelIndex startBin) duration w
    else w.set index count p.power p.subBandBinStart p.subBandBins
  else some w

/-- The part of the reception inside the recorded range. -/
def recordWithin (r : NoiseRecorder) (p : Reception) (startBin endBin : ℤ) (w : Wheel) :
    Option Wheel :=
  let index := (r.wheelIndex startBin + asUsize (r.beforeCount startBin endBin))
    % asUsize r.totalWheelBins
  let count := asUsize (r.withinCount startBin endBin)
  if r.totalSubBandBins > 1 then addApplies p index count w
  else w.add index count p.power p.subBandBinStart p.subBandBins

/-- The bins between the reception and the recorded range, when they do not meet, are cleared. -/
def clearGaps (r : NoiseRecorder) (startBin endBin : ℤ) (w : Wheel) : Option Wheel := do
  let before := r.beforeCount startBin endBin
  let w ←
    if before > 0 then
      w.set ((r.wheelIndex startBin + asUsize before) % asUsize r.totalWheelBins)
        (asUsize (r.minStartOfReceptionBin - (startBin + before))) 0 0 r.totalSubBandBins
    else some w
  if r.afterCount startBin endBin > 0 then
    w.set (r.wheelIndex (r.maxEndOfReceptionBin + 1))
      (asUsize (startBin - r.maxEndOfReceptionBin - 1)) 0 0 r.totalSubBandBins
  else some w

/-- The branch for a wheel that holds earlier receptions. -/
def recordMerge (r : NoiseRecorder) (p : Reception) (startBin endBin : ℤ) :
    Option NoiseRecorder := do
  let w ← r.recordBefore p startBin endBin r.wheel
  let w ← r.recordAfter p startBin endBin w
  let w ←
    if r.withinCount startBin endBin > 0 then r.recordWithin p startBin endBin w
    else r.clearGaps startBin endBin w
  some { r with
    wheel := w
    minStartOfReceptionBin :=
      if r.beforeCount startBin endBin > 0 then startBin else r.minStartOfReceptionBin
    maxEndOfReceptionBin :=
      if r.afterCount startBin endBin > 0 then endBin else r.maxEndOfReceptionBin }

/-- The reset of a stale wheel. -/
def resetStale (r : NoiseRecorder) (startBin : ℤ) : NoiseRecorder :=
  if r.maxEndOfReceptionBin + r.totalWheelBins ≤ startBin then
    { r with maxEndOfReceptionBin := 0, minStartOfReceptionBin := 0 }
  else r

/-- Recording the bins `startBin..=endBin`. -/
def record (r : NoiseRecorder) (p : Reception) (startBin endBin : ℤ) : Option NoiseRecorder :=
  let r := r.resetStale startBin
  if r.maxEndOfReceptionBin = 0 ∧ r.minStartOfReceptionBin = 0 then r.recordFirst p startBin endBin
  else r.recordMerge p startBin endBin

/-- The bins that a call records: those past everything already recorded for its transmitters, if there are
any. -/
def recordedBins (r : NoiseRecorder) (c : UpdateCall) : Option (ℤ × ℤ) :=
  let startBin := r.effectiveStartBin c
  let endBin := c.eorBin r.binSizeMicroseconds
  if endBin ≥ startBin then some (startBin, endBin) else none

/-- Recording these bins, if there are any. -/
def recordBins (r : NoiseRecorder) (p : Reception) : Option (ℤ × ℤ) → Option NoiseRecorder
  | some (startBin, endBin) => r.record p startBin endBin
  | none => some r

/-- The body of `NoiseRecorder::update`: the new recorder, and the bins that were recorded. -/
def updateBins (r : NoiseRecorder) (c : UpdateCall) : Option (NoiseRecorder × Option (ℤ × ℤ)) := do
  let (r, subBandBinStart, subBandBins) ← r.mapSubBands c.startFrequencyHz c.endFrequencyHz
  let p : Reception :=
    { power := c.rxPower
      applies := (r.findApplies c.startFrequencyHz c.endFrequencyHz).getD []
      subBandBinStart := subBandBinStart
      subBandBins := subBandBins }
  let bins := r.recordedBins c
  let r ← r.recordBins p bins
  some (r.storeEorBins c, bins)

/-- `NoiseRecorder::update`: the new recorder and the start and end of reception. -/
def update (r : NoiseRecorder) (c : UpdateCall) : Option (NoiseRecorder × ℤ × ℤ) :=
  (r.updateBins c).map fun x => (x.1, c.startOfReception, c.endOfReception)

/-- One `update` call as a step of the recorder. -/
def step (r : NoiseRecorder) (c : UpdateCall) : Option NoiseRecorder := (r.update c).map (·.1)

/-! ## What an update can do -/

/-- The sub-band mapping touches the map only. -/
theorem mapSubBands_frame {r r' : NoiseRecorder} {startHz endHz first count : ℕ}
    (h : r.mapSubBands startHz endHz = some (r', first, count)) :
    ∃ map, r' = { r with binPowerApplyMap := map } := by
  unfold mapSubBands at h
  split at h
  · obtain ⟨⟨first, last⟩, -, h⟩ := Option.bind_eq_some_iff.mp h
    simp only at h
    split at h
    · cases h
    · split at h
      · cases h
        exact ⟨r.binPowerApplyMap, rfl⟩
      · split at h
        · cases h
        · cases h
          exact ⟨_, rfl⟩
  · cases h
    exact ⟨r.binPowerApplyMap, rfl⟩

/-- `r'` differs from `r` in the wheel and the recorded range only. -/
def SameButRecorded (r r' : NoiseRecorder) : Prop :=
  ∃ wheel minStart maxEnd, r' = { r with
    wheel := wheel
    minStartOfReceptionBin := minStart
    maxEndOfReceptionBin := maxEnd }

theorem recordFirst_frame {r r' : NoiseRecorder} {p : Reception} {startBin endBin : ℤ}
    (h : r.recordFirst p startBin endBin = some r') : r.SameButRecorded r' := by
  unfold recordFirst at h
  simp only at h
  split at h
  all_goals
    obtain ⟨w, -, h⟩ := Option.bind_eq_some_iff.mp h
    cases h
    exact ⟨w, startBin, endBin, rfl⟩

theorem recordMerge_frame {r r' : NoiseRecorder} {p : Reception} {startBin endBin : ℤ}
    (h : r.recordMerge p startBin endBin = some r') : r.SameButRecorded r' := by
  unfold recordMerge at h
  obtain ⟨w₁, -, h⟩ := Option.bind_eq_some_iff.mp h
  obtain ⟨w₂, -, h⟩ := Option.bind_eq_some_iff.mp h
  simp only at h
  split at h
  all_goals
    obtain ⟨w₃, -, h⟩ := Option.bind_eq_some_iff.mp h
    cases h
    exact ⟨w₃, _, _, rfl⟩

/-- Recording touches the wheel and the recorded range only. -/
theorem record_frame {r r' : NoiseRecorder} {p : Reception} {startBin endBin : ℤ}
    (h : r.record p startBin endBin = some r') : r.SameButRecorded r' := by
  have hreset : r.SameButRecorded (r.resetStale startBin) := by
    unfold resetStale
    split
    · exact ⟨r.wheel, 0, 0, rfl⟩
    · exact ⟨_, _, _, rfl⟩
  have htrans : (r.resetStale startBin).SameButRecorded r' := by
    unfold record at h
    simp only at h
    split at h
    · exact recordFirst_frame h
    · exact recordMerge_frame h
  obtain ⟨w₁, s₁, e₁, h₁⟩ := hreset
  obtain ⟨w₂, s₂, e₂, h₂⟩ := htrans
  rw [h₁] at h₂
  exact ⟨w₂, s₂, e₂, h₂⟩

theorem storeEorBins_frame (r : NoiseRecorder) (c : UpdateCall) :
    ∃ map, r.storeEorBins c = { r with nemAntennaIndexEorBinMap := map } := by
  unfold storeEorBins
  split
  · exact ⟨r.nemAntennaIndexEorBinMap, rfl⟩
  · exact ⟨_, rfl⟩

theorem recordBins_eq {r r₁ : NoiseRecorder} (p : Reception) (c : UpdateCall) :
    r.recordBins p (r₁.recordedBins c) =
      if r₁.effectiveStartBin c ≤ c.eorBin r₁.binSizeMicroseconds then
        r.record p (r₁.effectiveStartBin c) (c.eorBin r₁.binSizeMicroseconds)
      else some r := by
  unfold recordedBins
  simp only [ge_iff_le]
  split <;> rfl

/-- The step with its record on the wheel. -/
theorem step_eq (r : NoiseRecorder) (c : UpdateCall) :
    r.step c = (r.mapSubBands c.startFrequencyHz c.endFrequencyHz).bind fun x =>
      (if x.1.effectiveStartBin c ≤ c.eorBin x.1.binSizeMicroseconds then
        x.1.record ⟨c.rxPower, (x.1.findApplies c.startFrequencyHz c.endFrequencyHz).getD [], x.2.1, x.2.2⟩
          (x.1.effectiveStartBin c) (c.eorBin x.1.binSizeMicroseconds)
      else some x.1).map (·.storeEorBins c) := by
  unfold step update updateBins
  cases r.mapSubBands c.startFrequencyHz c.endFrequencyHz with
  | none => rfl
  | some x =>
      simp only [Option.bind_eq_bind, Option.bind_some]
      rw [recordBins_eq]
      split
      · cases x.1.record _ _ _ <;> rfl
      · rfl

/-- The bins that were recorded are those past what is stored for the transmitters. -/
theorem updateBins_spec {r r' : NoiseRecorder} {c : UpdateCall} {bins : Option (ℤ × ℤ)}
    (h : r.updateBins c = some (r', bins)) : r.step c = some r' ∧ bins = r.recordedBins c := by
  refine ⟨by rw [step, update, h]; rfl, ?_⟩
  obtain ⟨⟨r₁, first, count⟩, hmap, h⟩ := Option.bind_eq_some_iff.mp h
  obtain ⟨r₂, -, h⟩ := Option.bind_eq_some_iff.mp h
  cases h
  obtain ⟨map, rfl⟩ := mapSubBands_frame hmap
  rfl

/-- **An update that completes** maps the range, records the reception unless it has no new bins, and
stores the end-of-reception bins. -/
theorem update_cases {r r' : NoiseRecorder} {c : UpdateCall} {sor eor : ℤ}
    (h : r.update c = some (r', sor, eor)) :
    ∃ r₁ first count r₂, r.mapSubBands c.startFrequencyHz c.endFrequencyHz = some (r₁, first, count) ∧
      (r₁.effectiveStartBin c ≤ c.eorBin r₁.binSizeMicroseconds ∧
          r₁.record ⟨c.rxPower, (r₁.findApplies c.startFrequencyHz c.endFrequencyHz).getD [], first,
            count⟩ (r₁.effectiveStartBin c) (c.eorBin r₁.binSizeMicroseconds) = some r₂ ∨
        ¬ r₁.effectiveStartBin c ≤ c.eorBin r₁.binSizeMicroseconds ∧ r₂ = r₁) ∧
      r' = r₂.storeEorBins c ∧ sor = c.startOfReception ∧ eor = c.endOfReception := by
  obtain ⟨⟨r₃, bins⟩, hbins, heq⟩ := Option.map_eq_some_iff.mp h
  cases heq
  obtain ⟨⟨r₁, first, count⟩, hmap, hbins⟩ := Option.bind_eq_some_iff.mp hbins
  obtain ⟨r₂, hrecord, hbins⟩ := Option.bind_eq_some_iff.mp hbins
  cases hbins
  refine ⟨r₁, first, count, r₂, hmap, ?_, rfl, rfl, rfl⟩
  rw [recordBins_eq] at hrecord
  split at hrecord
  · next hle => exact .inl ⟨hle, hrecord⟩
  · next hle => exact .inr ⟨hle, (Option.some.inj hrecord).symm⟩

/-! ## Queries -/

/-- The `i64::MIN` that stands for "as early as possible". -/
def timepointMin : ℤ := -9223372036854775808

/-- `vec![0.0; count as usize * bins]`; a negative count overflows the capacity. -/
def zeros (count : ℤ) (bins : ℕ) : Option (List ℚ) :=
  if count < 0 then none else some (List.replicate (count.toNat * bins) 0)

/-- The window of the bins `startTimeBin..=endTimeBin`. -/
def window (r : NoiseRecorder) (startTimeBin endTimeBin : ℤ) : Option (List ℚ) :=
  let count := endTimeBin - startTimeBin + 1
  if r.maxEndOfReceptionBin ≠ 0 ∧ r.minStartOfReceptionBin ≠ 0 then do
    let after :=
      if endTimeBin > r.maxEndOfReceptionBin then min (endTimeBin - r.maxEndOfReceptionBin) count
      else 0
    let before :=
      if startTimeBin < r.minStartOfReceptionBin then
        min (r.minStartOfReceptionBin - startTimeBin) count
      else 0
    let remainder := count - (before + after)
    let mid ←
      if remainder > 0 then
        r.wheel.get (asUsize ((endTimeBin - after).tmod r.totalWheelBins)) (asUsize remainder)
      else some []
    let head ← zeros before r.totalSubBandBins
    let tail ← zeros after r.totalSubBandBins
    some (head ++ mid ++ tail)
  else zeros count r.totalSubBandBins

/-- `NoiseRecorder::try_get`: a panic is `none`, the code's own `None` is `some none`. -/
def tryGet (r : NoiseRecorder) (now duration startTime : ℤ) : Option (Option (List ℚ × ℤ)) :=
  if duration < 0 ∨ now < 0 then some none
  else
    let nowBin := timepointToBin r.binSizeMicroseconds now true
    let minStartOfWindowTime := (nowBin - r.totalWindowBins + 1) * r.binSizeMicroseconds
    if startTime ≠ timepointMin ∧ (startTime < minStartOfWindowTime ∨ startTime > now) then
      some none
    else
      let validStartTime := if startTime = timepointMin then minStartOfWindowTime else startTime
      let startTimeBin := timepointToBin r.binSizeMicroseconds validStartTime false
      if duration ≠ 0 ∧ validStartTime + duration > now then some none
      else
        let endTime := if duration ≠ 0 then validStartTime + duration else now
        let endTimeBin := timepointToBin r.binSizeMicroseconds endTime true
        let startOfWindowTime := startTimeBin * r.binSizeMicroseconds
        if startOfWindowTime ≥ minStartOfWindowTime then do
          let w ← r.window startTimeBin endTimeBin
          some (some (w, startOfWindowTime))
        else some none

end NoiseRecorder

end Emane.Noise
