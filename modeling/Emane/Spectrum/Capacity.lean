import Emane.Noise.Capacity
import Emane.Spectrum.Independence
import Emane.Spectrum.Twin

set_option autoImplicit false

/-! # The capacity of the wheels of a monitor

The calls `update` makes to the recorders of the frequencies of interest are nested in two loops, over
the segments and over the records of a segment. `MessageFits` says of a message that each of these
calls fits the recorder it finds (`CallFits`). A monitor without filters whose messages all fit never
fails and keeps the live bins of all recorders within their wheels (`Roomy.run`).

The lengths need no condition: with sizes as the configuration of the physical layer admits them
(`WellTimed`) a segment that passes the clamps is at most one wheel long.
-/

namespace Emane.Spectrum

open Std Emane.Lib Emane.Noise

/-- The sizes an accepted configuration has: they are in order, and the wheel is a whole number of
bins, unless its size is beyond the largest 64-bit number. -/
structure WellTimed (config : Config) : Prop where
  bin_pos : 1 ≤ config.binSize
  offset_nonneg : 0 ≤ config.maxOffset
  propagation_nonneg : 0 ≤ config.maxPropagation
  bin_le : config.binSize ≤ config.maxDuration
  whole : config.binSize ∣ config.maxOffset + config.maxPropagation + config.maxDuration * 2 ∨
    i64Max < config.maxOffset + config.maxPropagation + config.maxDuration * 2
  threshold_nonneg : 0 ≤ config.timeSyncThreshold
  threshold_le : config.timeSyncThreshold ≤ i64Max

namespace SpectrumMonitor

/-! ## The length of a reception -/

/-- A reception of at most `D`, from the bin `s` on, has at most the bins of a wheel for twice `D`. -/
theorem reception_le_wheel {bin D total : ℤ} (hb : 1 ≤ bin) (hbD : bin ≤ D) (htotal : 2 * D ≤ total)
    (hwhole : bin ∣ total ∨ i64Max < total) {c : UpdateCall} (hD : c.duration ≤ D)
    (h64 : c.endOfReception ≤ i64Max) {s : ℤ} (hs : 1 ≤ s) (hsor : c.sorBin bin ≤ s)
    (hse : s ≤ c.eorBin bin) : c.eorBin bin - s + 1 ≤ total / bin := by
  have hb₀ : 0 < bin := by omega
  have hend₀ : 0 < c.endOfReception := by
    by_contra hneg
    have : c.eorBin bin ≤ 0 := timepointToBin_end_nonpos hb (by omega)
    omega
  have heor : c.eorBin bin = (c.endOfReception - 1) / bin := timepointToBin_end hb hend₀
  rw [heor]
  rcases hwhole with hwhole | hbig
  · have htotal' : total / bin * bin = total := Int.ediv_mul_cancel hwhole
    have hsplit : c.endOfReception = c.startOfReception + c.duration := rfl
    -- the last bin is less than one wheel after the bin of the start
    have hlt : (c.endOfReception - 1) / bin < max (c.startOfReception / bin) 0 + total / bin := by
      refine Int.ediv_lt_of_lt_mul hb₀ ?_
      have hmod := Int.mul_ediv_add_emod c.startOfReception bin
      have hmod₁ := Int.emod_lt_of_pos c.startOfReception hb₀
      have hexpand : (max (c.startOfReception / bin) 0 + total / bin) * bin =
          max (c.startOfReception / bin) 0 * bin + total := by
        rw [Int.add_mul, htotal']
      have hmax : c.startOfReception - bin < max (c.startOfReception / bin) 0 * bin := by
        have hle : c.startOfReception / bin * bin ≤ max (c.startOfReception / bin) 0 * bin :=
          Int.mul_le_mul_of_nonneg_right (le_max_left _ _) (by omega)
        have hcomm : bin * (c.startOfReception / bin) = c.startOfReception / bin * bin := by ring
        omega
      omega
    have hstart : max (c.startOfReception / bin) 0 ≤ s := by
      rcases lt_or_ge 0 c.startOfReception with hpos | hneg
      · have : c.sorBin bin = c.startOfReception / bin := timepointToBin_start hpos
        omega
      · have : c.startOfReception / bin ≤ 0 := by
          have := Int.ediv_le_ediv hb₀ hneg
          simpa using this
        omega
    omega
  · have hle : (c.endOfReception - 1) / bin ≤ total / bin := Int.ediv_le_ediv hb₀ (by omega)
    omega

/-! ## What no message changes -/

/-- The recorders are those of the frequencies of interest, with the sizes of the configuration. -/
structure Shaped (m : SpectrumMonitor) : Prop where
  keys : ∀ f, f ∈ m.noiseRecorderMap ↔ f ∈ m.config.foi
  shape : ∀ (f : ℕ) (r : NoiseRecorder), m.noiseRecorderMap[f]? = some r →
    (recorderFor m.config f).SameShape r

theorem shaped_initializeMonitor (m : SpectrumMonitor) (config : Config) :
    (m.initializeMonitor config).Shaped := by
  refine ⟨?_, ?_⟩
  · intro f
    show f ∈ initialRecorders config ↔ f ∈ config.foi
    rw [ExtTreeMap.mem_iff_isSome_getElem?, getElem?_initialRecorders]
    split
    · next hf => simp [hf]
    · next hf => simp [hf]
  · intro f r hr
    have hget := getElem?_initialRecorders config f
    rw [show (initialRecorders config)[f]? = some r from hr] at hget
    split at hget
    · cases hget
      exact NoiseRecorder.SameShape.refl _
    · cases hget

/-- Every recorder of the second map was made from one of the first. -/
def Descends (map map' : ExtTreeMap ℕ NoiseRecorder) : Prop :=
  ∀ (f : ℕ) (r' : NoiseRecorder), map'[f]? = some r' → ∃ r, map[f]? = some r ∧ r.SameShape r'

theorem Descends.refl (map : ExtTreeMap ℕ NoiseRecorder) : Descends map map :=
  fun _ r hr => ⟨r, hr, NoiseRecorder.SameShape.refl r⟩

theorem Descends.trans {map₁ map₂ map₃ : ExtTreeMap ℕ NoiseRecorder} (h : Descends map₁ map₂)
    (h' : Descends map₂ map₃) : Descends map₁ map₃ := by
  intro f r₃ hr₃
  obtain ⟨r₂, hr₂, hshape₂⟩ := h' f r₃ hr₃
  obtain ⟨r₁, hr₁, hshape₁⟩ := h f r₂ hr₂
  exact ⟨r₁, hr₁, hshape₁.trans hshape₂⟩

theorem applyRecord_descends {sensitivity : ℚ} {t : Timed} {s : Segment} {l l' : RecordLoop}
    {record : NoiseRecord} (h : applyRecord sensitivity t s l record = some l') :
    Descends l.map l'.map := by
  unfold applyRecord at h
  simp only at h
  split at h
  · split at h
    · next r hr =>
        obtain ⟨⟨r', sor, eor⟩, hupdate, h⟩ := Option.bind_eq_some_iff.mp h
        cases h
        intro f r₁ hr₁
        simp only [ExtTreeMap.getElem?_insert] at hr₁
        split at hr₁
        · next heq =>
            cases hr₁
            rw [← (Nat.compare_eq_eq.mp heq)]
            exact ⟨r, hr, NoiseRecorder.update_sameShape hupdate⟩
        · exact ⟨r₁, hr₁, NoiseRecorder.SameShape.refl r₁⟩
    · cases h
      exact Descends.refl _
  · cases h
    exact Descends.refl _

theorem segmentStep_descends {masks : Masks} {t : Timed} {l l' : SegmentLoop} {s : Segment}
    (h : segmentStep masks t l s = some l') :
    Descends l.monitor.noiseRecorderMap l'.monitor.noiseRecorderMap := by
  unfold segmentStep at h
  split at h
  · cases h
    rw [simpleSegment_monitor]
    exact Descends.refl _
  · obtain ⟨r, hr, hsame⟩ := recordSegment_spec h
    rw [hsame.map_eq]
    exact foldlM_preserves (fun a b : RecordLoop => Descends a.map b.map) (fun a => Descends.refl a.map)
      (fun _ _ _ => Descends.trans) (fun _ _ _ => applyRecord_descends) _ _ _ hr

/-- **A message** keeps the frequencies and the sizes. -/
theorem Shaped.update {masks : Masks} {m m' : SpectrumMonitor} {msg : Message} {report : Report}
    (hm : m.Shaped) (h : m.update masks msg = some (m', report)) : m'.Shaped := by
  obtain ⟨hconfig, hmem⟩ := update_frame h
  have hdescends : Descends m.noiseRecorderMap m'.noiseRecorderMap := by
    rcases update_spec h with ⟨-, flag, rfl⟩ | ⟨t, l, -, hrun, flag, rfl⟩
    · exact Descends.refl _
    · exact runSteps_keeps
        (I := fun l : SegmentLoop => Descends m.noiseRecorderMap l.monitor.noiseRecorderMap)
        (fun l s l' hl hstep => hl.trans (segmentStep_descends hstep)) (Descends.refl _) hrun
  refine ⟨?_, ?_⟩
  · intro f
    rw [hmem, hconfig]
    exact hm.keys f
  · intro f r' hr'
    obtain ⟨r, hr, hshape⟩ := hdescends f r' hr'
    rw [hconfig]
    exact (hm.shape f r hr).trans hshape

/-! ## Calls that fit -/

/-- The call ends at a 64-bit time and fits its recorder. -/
def RecorderFits (r : NoiseRecorder) (c : UpdateCall) : Prop :=
  c.endOfReception ≤ i64Max ∧ r.CallFits c

instance (r : NoiseRecorder) (c : UpdateCall) : Decidable (RecorderFits r c) :=
  inferInstanceAs (Decidable (_ ∧ _))

/-- The call a record leads to, if there is one, fits. -/
def RecordFits (sensitivity : ℚ) (t : Timed) (s : Segment) (l : RecordLoop) (record : NoiseRecord) :
    Prop :=
  sensitivity ≤ l.overlapPower + overlapPowerMw record.overlap s.rxPowerMw →
    ∀ r ∈ l.map[record.frequency]?, RecorderFits r (updateCall t s
      (l.overlapPower + overlapPowerMw record.overlap s.rxPowerMw) record.lower record.upper false)

instance (sensitivity : ℚ) (t : Timed) (s : Segment) (l : RecordLoop) (record : NoiseRecord) :
    Decidable (RecordFits sensitivity t s l record) :=
  inferInstanceAs (Decidable (_ → ∀ r ∈ l.map[record.frequency]?, _))

/-- The calls for a segment fit: none in a simple mode, else those of the loop over its records. -/
def SegmentFits (masks : Masks) (t : Timed) (l : SegmentLoop) (s : Segment) : Prop :=
  simpleMode l.monitor.config t.message = false →
    RunMeets (applyRecord l.monitor.config.receiverSensitivityMilliWatt t s)
      (RecordFits l.monitor.config.receiverSensitivityMilliWatt t s)
      ⟨l.monitor.noiseRecorderMap, 0, false, false, 0, 0⟩
      (l.monitor.noiseRecords masks t.message s.shiftedFrequency).1

instance (masks : Masks) (t : Timed) (l : SegmentLoop) (s : Segment) :
    Decidable (SegmentFits masks t l s) :=
  inferInstanceAs (Decidable (_ → _))

/-- **The message fits**: every call it makes to a recorder does. -/
def MessageFits (masks : Masks) (m : SpectrumMonitor) (msg : Message) : Prop :=
  ∀ t ∈ timed m.config msg, RunMeets (segmentStep masks t) (SegmentFits masks t) (m.startLoop msg)
    (messageSegments m.config msg)

instance (masks : Masks) (m : SpectrumMonitor) (msg : Message) :
    Decidable (MessageFits masks m msg) :=
  inferInstanceAs (Decidable (∀ t ∈ timed m.config msg, _))

/-- One `update` as a step of the monitor. -/
def messageStep (masks : Masks) (m : SpectrumMonitor) (msg : Message) : Option SpectrumMonitor :=
  (m.update masks msg).map (·.1)

/-! ## Monitors with room -/

/-- What holds of the recorder of a frequency at time `now`. -/
structure RoomyRecorder (config : Config) (now : ℤ) (r : NoiseRecorder) : Prop where
  tidy : r.Tidy
  binSize : r.binSizeMicroseconds = config.binSize
  wheelBins : r.totalWheelBins =
    (config.maxOffset + config.maxPropagation + config.maxDuration * 2) / config.binSize
  within : r.WithinWheel now

/-- A monitor without filters whose recorders all have room. -/
structure Roomy (now : ℤ) (m : SpectrumMonitor) : Prop where
  config : WellTimed m.config
  filters : m.filterNoiseRecorderMap = ∅
  recorders : ∀ (f : ℕ) (r : NoiseRecorder), m.noiseRecorderMap[f]? = some r →
    RoomyRecorder m.config now r

theorem WithinWheel.mono {r : NoiseRecorder} (hr : r.Tidy) {now now' : ℤ} (h : r.WithinWheel now)
    (hnow : now ≤ now') : r.WithinWheel now' := by
  have := timepointToBin_end_mono hr.bin_pos (le_max_right now' 0)
    (show max now 0 ≤ max now' 0 by omega)
  unfold NoiseRecorder.WithinWheel NoiseRecorder.oldestServed at *
  omega

theorem Roomy.mono {now now' : ℤ} {m : SpectrumMonitor} (h : Roomy now m) (hnow : now ≤ now') :
    Roomy now' m :=
  ⟨h.config, h.filters, fun f r hr =>
    have hroom := h.recorders f r hr
    ⟨hroom.tidy, hroom.binSize, hroom.wheelBins, WithinWheel.mono hroom.tidy hroom.within hnow⟩⟩

/-- **One call** of a segment that passed the clamps. -/
theorem RoomyRecorder.update {config : Config} (hc : WellTimed config) {now : ℤ} {r : NoiseRecorder}
    (h : RoomyRecorder config now r) {c : UpdateCall} (hnow : c.now = now)
    (hD : c.duration ≤ config.maxDuration) (hfits : RecorderFits r c) :
    ∃ r', r.update c = some (r', c.startOfReception, c.endOfReception) ∧
      RoomyRecorder config now r' := by
  obtain ⟨h64, hfits⟩ := hfits
  have hlen : r.effectiveStartBin c ≤ c.eorBin r.binSizeMicroseconds →
      c.eorBin r.binSizeMicroseconds - r.effectiveStartBin c + 1 ≤ r.totalWheelBins := by
    intro hse
    have hsor : c.sorBin r.binSizeMicroseconds ≤ r.effectiveStartBin c := by
      simp only [NoiseRecorder.effectiveStartBin]
      split <;> omega
    rw [h.wheelBins]
    rw [h.binSize] at hse hsor ⊢
    have := hc.offset_nonneg
    have := hc.propagation_nonneg
    exact reception_le_wheel hc.bin_pos hc.bin_le (by omega) hc.whole hD h64
      (r.effectiveStartBin_pos c) hsor hse
  obtain ⟨r', hstep, htidy, hwithin⟩ := h.tidy.step hlen hfits hnow.symm.le h.within
  unfold NoiseRecorder.step at hstep
  obtain ⟨⟨r₁, sor, eor⟩, hupdate, rfl⟩ := Option.map_eq_some_iff.mp hstep
  have hshape := NoiseRecorder.update_sameShape hupdate
  obtain ⟨_, _, _, _, -, -, -, rfl, rfl⟩ := NoiseRecorder.update_cases hupdate
  refine ⟨r₁, hupdate, htidy, hshape.binSize.trans h.binSize, hshape.wheelBins.trans h.wheelBins, ?_⟩
  rw [← hnow]
  exact hwithin

/-! ## The loops -/

theorem clampValue_bounds {value maximum x : ℤ} {clamp : Bool} (hmax : 0 ≤ maximum)
    (h : clampValue value maximum clamp = some x) : 0 ≤ x ∧ x ≤ maximum := by
  unfold clampValue at h
  split at h
  · cases h
  · split at h
    · split at h
      · cases h
        exact ⟨hmax, le_rfl⟩
      · cases h
    · cases h
      omega

/-- Segments that passed the clamps. -/
theorem acceptedSegments_bounds {config : Config} (hoffset : 0 ≤ config.maxOffset)
    (hduration : 0 ≤ config.maxDuration) {msg : Message} {xs : List (FrequencySegment × ℚ)}
    {s : Segment} (hs : s ∈ acceptedSegments config msg xs) :
    (0 ≤ s.offset ∧ s.offset ≤ config.maxOffset) ∧
      (0 ≤ s.duration ∧ s.duration ≤ config.maxDuration) := by
  induction xs with
  | nil => cases hs
  | cons x xs ih =>
      unfold acceptedSegments at hs
      split at hs
      · cases hs
      · next s₀ hclamp =>
          rcases List.mem_cons.mp hs with rfl | hs
          · unfold clampSegment at hclamp
            obtain ⟨offset, ho, hclamp⟩ := Option.bind_eq_some_iff.mp hclamp
            obtain ⟨duration, hd, hclamp⟩ := Option.bind_eq_some_iff.mp hclamp
            cases hclamp
            exact ⟨clampValue_bounds hoffset ho, clampValue_bounds hduration hd⟩
          · exact ih hs

theorem applyRecord_roomy {config : Config} (hc : WellTimed config) {t : Timed} {s : Segment}
    (hD : s.duration ≤ config.maxDuration) {sensitivity : ℚ} {l : RecordLoop} {record : NoiseRecord}
    (hl : ∀ (f : ℕ) (r : NoiseRecorder), l.map[f]? = some r →
      RoomyRecorder config t.message.now r)
    (hfits : RecordFits sensitivity t s l record) :
    ∃ l', applyRecord sensitivity t s l record = some l' ∧
      ∀ (f : ℕ) (r : NoiseRecorder), l'.map[f]? = some r →
        RoomyRecorder config t.message.now r := by
  unfold applyRecord
  simp only
  split
  · next habove =>
      split
      · next r hr =>
          obtain ⟨r', hupdate, hroom⟩ := (hl record.frequency r hr).update hc rfl hD
            (hfits habove r hr)
          rw [hupdate]
          refine ⟨_, rfl, ?_⟩
          intro f r₁ hr₁
          simp only [ExtTreeMap.getElem?_insert] at hr₁
          split at hr₁
          · cases hr₁
            exact hroom
          · exact hl f r₁ hr₁
      · exact ⟨_, rfl, hl⟩
  · exact ⟨_, rfl, hl⟩

/-- Without filters there is nothing to apply. -/
theorem applyEnergyToFilters_empty (masks : Masks) (t : Timed) (s : Segment) {m : SpectrumMonitor}
    (hm : m.filterNoiseRecorderMap = ∅) :
    ∃ m', applyEnergyToFilters masks t s m = some m' ∧ m'.filterNoiseRecorderMap = ∅ := by
  have hrecord : ∀ record : FilterRecord, m.applyFilterRecord t s true true record = some m := by
    intro record
    unfold applyFilterRecord
    rw [hm]
    simp
  have hrecords : ∀ records : List FilterRecord,
      records.foldlM (fun m record => m.applyFilterRecord t s true true record) m = some m := by
    intro records
    induction records with
    | nil => rfl
    | cons record records ih =>
        rw [List.foldlM_cons, hrecord]
        exact ih
  unfold applyEnergyToFilters
  simp only
  split
  · next records _ => exact ⟨m, hrecords records, hm⟩
  · have hlist : m.filterNoiseRecorderMap.toList = [] := by
      rw [hm]
      simp
    rw [hlist]
    refine ⟨_, rfl, ?_⟩
    unfold setFilterCache
    split
    · exact hm
    · exact hm

/-- **One segment.** -/
theorem segmentStep_roomy {masks : Masks} {t : Timed} {l : SegmentLoop} {s : Segment}
    (h : Roomy t.message.now l.monitor) (hD : s.duration ≤ l.monitor.config.maxDuration)
    (hfits : SegmentFits masks t l s) :
    ∃ l', segmentStep masks t l s = some l' ∧ Roomy t.message.now l'.monitor ∧
      l'.monitor.config = l.monitor.config := by
  unfold segmentStep
  by_cases hsimple : simpleMode l.monitor.config t.message = true
  · rw [if_pos hsimple]
    refine ⟨_, rfl, ?_, ?_⟩
    · rw [simpleSegment_monitor]
      exact h
    · rw [simpleSegment_monitor]
  · have hfits := hfits (by simpa using hsimple)
    rw [if_neg hsimple]
    obtain ⟨hconfig, hmap⟩ := noiseRecords_frame masks l.monitor t.message s.shiftedFrequency
    have hfilters : (l.monitor.noiseRecords masks t.message s.shiftedFrequency).2.filterNoiseRecorderMap
        = ∅ := by
      unfold noiseRecords
      split
      · exact h.filters
      · simp only [setRecordCache]
        split
        · exact h.filters
        · exact h.filters
    obtain ⟨r, hr, hroom⟩ := hfits.completes
      (I := fun l' : RecordLoop => ∀ (f : ℕ) (r : NoiseRecorder), l'.map[f]? = some r →
        RoomyRecorder l.monitor.config t.message.now r)
      (fun l' record _ hl' hfit => applyRecord_roomy h.config hD hl' hfit) h.recorders
    rcases hn : l.monitor.noiseRecords masks t.message s.shiftedFrequency with ⟨records, m⟩
    rw [hn] at hconfig hmap hfilters hr
    simp only at hconfig hmap hfilters hr
    have hloop : applyRecords m.config.receiverSensitivityMilliWatt t s m.noiseRecorderMap records
        = some r := by
      rw [hconfig, hmap]
      exact hr
    rw [recordSegment_eq masks t l s hn, hloop, Option.bind_some]
    -- the filters leave the recorders alone
    obtain ⟨m', hm', hempty, hsame⟩ : ∃ m', segmentFilters masks t s { m with noiseRecorderMap := r.map }
          = some m' ∧ m'.filterNoiseRecorderMap = ∅ ∧
        SameNoise { m with noiseRecorderMap := r.map } m' := by
      unfold segmentFilters
      split
      · obtain ⟨m', hm', hempty⟩ := applyEnergyToFilters_empty masks t s
          (m := { m with noiseRecorderMap := r.map }) hfilters
        exact ⟨m', hm', hempty, applyEnergyToFilters_sameNoise hm'⟩
      · exact ⟨_, rfl, hfilters, SameNoise.refl _⟩
    rw [hm']
    have hconfig' : m'.config = l.monitor.config := hsame.config_eq.trans hconfig
    refine ⟨_, rfl, ⟨?_, hempty, ?_⟩, hconfig'⟩
    · show WellTimed m'.config
      rw [hconfig']
      exact h.config
    · intro f r₁ hr₁
      have hr₁ : m'.noiseRecorderMap[f]? = some r₁ := hr₁
      rw [hsame.map_eq] at hr₁
      show RoomyRecorder m'.config t.message.now r₁
      rw [hconfig']
      exact hroom f r₁ hr₁

/-- **One message** that fits does not fail and leaves room. -/
theorem Roomy.message {masks : Masks} {m : SpectrumMonitor} {msg : Message} (h : Roomy msg.now m)
    (hfits : MessageFits masks m msg) :
    ∃ m', messageStep masks m msg = some m' ∧ Roomy msg.now m' := by
  have hflag : ∀ (m' : SpectrumMonitor) (flag : Bool), Roomy msg.now m' →
      Roomy msg.now (m'.withClampError flag) :=
    fun m' flag h' => ⟨h'.config, h'.filters, h'.recorders⟩
  unfold messageStep
  rw [update_eq]
  by_cases hlen : msg.segments.length ≠ msg.rxPowersMilliWatt.length
  · rw [if_pos hlen]
    exact ⟨_, rfl, hflag m false h⟩
  · rw [if_neg hlen]
    cases hp : clampValue msg.propagationDelay m.config.maxPropagation m.config.maxClamp with
    | none => exact ⟨_, rfl, hflag m true h⟩
    | some p =>
        have htimed : timed m.config msg = some ⟨msg, validTxTime m.config msg, p⟩ := by
          rw [timed, if_neg hlen, hp]
          rfl
        have hduration : 0 ≤ m.config.maxDuration := by
          have := h.config.bin_pos
          have := h.config.bin_le
          omega
        obtain ⟨l, hl, hroom, -⟩ := (hfits _ htimed).completes
          (I := fun l : SegmentLoop => Roomy msg.now l.monitor ∧ l.monitor.config = m.config)
          (fun l s hs hl hfit => by
            have hbounds := acceptedSegments_bounds h.config.offset_nonneg hduration hs
            obtain ⟨l', hl', hroom', hconfig'⟩ := segmentStep_roomy
              (t := ⟨msg, validTxTime m.config msg, p⟩) hl.1 (by rw [hl.2]; exact hbounds.2.2) hfit
            exact ⟨l', hl', hroom', hconfig'.trans hl.2⟩)
          ⟨hflag m false h, rfl⟩
        -- the loop over the raw segments is the run over the accepted ones
        have hsegments : (updateSegments masks ⟨msg, validTxTime m.config msg, p⟩
            ((m.withClampError false).startLoop msg)
            (msg.segments.zip msg.rxPowersMilliWatt)).map (·.1) = some l :=
          (updateSegments_eq _ _).trans hl
        obtain ⟨⟨l₁, clampError⟩, hrun, rfl⟩ := Option.map_eq_some_iff.mp hsegments
        simp only [hrun, Option.map_some, finishUpdate]
        cases clampError with
        | true => exact ⟨_, rfl, hflag l₁.monitor true hroom⟩
        | false => exact ⟨_, rfl, hroom⟩

/-! ## Runs -/

/-- A monitor that was just initialized has room. -/
theorem roomy_initializeMonitor {config : Config} (hc : WellTimed config) {m : SpectrumMonitor}
    (hm : m.filterNoiseRecorderMap = ∅) (now : ℤ) : Roomy now (m.initializeMonitor config) := by
  refine ⟨hc, hm, ?_⟩
  intro f r hr
  have hrecorder : recorderFor config f = r := by
    have hget := getElem?_initialRecorders config f
    rw [show (initialRecorders config)[f]? = some r from hr] at hget
    split at hget
    · exact (Option.some.inj hget).symm
    · cases hget
  subst hrecorder
  have hb := hc.bin_pos
  have hbD := hc.bin_le
  have ho := hc.offset_nonneg
  have hp := hc.propagation_nonneg
  have htidy : (recorderFor config f).Tidy := NoiseRecorder.tidy_new _ _ _ _ _ _
  have hbin : (recorderFor config f).binSizeMicroseconds = config.binSize := max_eq_left hb
  have hwheel : (recorderFor config f).totalWheelBins =
      (config.maxOffset + config.maxPropagation + config.maxDuration * 2) / config.binSize := by
    show max ((max config.maxOffset 0 + max config.maxPropagation 0 +
      max config.maxDuration (max config.binSize 1) * 2).tdiv (max config.binSize 1)) 1 = _
    rw [max_eq_left hb, max_eq_left ho, max_eq_left hp, max_eq_left hbD,
      Int.tdiv_eq_ediv_of_nonneg (by omega)]
    refine max_eq_left (Int.le_ediv_of_mul_le (by omega) (by omega))
  refine ⟨htidy, hbin, hwheel, ?_⟩
  -- nothing is recorded, and the window is part of the wheel
  have hserved := timepointToBin_end_nonneg htidy.bin_pos (le_max_right now 0)
  have hle := htidy.window_le
  have hmax : (recorderFor config f).maxEndOfReceptionBin = 0 := rfl
  unfold NoiseRecorder.WithinWheel NoiseRecorder.oldestServed
  omega

/-- **A run of messages that fit** does not fail, and there is room at every later time. -/
theorem Roomy.run {masks : Masks} {m : SpectrumMonitor} (hm : ∀ now, Roomy now m)
    {msgs : List Message} (hnow : msgs.Pairwise fun a b => a.now ≤ b.now)
    (hfits : RunMeets (messageStep masks) (MessageFits masks) m msgs) :
    ∃ m', runSteps (messageStep masks) m msgs = some m' ∧
      ∀ now, (∀ msg ∈ msgs, msg.now ≤ now) → Roomy now m' := by
  obtain ⟨m', hrun, hroom⟩ := run_invariant
    (fun past : List Message => past.Pairwise fun a b => b.now ≤ a.now)
    (I := fun past m => ∀ now, (∀ msg ∈ past, msg.now ≤ now) → Roomy now m)
    (fun msg past h => (List.pairwise_cons.mp h).2)
    (fun past msg m hlegal hI hfit => by
      obtain ⟨m', hm', hroom'⟩ := (hI msg.now (List.pairwise_cons.mp hlegal).1).message hfit
      exact ⟨m', hm', fun now hle => hroom'.mono (hle msg List.mem_cons_self)⟩)
    msgs [] m (by simpa [List.pairwise_reverse] using hnow) (fun now _ => hm now) hfits
  refine ⟨m', hrun, fun now hle => hroom now ?_⟩
  intro msg hmsg
  exact hle msg (by simpa using hmsg)

end SpectrumMonitor

end Emane.Spectrum
