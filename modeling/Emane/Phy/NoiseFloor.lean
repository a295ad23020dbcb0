import Emane.Phy.Capacity
import Emane.Spectrum.Request

set_option autoImplicit false

/-! # The noise floor of a reception

`reception_noise_floor_dbm` asks the monitor that has just recorded a message for the window of a
reported segment. The window starts with the segment but is as long as the whole message, and it is read
at the end of the reception or later. `request_i` ends the program when that is longer than the maximal
duration of a segment, and when the bins from the start of the window to the time of the query are more
than the window of the recorder. `FloorInWindow` is the exact condition for neither to happen.

The noise floor is left in milliwatt.
-/

namespace Emane.Phy

open Std Emane.Lib Emane.PluginApi Emane.Noise Emane.Spectrum Emane.Spectrum.SpectrumMonitor

/-! ## The lookup -/

/-- The start of the window. -/
def floorStart (txTime propagation : ℤ) (segment : ReportedSegment) : ℤ :=
  PhyState.saturatingAdd (PhyState.saturatingAdd txTime propagation) segment.offsetMicrosec

/-- The duration of the window. -/
def floorDuration (span : ℤ) (segment : ReportedSegment) : ℤ :=
  max (max span segment.durationMicrosec) 1

/-- The time of the query. -/
def floorQueryTime (now start duration : ℤ) : ℤ := max now (PhyState.saturatingAdd start duration)

/-- `reception_noise_floor_dbm` -/
def receptionNoiseFloor (m : SpectrumMonitor) (now txTime propagation span : ℤ)
    (segment : ReportedSegment) : Except RequestPanic ℚ := do
  let start := floorStart txTime propagation segment
  let duration := floorDuration span segment
  let window ←
    m.requestI (floorQueryTime now start duration) segment.frequencyHz duration start
  let maximum := window.bins.foldl max window.sensitivityMilliWatt
  return if window.extra then max (maximum - segment.rxPowerMilliWatt) window.sensitivityMilliWatt
    else max maximum window.sensitivityMilliWatt

/-- The computation ends neither with a duration that is too long nor with a window that is not there. -/
def StaysInWindow {α : Type} (x : Except RequestPanic α) : Prop :=
  x ≠ .error .durationTooLong ∧ x ≠ .error .invalidWindow

/-- The message is at most as long as a segment may be, or durations are clamped; and if the segment
has a recorder, the bins from the start of the segment to the time of the query are at most its window,
and the window read ends at a 64-bit time. -/
structure FloorInWindow (config : Config) (now txTime propagation span : ℤ)
    (segment : ReportedSegment) : Prop where
  duration : span ≤ config.maxDuration ∨ config.maxClamp = true
  bins : segment.frequencyHz ∈ config.foi →
    timepointToBin config.binSize (floorQueryTime now (floorStart txTime propagation segment)
        (floorDuration span segment)) true
      - floorStart txTime propagation segment / config.binSize + 1
        ≤ config.maxDuration / config.binSize ∧
    floorStart txTime propagation segment
      + min (floorDuration span segment) config.maxDuration ≤ i64Max

instance (config : Config) (now txTime propagation span : ℤ) (segment : ReportedSegment) :
    Decidable (FloorInWindow config now txTime propagation span segment) :=
  decidable_of_iff (_ ∧ (_ → _)) ⟨fun h => ⟨h.1, h.2⟩, fun h => ⟨h.1, h.2⟩⟩

/-! ## Requests -/

theorem staysInWindow_bind {α β : Type} (x : Except RequestPanic α) (g : α → β) :
    StaysInWindow (x >>= fun a => pure (g a)) ↔ StaysInWindow x := by
  cases x with
  | error e => simp [StaysInWindow, bind, Except.bind]
  | ok a => simp [StaysInWindow, bind, Except.bind, pure, Except.pure]

theorem recorderGet_stays_iff (r : NoiseRecorder) (now duration startTime : ℤ) :
    StaysInWindow (recorderGet r now duration startTime) ↔
      r.tryGet now duration startTime ≠ some none := by
  unfold recorderGet
  split
  · next h => simp [StaysInWindow, h]
  · next h => simp [StaysInWindow, h]
  · next h => simp [StaysInWindow, h]

/-- What a request does with the duration that it is left with. -/
theorem request_stays_iff (m : SpectrumMonitor) (now : ℤ) (frequencyHz : ℕ) (valid timepoint : ℤ) :
    StaysInWindow (do
      match m.noiseRecorderMap[frequencyHz]? with
      | some recorder => do
          let (bins, start) ← recorderGet recorder now valid timepoint
          return (⟨bins, start, m.config.binSize, m.config.receiverSensitivityMilliWatt,
            m.config.mode == .all⟩ : Window Bool)
      | none => return ⟨[], 0, m.config.binSize, m.config.receiverSensitivityMilliWatt, false⟩) ↔
      ∀ r, m.noiseRecorderMap[frequencyHz]? = some r → r.tryGet now valid timepoint ≠ some none := by
  cases m.noiseRecorderMap[frequencyHz]? with
  | none => simp [StaysInWindow, pure, Except.pure]
  | some r =>
      simp only [Option.some.injEq, forall_eq']
      rw [← recorderGet_stays_iff]
      exact staysInWindow_bind _ _

/-- A request, in terms of the recorder it asks. -/
theorem requestI_stays_iff (m : SpectrumMonitor) (now : ℤ) (frequencyHz : ℕ)
    (duration timepoint : ℤ) :
    StaysInWindow (m.requestI now frequencyHz duration timepoint) ↔
      (duration ≤ m.config.maxDuration ∨ m.config.maxClamp = true) ∧
        ∀ r, m.noiseRecorderMap[frequencyHz]? = some r →
          r.tryGet now (min duration m.config.maxDuration) timepoint ≠ some none := by
  have hrest := fun valid => request_stays_iff m now frequencyHz valid timepoint
  unfold requestI validDuration
  split
  · next hlong =>
      split
      · next hclamp =>
          rw [show min duration m.config.maxDuration = m.config.maxDuration by omega]
          exact (hrest m.config.maxDuration).trans
            ⟨fun h => ⟨Or.inr hclamp, h⟩, fun h => h.2⟩
      · next hclamp =>
          refine iff_of_false ?_ ?_
          · intro h
            exact h.1 rfl
          · rintro ⟨hle | hle, -⟩
            · omega
            · exact hclamp hle
  · next hshort =>
      rw [show min duration m.config.maxDuration = duration by omega]
      exact (hrest duration).trans ⟨fun h => ⟨Or.inl (by omega), h⟩, fun h => h.2⟩

/-- The lookup, in terms of the recorder it asks. -/
theorem receptionNoiseFloor_stays_iff (m : SpectrumMonitor) (now txTime propagation span : ℤ)
    (segment : ReportedSegment) :
    StaysInWindow (receptionNoiseFloor m now txTime propagation span segment) ↔
      (floorDuration span segment ≤ m.config.maxDuration ∨ m.config.maxClamp = true) ∧
        ∀ r, m.noiseRecorderMap[segment.frequencyHz]? = some r →
          r.tryGet (floorQueryTime now (floorStart txTime propagation segment)
              (floorDuration span segment))
            (min (floorDuration span segment) m.config.maxDuration)
            (floorStart txTime propagation segment) ≠ some none := by
  unfold receptionNoiseFloor
  rw [← requestI_stays_iff]
  exact staysInWindow_bind _ _

/-- The sizes of the recorders of a monitor. -/
theorem Shaped.sizes {m : SpectrumMonitor} (h : m.Shaped) (hc : WellTimed m.config) {f : ℕ}
    {r : NoiseRecorder} (hr : m.noiseRecorderMap[f]? = some r) :
    r.binSizeMicroseconds = m.config.binSize ∧
      r.totalWindowBins = m.config.maxDuration / m.config.binSize := by
  have hb := hc.bin_pos
  have hbD := hc.bin_le
  have hshape := h.shape f r hr
  refine ⟨hshape.binSize.trans (max_eq_left hb), hshape.window.trans ?_⟩
  show max ((max m.config.maxDuration (max m.config.binSize 1)).tdiv (max m.config.binSize 1)) 1 = _
  rw [max_eq_left hb, max_eq_left hbD, Int.tdiv_eq_ediv_of_nonneg (by omega)]
  exact max_eq_left (Int.le_ediv_of_mul_le (by omega) (by omega))

/-! ## Reports -/

/-- A segment adds at most itself to the report. -/
theorem segmentStep_reportable {masks : Masks} {t : Timed} {l l' : SegmentLoop} {s : Segment}
    (h : segmentStep masks t l s = some l') {segment : ReportedSegment}
    (hsegment : segment ∈ l'.reportable) :
    segment ∈ l.reportable ∨
      (segment.offsetMicrosec = s.offset ∧ segment.durationMicrosec = s.duration) := by
  unfold segmentStep at h
  split at h
  · cases h
    unfold simpleSegment at hsegment
    simp only at hsegment
    split at hsegment
    · split at hsegment
      · rcases List.mem_append.mp hsegment with hold | hnew
        · exact Or.inl hold
        · cases List.mem_singleton.mp hnew
          exact Or.inr ⟨rfl, rfl⟩
      · exact Or.inl hsegment
    · exact Or.inl hsegment
  · rcases hn : l.monitor.noiseRecords masks t.message s.shiftedFrequency with ⟨records, m⟩
    rw [recordSegment_eq masks t l s hn] at h
    obtain ⟨r, -, h⟩ := Option.bind_eq_some_iff.mp h
    obtain ⟨m', -, rfl⟩ := Option.map_eq_some_iff.mp h
    unfold finishSegment at hsegment
    simp only at hsegment
    split at hsegment
    · rcases List.mem_append.mp hsegment with hold | hnew
      · exact Or.inl hold
      · cases List.mem_singleton.mp hnew
        exact Or.inr ⟨rfl, rfl⟩
    · exact Or.inl hsegment

/-- What is reported passed the clamps. -/
theorem update_reported {masks : Masks} {m m' : SpectrumMonitor} {msg : Message} {report : Report}
    (hm : WellTimed m.config) (h : m.update masks msg = some (m', report))
    {segment : ReportedSegment} (hsegment : segment ∈ report.segments) :
    report.txTime = validTxTime m.config msg ∧ 0 ≤ report.propagation ∧
      0 ≤ segment.offsetMicrosec ∧ segment.durationMicrosec ≤ m.config.maxDuration := by
  have hduration : 0 ≤ m.config.maxDuration := by
    have := hm.bin_pos
    have := hm.bin_le
    omega
  rw [update_eq] at h
  split at h
  · cases h
    cases hsegment
  · cases hp : clampValue msg.propagationDelay m.config.maxPropagation m.config.maxClamp with
    | none =>
        rw [hp] at h
        cases h
        cases hsegment
    | some p =>
        rw [hp] at h
        obtain ⟨⟨l, clampError⟩, hrun, hfinish⟩ := Option.map_eq_some_iff.mp h
        cases clampError with
        | true =>
            cases hfinish
            cases hsegment
        | false =>
            cases hfinish
            -- the loop over the raw segments is the run over the accepted ones
            have hsteps := congrArg (Option.map (·.1)) hrun
            rw [updateSegments_eq] at hsteps
            have hall := runSteps_keeps_of_mem
              (I := fun l : SegmentLoop => ∀ x ∈ l.reportable,
                0 ≤ x.offsetMicrosec ∧ x.durationMicrosec ≤ m.config.maxDuration)
              (fun l s hs l' hl hstep x hx => by
                obtain ⟨ho, hd⟩ := acceptedSegments_bounds hm.offset_nonneg hduration hs
                rcases segmentStep_reportable hstep hx with hold | ⟨hoffset, hduration⟩
                · exact hl x hold
                · rw [hoffset, hduration]
                  exact ⟨ho.1, hd.2⟩)
              (fun x hx => absurd hx (List.not_mem_nil)) hsteps
            exact ⟨rfl, (clampValue_bounds hm.propagation_nonneg hp).1, hall segment hsegment⟩

/-! ## The lookup after a reception -/

/-- The start of a reception is never the time that stands for "as early as possible". -/
theorem floorStart_ne_min {config : Config} (hc : WellTimed config) {msg : Message}
    (hnow : 0 ≤ msg.now) {propagation : ℤ} (hp : 0 ≤ propagation) {segment : ReportedSegment}
    (ho : 0 ≤ segment.offsetMicrosec) :
    floorStart (validTxTime config msg) propagation segment ≠ NoiseRecorder.timepointMin := by
  have hle := hc.threshold_le
  have htx : -i64Max ≤ validTxTime config msg := by
    unfold validTxTime
    split
    · unfold i64Max
      omega
    · next hnear =>
        have habs := neg_abs_le (msg.txTime - msg.now)
        have hthreshold := hc.threshold_nonneg
        omega
  unfold floorStart PhyState.saturatingAdd NoiseRecorder.timepointMin i64Max i64Min at *
  omega

/-- The window ends at the time of the query or before exactly when its end is a 64-bit time. -/
theorem le_floorQueryTime_iff {now start duration d : ℤ} (hnow : now ≤ i64Max) (hd : d ≤ duration) :
    start + d ≤ floorQueryTime now start duration ↔ start + d ≤ i64Max := by
  unfold floorQueryTime PhyState.saturatingAdd i64Max i64Min at *
  omega

/-- **The lookup after a reception.** For every layer, every monitor with its parameters after any
messages, every message it then reports and every reported segment: the lookup stays in the window of
the recorder exactly when `FloorInWindow` holds. -/
theorem noise_floor_in_window_iff {p : Parsers} {sensitivity : ℕ → F64 → ℚ} {masks : Masks}
    {s : PhyState} (hs : Reached p sensitivity masks s) (frequenciesHz : List ℕ) (bandwidthHz : ℕ)
    {m₀ m m' : SpectrumMonitor} {msgs : List Message}
    (hrun : runSteps (messageStep masks)
      (m₀.initializeMonitor (s.monitorConfig sensitivity frequenciesHz bandwidthHz)) msgs = some m)
    {msg : Message} (hnow : 0 ≤ msg.now) (hnow64 : msg.now ≤ i64Max) {report : Report}
    (hupdate : m.update masks msg = some (m', report)) {segment : ReportedSegment}
    (hsegment : segment ∈ report.segments) :
    StaysInWindow (receptionNoiseFloor m' msg.now report.txTime report.propagation report.span
        segment) ↔
      FloorInWindow (s.monitorConfig sensitivity frequenciesHz bandwidthHz) msg.now report.txTime
        report.propagation report.span segment := by
  have hc := hs.wellTimed frequenciesHz bandwidthHz
  generalize s.monitorConfig sensitivity frequenciesHz bandwidthHz = config at hrun hc ⊢
  -- the monitor has the configuration and the recorders it was initialized with
  obtain ⟨hshaped, hconfig⟩ : m.Shaped ∧ m.config = config := by
    refine runSteps_keeps (I := fun m : SpectrumMonitor => m.Shaped ∧ m.config = config) ?_
      ⟨shaped_initializeMonitor m₀ config, rfl⟩ hrun
    intro m msg m' hm hstep
    obtain ⟨⟨m₁, report⟩, hupdate, rfl⟩ := Option.map_eq_some_iff.mp hstep
    exact ⟨hm.1.update hupdate, (update_frame hupdate).1.trans hm.2⟩
  subst hconfig
  have hshaped' := hshaped.update hupdate
  have hconfig' := (update_frame hupdate).1
  obtain ⟨htx, hpropagation, hoffset, hduration⟩ := update_reported hc hupdate hsegment
  have hmin := floorStart_ne_min hc hnow hpropagation hoffset
  rw [← htx] at hmin
  have hb := hc.bin_pos
  have hbD := hc.bin_le
  rw [receptionNoiseFloor_stays_iff, hconfig']
  rw [← hconfig'] at hc
  generalize hstart : floorStart report.txTime report.propagation segment = start at hmin ⊢
  -- only the span can be too long
  have hspan : floorDuration report.span segment ≤ m.config.maxDuration ↔
      report.span ≤ m.config.maxDuration := by
    unfold floorDuration
    omega
  -- a refusal of the recorder, in the sizes of the configuration
  have hserves : ∀ r, m'.noiseRecorderMap[segment.frequencyHz]? = some r →
      (r.tryGet (floorQueryTime msg.now start (floorDuration report.span segment))
        (min (floorDuration report.span segment) m.config.maxDuration) start ≠ some none ↔
      timepointToBin m.config.binSize
          (floorQueryTime msg.now start (floorDuration report.span segment)) true
        - start / m.config.binSize + 1 ≤ m.config.maxDuration / m.config.binSize ∧
      start + min (floorDuration report.span segment) m.config.maxDuration ≤ i64Max) := by
    intro r hr
    obtain ⟨hbin, hwindow⟩ := Shaped.sizes hshaped' hc hr
    rw [hconfig'] at hbin hwindow
    have hquery : 0 ≤ floorQueryTime msg.now start (floorDuration report.span segment) := by
      unfold floorQueryTime
      omega
    have hpositive : 1 ≤ min (floorDuration report.span segment) m.config.maxDuration := by
      unfold floorDuration
      omega
    rw [ne_eq, NoiseRecorder.tryGet_refuses_iff (by omega) hquery hpositive hmin, not_not, hbin,
      hwindow, le_floorQueryTime_iff hnow64 (min_le_left _ _)]
  have hrecorder : segment.frequencyHz ∈ m.config.foi ↔
      ∃ r, m'.noiseRecorderMap[segment.frequencyHz]? = some r := by
    rw [← hconfig', ← hshaped'.keys, ExtTreeMap.mem_iff_isSome_getElem?, Option.isSome_iff_exists]
  constructor
  · rintro ⟨hlong, hget⟩
    refine ⟨hlong.imp_left hspan.mp, ?_⟩
    intro hfoi
    obtain ⟨r, hr⟩ := hrecorder.mp hfoi
    rw [hstart]
    exact (hserves r hr).mp (hget r hr)
  · rintro ⟨hlong, hbins⟩
    rw [hstart] at hbins
    refine ⟨hlong.imp_left hspan.mpr, ?_⟩
    intro r hr
    exact (hserves r hr).mpr (hbins (hrecorder.mpr ⟨r, hr⟩))

/-! ## A layer with one frequency -/

/-- The monitor of the layer before its first message. -/
def smallMonitor : SpectrumMonitor :=
  SpectrumMonitor.new.initializeMonitor (smallLayer.monitorConfig flatSensitivity [1000] 100)

/-- A message in band with segments of one milliwatt. -/
def inBandMessage (now : ℤ) (segments : List FrequencySegment) : Message :=
  { messageAt now 1000 100 0 with
    inBand := true, segments := segments, rxPowersMilliWatt := segments.map fun _ => 1 }

/-- The monitor after its first message, and the report. -/
def received (msg : Message) : SpectrumMonitor × Report :=
  (smallMonitor.update oneMask msg).getD (smallMonitor, refused)

theorem update_eq_received {msg : Message}
    (h : (smallMonitor.update oneMask msg).isSome = true) :
    smallMonitor.update oneMask msg = some ((received msg).1, (received msg).2) := by
  obtain ⟨x, hx⟩ := Option.isSome_iff_exists.mp h
  unfold received
  rw [hx]
  rfl

/-- A message of one segment of `20` microseconds that starts with a bin. -/
def alignedMessage : Message := inBandMessage 1000 [⟨1000, 20, 0⟩]

theorem noise_floor_in_window_aligned :
    (received alignedMessage).2.segments.length = 1 ∧
      ∀ segment ∈ (received alignedMessage).2.segments,
        StaysInWindow (receptionNoiseFloor (received alignedMessage).1 alignedMessage.now
          (received alignedMessage).2.txTime (received alignedMessage).2.propagation
          (received alignedMessage).2.span segment) := by
  refine ⟨by decide +kernel, ?_⟩
  have hin : ∀ segment ∈ (received alignedMessage).2.segments,
      FloorInWindow (smallLayer.monitorConfig flatSensitivity [1000] 100) alignedMessage.now
        (received alignedMessage).2.txTime (received alignedMessage).2.propagation
        (received alignedMessage).2.span segment := by
    decide +kernel
  have hrun : runSteps (messageStep oneMask) (SpectrumMonitor.new.initializeMonitor
      (smallLayer.monitorConfig flatSensitivity [1000] 100)) [] = some smallMonitor := rfl
  have hupdate := update_eq_received
    (show (smallMonitor.update oneMask alignedMessage).isSome = true by decide +kernel)
  intro segment hsegment
  exact (noise_floor_in_window_iff reached_smallLayer [1000] 100 hrun (by decide) (by decide) hupdate
    hsegment).mpr (hin segment hsegment)

/-- The lookups for the segments of a message that was recorded without a clamp error and is reported
in band. -/
def lookups (now : ℤ) (segments : List FrequencySegment) : List (Except RequestPanic ℚ) :=
  let x := received (inBandMessage now segments)
  if x.1.lastUpdateClampError || !x.2.asInBand then []
  else x.2.segments.map (receptionNoiseFloor x.1 now x.2.txTime x.2.propagation x.2.span)

/-- Segments are at most `100` microseconds long, in `10` bins. Two segments of that length, one `10`
microseconds after the other, make the duration of both lookups too long; a single one that starts
within a bin touches `11` bins. -/
theorem noise_floor_leaves_window :
    Reached decimalParsers flatSensitivity oneMask smallLayer ∧
      lookups 1000 [⟨1000, 100, 0⟩, ⟨1000, 100, 10⟩] =
        [.error .durationTooLong, .error .durationTooLong] ∧
      lookups 1005 [⟨1000, 100, 0⟩] = [.error .invalidWindow] := by
  refine ⟨reached_smallLayer, ?_, ?_⟩
  · decide +kernel
  · decide +kernel

end Emane.Phy
