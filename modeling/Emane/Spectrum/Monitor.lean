import Emane.Noise.Recorder
import Emane.Spectrum.Mask

set_option autoImplicit false

/-! # The spectrum monitor

`SpectrumMonitor` of `spectrum_monitor.rs`: one noise recorder per frequency of interest, one per
filter, and caches of the spectral overlaps for both. `none` is a panic of a recorder or of the
monitor. A filter match criterion is a function of its arguments (a null pointer is `none`).

`update` is cut along its source: the lookup of the overlap records (`noiseRecords`), the loop over
the recorders (`applyRecords`), the filters (`applyEnergyToFilters`) and the loop over the segments
(`updateSegments`). The reported powers stay in milliwatt; the conversion to dBm is left out.
-/

namespace Emane.Spectrum

open Std Emane.Noise

inductive NoiseMode where
  | none
  | all
  | outOfBand
  | passThrough
deriving DecidableEq

/-- A filter match criterion: frequency, overlap bandwidth, sub id and filter data to a verdict. -/
abbrev Criterion := Option (ℕ → ℕ → ℕ → List ℕ → Bool)

/-- The overlap of a segment with the recorder of one frequency. -/
structure NoiseRecord where
  frequency : ℕ
  overlap : MaskOverlap
  lower : ℕ
  upper : ℕ
deriving DecidableEq

/-- The overlap of a segment with one filter. -/
structure FilterRecord where
  index : ℕ
  overlap : MaskOverlap
  txFrequency : ℕ
  criterion : Criterion
  lower : ℕ
  upper : ℕ

/-- The value type of the four caches: records by shifted frequency, and the frequencies for which
some recorder had no overlap. -/
structure CacheEntry (ρ : Type) where
  frequencies : ExtTreeMap ℕ (List ρ)
  noOverlap : ExtTreeSet ℕ

def CacheEntry.empty (ρ : Type) : CacheEntry ρ := ⟨∅, ∅⟩

/-- A filter with its recorder. -/
structure Filter where
  frequencyHz : ℕ
  bandwidthHz : ℕ
  recorder : NoiseRecorder
  criterion : Criterion

/-- The arguments of `initialize`. -/
structure Config where
  subId : ℕ
  foi : List ℕ
  bandwidthHz : ℕ
  receiverSensitivityMilliWatt : ℚ
  mode : NoiseMode
  binSize : ℤ
  maxOffset : ℤ
  maxPropagation : ℤ
  maxDuration : ℤ
  timeSyncThreshold : ℤ
  maxClamp : Bool
  excludeSameSubIdFromFilter : Bool

/-- The state of the monitor. `initialize` writes all the values of its arguments, so they are kept
together. -/
structure SpectrumMonitor where
  config : Config
  lastUpdateClampError : Bool
  transmitterBandwidthCache : ExtTreeMap ℕ (CacheEntry NoiseRecord)
  transmitterSpectralMaskCache : ExtTreeMap ℕ (CacheEntry NoiseRecord)
  noiseRecorderMap : ExtTreeMap ℕ NoiseRecorder
  filterNoiseRecorderMap : ExtTreeMap ℕ Filter
  filterTransmitterBandwidthCache : ExtTreeMap ℕ (CacheEntry FilterRecord)
  filterTransmitterSpectralMaskCache : ExtTreeMap ℕ (CacheEntry FilterRecord)

/-- A segment of a message; the power of an incoming segment is given beside it. -/
structure FrequencySegment where
  frequencyHz : ℕ
  durationMicrosec : ℤ
  offsetMicrosec : ℤ

/-- A segment of the report of `update`. -/
structure ReportedSegment where
  frequencyHz : ℕ
  rxPowerMilliWatt : ℚ
  durationMicrosec : ℤ
  offsetMicrosec : ℤ

/-- The arguments of `update`. -/
structure Message where
  now : ℤ
  txTime : ℤ
  propagationDelay : ℤ
  dopplerFactor : ℚ
  segments : List FrequencySegment
  segmentBandwidthHz : ℕ
  rxPowersMilliWatt : List ℚ
  inBand : Bool
  transmitters : List ℕ
  subId : ℕ
  txAntennaIndex : ℕ
  spectralMaskIndex : ℕ
  filterData : List ℕ

/-- The result of `update`. -/
structure Report where
  txTime : ℤ
  propagation : ℤ
  span : ℤ
  segments : List ReportedSegment
  asInBand : Bool
  sensitivityMilliWatt : ℚ

def i64Max : ℤ := 9223372036854775807

def i64Min : ℤ := -9223372036854775808

/-- `clamp_value`. -/
def clampValue (value maximum : ℤ) (clamp : Bool) : Option ℤ :=
  if value < 0 then none
  else if value > maximum then if clamp then some maximum else none
  else some value

/-- `f64::round`: half away from zero. -/
def roundAway (x : ℚ) : ℤ := if 0 ≤ x then ⌊x + 1 / 2⌋ else ⌈x - 1 / 2⌉

/-- `apply_doppler`, with the clamp of `doppler_shift`. -/
def applyDoppler (frequency : ℕ) (factor : ℚ) : ℕ :=
  let shift := max i64Min (min i64Max (roundAway (frequency * factor)))
  min (((frequency : ℤ) + shift).toNat) u64Max

/-- `filter_matches`. -/
def filterMatches (criterion : Criterion) (originalTxFrequency overlapBandwidth subId : ℕ)
    (filterData : List ℕ) : Bool :=
  match criterion with
  | none => true
  | some f => f originalTxFrequency overlapBandwidth subId filterData

namespace SpectrumMonitor

/-- `SpectrumMonitor::new`. -/
def new : SpectrumMonitor :=
  { config :=
      { subId := 0, foi := [], bandwidthHz := 0, receiverSensitivityMilliWatt := 0
        mode := .none, binSize := 0, maxOffset := 0, maxPropagation := 0, maxDuration := 0
        timeSyncThreshold := 0, maxClamp := false, excludeSameSubIdFromFilter := false }
    lastUpdateClampError := false
    transmitterBandwidthCache := ∅
    transmitterSpectralMaskCache := ∅
    noiseRecorderMap := ∅
    filterNoiseRecorderMap := ∅
    filterTransmitterBandwidthCache := ∅
    filterTransmitterSpectralMaskCache := ∅ }

/-- The recorder `initialize` creates for a frequency of interest. -/
def recorderFor (config : Config) (frequency : ℕ) : NoiseRecorder :=
  NoiseRecorder.new config.binSize config.maxOffset config.maxPropagation config.maxDuration
    frequency config.bandwidthHz 0

/-- The recorders `initialize` creates. -/
def initialRecorders (config : Config) : ExtTreeMap ℕ NoiseRecorder :=
  config.foi.foldl (fun map frequency => map.insert frequency (recorderFor config frequency)) ∅

/-- `SpectrumMonitor::initialize`. The spectral mask cache and the filters are left alone. -/
def initializeMonitor (m : SpectrumMonitor) (config : Config) : SpectrumMonitor :=
  { m with
    config := config
    transmitterBandwidthCache :=
      (∅ : ExtTreeMap ℕ (CacheEntry NoiseRecord)).insert config.bandwidthHz (CacheEntry.empty _)
    noiseRecorderMap := initialRecorders config }

/-- `SpectrumMonitor::initialize_filter`. -/
def initializeFilter (m : SpectrumMonitor) (index frequencyHz bandwidthHz bandwidthBinSizeHz : ℕ)
    (criterion : Criterion) : Option SpectrumMonitor :=
  if index ∈ m.filterNoiseRecorderMap then none
  else some { m with
    filterTransmitterBandwidthCache := ∅
    filterTransmitterSpectralMaskCache := ∅
    filterNoiseRecorderMap := m.filterNoiseRecorderMap.insert index
      { frequencyHz := frequencyHz
        bandwidthHz := bandwidthHz
        recorder := NoiseRecorder.new m.config.binSize m.config.maxOffset m.config.maxPropagation
          m.config.maxDuration frequencyHz bandwidthHz bandwidthBinSizeHz
        criterion := criterion } }

/-- `SpectrumMonitor::remove_filter`. -/
def removeFilter (m : SpectrumMonitor) (index : ℕ) : SpectrumMonitor :=
  if index ∈ m.filterNoiseRecorderMap then
    { m with
      filterTransmitterBandwidthCache := ∅
      filterTransmitterSpectralMaskCache := ∅
      filterNoiseRecorderMap := m.filterNoiseRecorderMap.erase index }
  else m

/-! ## One segment -/

/-- A segment after the clamps, with its power and the Doppler-shifted frequency. -/
structure Segment where
  frequencyHz : ℕ
  offset : ℤ
  duration : ℤ
  shiftedFrequency : ℕ
  rxPowerMw : ℚ

/-- The message with its validated times. -/
structure Timed where
  message : Message
  validTxTime : ℤ
  validPropagation : ℤ

def cacheKey (msg : Message) : ℕ :=
  if msg.spectralMaskIndex = 0 then msg.segmentBandwidthHz else msg.spectralMaskIndex

/-- The overlap of a segment with a receive band. -/
def overlapWith (masks : Masks) (msg : Message) (shiftedFrequency rxFrequency rxBandwidth : ℕ) :
    Option MaskOverlap :=
  getSpectralOverlap masks shiftedFrequency rxFrequency rxBandwidth msg.segmentBandwidthHz
    msg.spectralMaskIndex

/-- The records computed for a segment on a cache miss. -/
def computeRecords (masks : Masks) (m : SpectrumMonitor) (msg : Message) (shiftedFrequency : ℕ) :
    List NoiseRecord :=
  m.noiseRecorderMap.keys.filterMap fun frequency =>
    (overlapWith masks msg shiftedFrequency frequency m.config.bandwidthHz).map fun overlap =>
      ⟨frequency, overlap, overlap.lower, overlap.upper⟩

/-- The cache a message uses. -/
def recordCache (m : SpectrumMonitor) (msg : Message) : ExtTreeMap ℕ (CacheEntry NoiseRecord) :=
  if msg.spectralMaskIndex = 0 then m.transmitterBandwidthCache else m.transmitterSpectralMaskCache

def setRecordCache (m : SpectrumMonitor) (msg : Message)
    (cache : ExtTreeMap ℕ (CacheEntry NoiseRecord)) : SpectrumMonitor :=
  if msg.spectralMaskIndex = 0 then { m with transmitterBandwidthCache := cache }
  else { m with transmitterSpectralMaskCache := cache }

/-- The cached records of a segment, if its frequency was seen before. -/
def cachedRecords (m : SpectrumMonitor) (msg : Message) (shiftedFrequency : ℕ) :
    Option (List NoiseRecord) :=
  let entry := ((m.recordCache msg)[cacheKey msg]?).getD (CacheEntry.empty _)
  match entry.frequencies[shiftedFrequency]? with
  | some records => some records
  | none => if shiftedFrequency ∈ entry.noOverlap then some [] else none

/-- The records of a segment: from the cache, or computed and stored. -/
def noiseRecords (masks : Masks) (m : SpectrumMonitor) (msg : Message) (shiftedFrequency : ℕ) :
    List NoiseRecord × SpectrumMonitor :=
  match m.cachedRecords msg shiftedFrequency with
  | some records => (records, m)
  | none =>
      let records := m.computeRecords masks msg shiftedFrequency
      let foundNoOverlap := m.noiseRecorderMap.keys.any fun frequency =>
        (overlapWith masks msg shiftedFrequency frequency m.config.bandwidthHz).isNone
      let entry := ((m.recordCache msg)[cacheKey msg]?).getD (CacheEntry.empty _)
      let entry : CacheEntry NoiseRecord :=
        { frequencies :=
            if records.isEmpty then entry.frequencies
            else entry.frequencies.insert shiftedFrequency records
          noOverlap :=
            if foundNoOverlap then entry.noOverlap.insert shiftedFrequency else entry.noOverlap }
      (records, m.setRecordCache msg ((m.recordCache msg).insert (cacheKey msg) entry))

/-- The arguments of the recorder update for a segment. -/
def updateCall (t : Timed) (s : Segment) (power : ℚ) (lower upper : ℕ) (isMore : Bool) :
    UpdateCall :=
  { now := t.message.now
    txTime := t.validTxTime
    offset := s.offset
    propagation := t.validPropagation
    duration := s.duration
    rxPower := power
    transmitters := t.message.transmitters
    startFrequencyHz := lower
    endFrequencyHz := upper
    txAntennaIndex := t.message.txAntennaIndex
    isMore := isMore }

/-- The state of the loop over the records. -/
structure RecordLoop where
  map : ExtTreeMap ℕ NoiseRecorder
  overlapPower : ℚ
  frequencyMatch : Bool
  aboveSensitivity : Bool
  startOfReception : ℤ
  endOfReception : ℤ

/-- One iteration of `for (recorder_frequency, overlap, lower, upper) in &records`. The overlap power
is accumulated over the records. -/
def applyRecord (sensitivity : ℚ) (t : Timed) (s : Segment) (l : RecordLoop) (record : NoiseRecord) :
    Option RecordLoop :=
  let overlapPower := l.overlapPower + overlapPowerMw record.overlap s.rxPowerMw
  let frequencyMatch := l.frequencyMatch || record.frequency == s.frequencyHz
  if overlapPower ≥ sensitivity then
    match l.map[record.frequency]? with
    | some recorder => do
        let (recorder, sor, eor) ←
          recorder.update (updateCall t s overlapPower record.lower record.upper false)
        some
          { map := l.map.insert record.frequency recorder
            overlapPower := overlapPower
            frequencyMatch := frequencyMatch
            aboveSensitivity := true
            startOfReception := sor
            endOfReception := eor }
    | none =>
        some { l with
          overlapPower := overlapPower
          frequencyMatch := frequencyMatch
          aboveSensitivity := true }
  else some { l with overlapPower := overlapPower, frequencyMatch := frequencyMatch }

def applyRecords (sensitivity : ℚ) (t : Timed) (s : Segment) (map : ExtTreeMap ℕ NoiseRecorder)
    (records : List NoiseRecord) : Option RecordLoop :=
  records.foldlM (applyRecord sensitivity t s) ⟨map, 0, false, false, 0, 0⟩

/-! ## Filters -/

def filterCache (m : SpectrumMonitor) (msg : Message) : ExtTreeMap ℕ (CacheEntry FilterRecord) :=
  if msg.spectralMaskIndex = 0 then m.filterTransmitterBandwidthCache
  else m.filterTransmitterSpectralMaskCache

def setFilterCache (m : SpectrumMonitor) (msg : Message)
    (cache : ExtTreeMap ℕ (CacheEntry FilterRecord)) : SpectrumMonitor :=
  if msg.spectralMaskIndex = 0 then { m with filterTransmitterBandwidthCache := cache }
  else { m with filterTransmitterSpectralMaskCache := cache }

/-- The criterion of a record against a message. -/
def recordMatches (m : SpectrumMonitor) (msg : Message) (s : Segment) (criterion : Criterion)
    (lower upper : ℕ) : Bool :=
  filterMatches criterion s.frequencyHz (upper - lower)
    (if msg.subId = m.config.subId then 0 else msg.subId) msg.filterData

/-- The loop over the segments of an overlap for a recorder with sub-bands; `index` counts the
segments seen. The cached path scales by the overlap ratio. -/
def applySubBands (t : Timed) (s : Segment) (cached : Bool) (total : ℕ) :
    List SpectralSegment → ℕ → NoiseRecorder → Option NoiseRecorder
  | [], _, recorder => some recorder
  | segment :: segments, index, recorder => do
      let power := s.rxPowerMw * segment.modifier * if cached then segment.ratio else 1
      let (recorder, _) ← recorder.update
        (updateCall t s power segment.lower segment.upper (decide (index + 1 ≠ total)))
      applySubBands t s cached total segments (index + 1) recorder

/-- What a matching record does to the recorder of its filter. -/
def applyOverlap (sensitivity : ℚ) (t : Timed) (s : Segment) (cached : Bool) (overlap : MaskOverlap)
    (lower upper : ℕ) (recorder : NoiseRecorder) : Option NoiseRecorder :=
  let aggregatePower := overlapPowerMw overlap s.rxPowerMw
  if aggregatePower < sensitivity then some recorder
  else if recorder.totalSubBandBins > 1 then
    applySubBands t s cached overlap.total (overlap.overlaps.flatMap (·.segments)) 0 recorder
  else (recorder.update (updateCall t s aggregatePower lower upper false)).map (·.1)

/-- `apply_filter_record`. -/
def applyFilterRecord (m : SpectrumMonitor) (t : Timed) (s : Segment) (cached checkMatch : Bool)
    (record : FilterRecord) : Option SpectrumMonitor :=
  match m.filterNoiseRecorderMap[record.index]? with
  | none => some m
  | some filter =>
      if checkMatch && !m.recordMatches t.message s record.criterion record.lower record.upper then
        some m
      else do
        let recorder ← applyOverlap m.config.receiverSensitivityMilliWatt t s cached record.overlap
          record.lower record.upper filter.recorder
        some { m with
          filterNoiseRecorderMap :=
            m.filterNoiseRecorderMap.insert record.index { filter with recorder := recorder } }

/-- One iteration of the slow path: the filter's overlap is computed, applied and kept. -/
def applyFilter (masks : Masks) (t : Timed) (s : Segment)
    (st : SpectrumMonitor × List FilterRecord) (x : ℕ × Filter) :
    Option (SpectrumMonitor × List FilterRecord) :=
  match overlapWith masks t.message s.shiftedFrequency x.2.frequencyHz x.2.bandwidthHz with
  | none => some st
  | some overlap =>
      if overlap.overlaps.isEmpty ||
          !st.1.recordMatches t.message s x.2.criterion overlap.lower overlap.upper then
        some st
      else do
        let record : FilterRecord :=
          { index := x.1
            overlap := overlap
            txFrequency := s.frequencyHz
            criterion := x.2.criterion
            lower := overlap.lower
            upper := overlap.upper }
        let m ← st.1.applyFilterRecord t s false false record
        some (m, st.2 ++ [record])

/-- `apply_energy_to_filters`. -/
def applyEnergyToFilters (masks : Masks) (t : Timed) (s : Segment) (m : SpectrumMonitor) :
    Option SpectrumMonitor :=
  let entry := ((m.filterCache t.message)[cacheKey t.message]?).getD (CacheEntry.empty _)
  match entry.frequencies[s.shiftedFrequency]? with
  | some records => records.foldlM (fun m record => m.applyFilterRecord t s true true record) m
  | none => do
      let (m', records) ← m.filterNoiseRecorderMap.toList.foldlM (applyFilter masks t s) (m, [])
      let entry := { entry with frequencies := entry.frequencies.insert s.shiftedFrequency records }
      some (m'.setFilterCache t.message ((m'.filterCache t.message).insert (cacheKey t.message) entry))

/-! ## The update -/

/-- The state of the loop over the segments. -/
structure SegmentLoop where
  monitor : SpectrumMonitor
  reportAsInBand : Bool
  reportable : List ReportedSegment
  minimumSor : ℤ
  maximumEor : ℤ

/-- The modes in which `update` records nothing. -/
def simpleMode (config : Config) (msg : Message) : Bool :=
  config.mode == .none || config.mode == .passThrough || (config.mode == .outOfBand && msg.inBand)

/-- The body of the segment loop in a simple mode. -/
def simpleSegment (masks : Masks) (t : Timed) (l : SegmentLoop) (s : Segment) : SegmentLoop :=
  let m := l.monitor
  if m.config.mode == .passThrough || decide (s.frequencyHz ∈ m.noiseRecorderMap) then
    let overlapPower :=
      ((overlapWith masks t.message s.shiftedFrequency s.frequencyHz m.config.bandwidthHz).map
        (overlapPowerMw · s.rxPowerMw)).getD 0
    if overlapPower ≥ m.config.receiverSensitivityMilliWatt then
      let sor := t.validTxTime + s.offset + t.validPropagation
      { l with
        minimumSor := min l.minimumSor sor
        maximumEor := max l.maximumEor (sor + s.duration)
        reportable := l.reportable ++ [⟨s.frequencyHz, overlapPower, s.duration, s.offset⟩] }
    else l
  else { l with reportAsInBand := false }

/-- The body of the segment loop in a recording mode. -/
def recordSegment (masks : Masks) (t : Timed) (l : SegmentLoop) (s : Segment) :
    Option SegmentLoop := do
  let (records, m) := l.monitor.noiseRecords masks t.message s.shiftedFrequency
  let r ← applyRecords m.config.receiverSensitivityMilliWatt t s m.noiseRecorderMap records
  let m := { m with noiseRecorderMap := r.map }
  let m ←
    if !m.config.excludeSameSubIdFromFilter || decide (m.config.subId ≠ t.message.subId) then
      applyEnergyToFilters masks t s m
    else some m
  let reported := r.frequencyMatch && r.aboveSensitivity
  some
    { monitor := m
      reportAsInBand := l.reportAsInBand || (t.message.inBand && r.frequencyMatch)
      reportable :=
        if reported then l.reportable ++ [⟨s.frequencyHz, r.overlapPower, s.duration, s.offset⟩]
        else l.reportable
      minimumSor := if reported then min l.minimumSor r.startOfReception else l.minimumSor
      maximumEor := if reported then max l.maximumEor r.endOfReception else l.maximumEor }

def segmentStep (masks : Masks) (t : Timed) (l : SegmentLoop) (s : Segment) : Option SegmentLoop :=
  if simpleMode l.monitor.config t.message then some (simpleSegment masks t l s)
  else recordSegment masks t l s

/-- The clamps of a segment; `none` is a clamp error. -/
def clampSegment (config : Config) (msg : Message) (x : FrequencySegment × ℚ) : Option Segment := do
  let offset ← clampValue x.1.offsetMicrosec config.maxOffset config.maxClamp
  let duration ← clampValue x.1.durationMicrosec config.maxDuration config.maxClamp
  some
    { frequencyHz := x.1.frequencyHz
      offset := offset
      duration := duration
      shiftedFrequency := applyDoppler x.1.frequencyHz msg.dopplerFactor
      rxPowerMw := x.2 }

/-- The loop over the segments; the flag is set when a clamp error ends it early. -/
def updateSegments (masks : Masks) (t : Timed) :
    SegmentLoop → List (FrequencySegment × ℚ) → Option (SegmentLoop × Bool)
  | l, [] => some (l, false)
  | l, x :: xs =>
      match clampSegment l.monitor.config t.message x with
      | none => some (l, true)
      | some s => do
          let l ← segmentStep masks t l s
          updateSegments masks t l xs

/-- The reply to a message that is refused. -/
def refused : Report := ⟨0, 0, 0, [], false, 0⟩

/-- The transmit time, replaced by `now` when the clocks are too far apart. -/
def validTxTime (config : Config) (msg : Message) : ℤ :=
  if |msg.txTime - msg.now| > max config.timeSyncThreshold 0 then msg.now else msg.txTime

/-- The state before the segment loop. -/
def startLoop (m : SpectrumMonitor) (msg : Message) : SegmentLoop :=
  { monitor := { m with lastUpdateClampError := false }
    reportAsInBand := simpleMode m.config msg
    reportable := []
    minimumSor := i64Max
    maximumEor := i64Min }

/-- `SpectrumMonitor::update`. -/
def update (masks : Masks) (m : SpectrumMonitor) (msg : Message) :
    Option (SpectrumMonitor × Report) :=
  let m := { m with lastUpdateClampError := false }
  if msg.segments.length ≠ msg.rxPowersMilliWatt.length then some (m, refused)
  else
    match clampValue msg.propagationDelay m.config.maxPropagation m.config.maxClamp with
    | none => some ({ m with lastUpdateClampError := true }, refused)
    | some validPropagation => do
        let t : Timed := ⟨msg, validTxTime m.config msg, validPropagation⟩
        let (l, clampError) ←
          updateSegments masks t (m.startLoop msg) (msg.segments.zip msg.rxPowersMilliWatt)
        if clampError then some ({ l.monitor with lastUpdateClampError := true }, refused)
        else
          let span :=
            if l.minimumSor = i64Max ∨ l.maximumEor = i64Min then 0 else l.maximumEor - l.minimumSor
          some (l.monitor,
            ⟨t.validTxTime, t.validPropagation, span, l.reportable, l.reportAsInBand,
              m.config.receiverSensitivityMilliWatt⟩)

end SpectrumMonitor

end Emane.Spectrum
