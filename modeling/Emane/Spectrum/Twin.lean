import Emane.Spectrum.OverlapCache

set_option autoImplicit false

/-! # Monitors that differ in the bandwidth cache

Two monitors that differ only in their cache of overlaps by transmitter bandwidth, with both caches
right for the common configuration, cannot be told apart: a message changes them in the same way and
they report the same (`Twin.update`). In particular emptying the cache changes nothing that can be
seen.
-/

namespace Emane.Spectrum

open Std Emane.Lib Emane.Noise

namespace SpectrumMonitor

/-- The monitor with another bandwidth cache. -/
def withCache (m : SpectrumMonitor) (cache : ExtTreeMap ℕ (CacheEntry NoiseRecord)) :
    SpectrumMonitor :=
  { m with transmitterBandwidthCache := cache }

/-- The recorders are those of the configuration, and what the bandwidth cache has is right for it. -/
structure Sane (masks : Masks) (m : SpectrumMonitor) : Prop where
  keys : m.KeysOk
  bandwidth : ∀ msg φ records, msg.spectralMaskIndex = 0 → m.cachedRecords msg φ = some records →
    records = recordsUnder masks m.config msg φ

/-- The monitors differ in the bandwidth cache at most. -/
structure Twin (masks : Masks) (m m' : SpectrumMonitor) : Prop where
  eq : ∃ cache, m' = m.withCache cache
  sane : m.Sane masks
  sane' : m'.Sane masks

/-! ## The lookup -/

section

variable {masks : Masks} {m m' : SpectrumMonitor}

/-- A lookup keeps the cache right. -/
theorem Sane.lookup (h : m.Sane masks) (msg : Message) (φ : ℕ) :
    (m.noiseRecords masks msg φ).2.Sane masks := by
  obtain ⟨hconfig, hmap⟩ := noiseRecords_frame masks m msg φ
  cases hcached : m.cachedRecords msg φ with
  | some records =>
      have hres : m.noiseRecords masks msg φ = (records, m) := by
        unfold noiseRecords
        rw [hcached]
      rw [hres]
      exact h
  | none =>
      have hread := h.keys.cachedRecords_noiseRecords masks hcached
      refine ⟨?_, ?_⟩
      · intro f
        rw [hconfig, hmap]
        exact h.keys f
      · intro msg' φ' records h₀ hrec
        rw [hread] at hrec
        rw [hconfig]
        split at hrec
        next hsame =>
            obtain ⟨hkey, rfl⟩ := hsame
            split at hrec
            · cases hrec
            · rw [← Option.some.inj hrec]
              exact recordsUnder_sameKey hkey m.config φ
        next hsame => exact h.bandwidth msg' φ' records h₀ hrec

/-- A lookup by bandwidth gives the records of the configuration. -/
theorem Sane.records (h : m.Sane masks) {msg : Message} (hmask : msg.spectralMaskIndex = 0) (φ : ℕ) :
    (m.noiseRecords masks msg φ).1 = recordsUnder masks m.config msg φ := by
  unfold noiseRecords
  split
  · next records hrec => exact h.bandwidth msg φ records hmask hrec
  · exact h.keys.computeRecords_eq masks msg φ

/-- A lookup by bandwidth changes the bandwidth cache only. -/
theorem noiseRecords_withCache (masks : Masks) (m : SpectrumMonitor) {msg : Message}
    (hmask : msg.spectralMaskIndex = 0) (φ : ℕ) :
    ∃ cache, (m.noiseRecords masks msg φ).2 = m.withCache cache := by
  have hset : ∀ cache, m.setRecordCache msg cache = m.withCache cache := by
    intro cache
    unfold setRecordCache
    rw [if_pos hmask]
    rfl
  unfold noiseRecords
  split
  · exact ⟨m.transmitterBandwidthCache, rfl⟩
  · exact ⟨_, hset _⟩

/-- A lookup by spectral mask does not use the bandwidth cache. -/
theorem noiseRecords_of_mask (masks : Masks) (m : SpectrumMonitor) {msg : Message}
    (hmask : msg.spectralMaskIndex ≠ 0) (φ : ℕ) (cache : ExtTreeMap ℕ (CacheEntry NoiseRecord)) :
    (m.withCache cache).noiseRecords masks msg φ =
      ((m.noiseRecords masks msg φ).1, (m.noiseRecords masks msg φ).2.withCache cache) := by
  have hcached : (m.withCache cache).cachedRecords msg φ = m.cachedRecords msg φ := by
    rw [cachedRecords_eq, cachedRecords_eq]
    unfold recordCache
    rw [if_neg hmask, if_neg hmask]
    rfl
  unfold noiseRecords
  rw [hcached]
  cases m.cachedRecords msg φ with
  | some records => rfl
  | none =>
      simp only [setRecordCache, recordCache, if_neg hmask]
      rfl

/-- **A lookup** gives twins the same records and leaves them twins. -/
theorem Twin.lookup (h : Twin masks m m') (msg : Message) (φ : ℕ) :
    (m'.noiseRecords masks msg φ).1 = (m.noiseRecords masks msg φ).1 ∧
      Twin masks (m.noiseRecords masks msg φ).2 (m'.noiseRecords masks msg φ).2 := by
  obtain ⟨⟨cache, hcache⟩, hsane, hsane'⟩ := h
  by_cases hmask : msg.spectralMaskIndex = 0
  · refine ⟨?_, ?_, hsane.lookup msg φ, hsane'.lookup msg φ⟩
    · rw [hsane.records hmask, hsane'.records hmask, hcache]
      rfl
    · obtain ⟨c₁, h₁⟩ := noiseRecords_withCache masks m hmask φ
      obtain ⟨c₂, h₂⟩ := noiseRecords_withCache masks m' hmask φ
      refine ⟨c₂, ?_⟩
      rw [h₁, h₂, hcache]
      rfl
  · have hres := noiseRecords_of_mask masks m hmask φ cache
    rw [← hcache] at hres
    refine ⟨?_, ⟨cache, ?_⟩, hsane.lookup msg φ, hsane'.lookup msg φ⟩
    · rw [hres]
    · rw [hres]

end

/-! ## The filters -/

section

variable (cache : ExtTreeMap ℕ (CacheEntry NoiseRecord))

/-- A fold whose steps commute with a map of the state commutes with it. -/
theorem foldlM_comm {σ α : Type} {f : σ → α → Option σ} {g : σ → σ}
    (h : ∀ x a, f (g x) a = (f x a).map g) (as : List α) (x : σ) :
    as.foldlM f (g x) = (as.foldlM f x).map g := by
  induction as generalizing x with
  | nil => rfl
  | cons a as ih =>
      rw [List.foldlM_cons, List.foldlM_cons, h]
      cases f x a with
      | none => rfl
      | some y => exact ih y

theorem applyFilterRecord_withCache (m : SpectrumMonitor) (t : Timed) (s : Segment)
    (cached checkMatch : Bool) (record : FilterRecord) :
    (m.withCache cache).applyFilterRecord t s cached checkMatch record =
      (m.applyFilterRecord t s cached checkMatch record).map (·.withCache cache) := by
  unfold applyFilterRecord
  have hfilter : (m.withCache cache).filterNoiseRecorderMap[record.index]? =
      m.filterNoiseRecorderMap[record.index]? := rfl
  rw [hfilter]
  cases m.filterNoiseRecorderMap[record.index]? with
  | none => rfl
  | some filter =>
      simp only
      by_cases hskip : (checkMatch && !m.recordMatches t.message s record.criterion record.lower
          record.upper) = true
      · have hskip' : (checkMatch && !(m.withCache cache).recordMatches t.message s record.criterion
          record.lower record.upper) = true := hskip
        rw [if_pos hskip, if_pos hskip']
        rfl
      · have hskip' : ¬ (checkMatch && !(m.withCache cache).recordMatches t.message s
          record.criterion record.lower record.upper) = true := hskip
        rw [if_neg hskip, if_neg hskip']
        show (applyOverlap m.config.receiverSensitivityMilliWatt t s cached record.overlap
          record.lower record.upper filter.recorder >>= _) = _
        cases applyOverlap m.config.receiverSensitivityMilliWatt t s cached record.overlap
          record.lower record.upper filter.recorder with
        | none => rfl
        | some recorder => rfl

theorem applyFilter_withCache (masks : Masks) (t : Timed) (s : Segment)
    (st : SpectrumMonitor × List FilterRecord) (x : ℕ × Filter) :
    applyFilter masks t s (st.1.withCache cache, st.2) x =
      (applyFilter masks t s st x).map fun st => (st.1.withCache cache, st.2) := by
  unfold applyFilter
  cases overlapWith masks t.message s.shiftedFrequency x.2.frequencyHz x.2.bandwidthHz with
  | none => rfl
  | some overlap =>
      simp only
      by_cases hskip : (overlap.overlaps.isEmpty ||
          !st.1.recordMatches t.message s x.2.criterion overlap.lower overlap.upper) = true
      · have hskip' : (overlap.overlaps.isEmpty || !(st.1.withCache cache).recordMatches t.message s
          x.2.criterion overlap.lower overlap.upper) = true := hskip
        rw [if_pos hskip, if_pos hskip']
        rfl
      · have hskip' : ¬ (overlap.overlaps.isEmpty || !(st.1.withCache cache).recordMatches t.message
          s x.2.criterion overlap.lower overlap.upper) = true := hskip
        rw [if_neg hskip, if_neg hskip', applyFilterRecord_withCache]
        cases st.1.applyFilterRecord t s false false _ with
        | none => rfl
        | some m => rfl

/-- The filters do not read the bandwidth cache. -/
theorem applyEnergyToFilters_withCache (masks : Masks) (t : Timed) (s : Segment)
    (m : SpectrumMonitor) :
    applyEnergyToFilters masks t s (m.withCache cache) =
      (applyEnergyToFilters masks t s m).map (·.withCache cache) := by
  unfold applyEnergyToFilters
  have hentry : (m.withCache cache).filterCache t.message = m.filterCache t.message := rfl
  have hmap : (m.withCache cache).filterNoiseRecorderMap = m.filterNoiseRecorderMap := rfl
  simp only [hentry, hmap]
  split
  · next records _ =>
      exact foldlM_comm
        (f := fun (m : SpectrumMonitor) record => m.applyFilterRecord t s true true record)
        (g := fun m => m.withCache cache)
        (fun m record => applyFilterRecord_withCache cache m t s true true record) records m
  · have hfold := foldlM_comm (g := fun st : SpectrumMonitor × List FilterRecord =>
      (st.1.withCache cache, st.2)) (applyFilter_withCache cache masks t s)
      m.filterNoiseRecorderMap.toList (m, [])
    simp only [Option.bind_eq_bind] at hfold ⊢
    rw [hfold]
    cases m.filterNoiseRecorderMap.toList.foldlM (applyFilter masks t s) (m, []) with
    | none => rfl
    | some st =>
        obtain ⟨m₁, records⟩ := st
        simp only [Option.map_some, Option.bind_some, setFilterCache, filterCache]
        split
        · rfl
        · rfl

end

/-! ## A message -/

section

variable {masks : Masks} {t : Timed}

/-- The loops over the segments of two monitors: they differ in the monitor only. -/
structure TwinLoop (masks : Masks) (l l' : SegmentLoop) : Prop where
  eq : l' = { l with monitor := l'.monitor }
  twin : Twin masks l.monitor l'.monitor

/-- What the segments keep right. -/
theorem Sane.of_sameNoise {m m' : SpectrumMonitor} (h : m.Sane masks) (hs : m.SameNoise m') :
    m'.Sane masks := by
  have hcached : ∀ msg φ, m'.cachedRecords msg φ = m.cachedRecords msg φ := by
    intro msg φ
    rw [cachedRecords_eq, cachedRecords_eq]
    unfold recordCache
    rw [hs.bandwidthCache_eq, hs.maskCache_eq]
  refine ⟨?_, ?_⟩
  · intro f
    rw [hs.config_eq, hs.map_eq]
    exact h.keys f
  · intro msg φ records h₀ hrec
    rw [hcached] at hrec
    rw [hs.config_eq]
    exact h.bandwidth msg φ records h₀ hrec

/-- Recording into the recorders keeps the frequencies, so it keeps the cache right. -/
theorem Sane.withRecorders {m : SpectrumMonitor} (h : m.Sane masks)
    {map : ExtTreeMap ℕ NoiseRecorder} (hmap : ∀ f, f ∈ map ↔ f ∈ m.noiseRecorderMap) :
    Sane masks { m with noiseRecorderMap := map } :=
  ⟨fun f => (hmap f).trans (h.keys f), h.bandwidth⟩

/-- The last two steps of a recorded segment: the filters, unless they leave out the own sub id. -/
def segmentFilters (masks : Masks) (t : Timed) (s : Segment) (m : SpectrumMonitor) :
    Option SpectrumMonitor :=
  if !m.config.excludeSameSubIdFromFilter || decide (m.config.subId ≠ t.message.subId) then
    applyEnergyToFilters masks t s m
  else some m

/-- The state of the loop after a recorded segment. -/
def finishSegment (t : Timed) (s : Segment) (r : RecordLoop) (l : SegmentLoop) (m : SpectrumMonitor) :
    SegmentLoop :=
  let reported := r.frequencyMatch && r.aboveSensitivity
  { monitor := m
    reportAsInBand := l.reportAsInBand || (t.message.inBand && r.frequencyMatch)
    reportable :=
      if reported then l.reportable ++ [⟨s.frequencyHz, r.overlapPower, s.duration, s.offset⟩]
      else l.reportable
    minimumSor := if reported then min l.minimumSor r.startOfReception else l.minimumSor
    maximumEor := if reported then max l.maximumEor r.endOfReception else l.maximumEor }

theorem recordSegment_eq (masks : Masks) (t : Timed) (l : SegmentLoop) (s : Segment)
    {records : List NoiseRecord} {m : SpectrumMonitor}
    (h : l.monitor.noiseRecords masks t.message s.shiftedFrequency = (records, m)) :
    recordSegment masks t l s =
      (applyRecords m.config.receiverSensitivityMilliWatt t s m.noiseRecorderMap records).bind
        fun r => (segmentFilters masks t s { m with noiseRecorderMap := r.map }).map
          (finishSegment t s r l) := by
  unfold recordSegment segmentFilters
  rw [h]
  simp only [Option.bind_eq_bind]
  congr 1
  funext r
  split
  · cases applyEnergyToFilters masks t s { m with noiseRecorderMap := r.map } with
    | none => rfl
    | some m₁ => rfl
  · rfl

theorem Twin.segmentFilters {m m' m₁ : SpectrumMonitor} (h : Twin masks m m') {s : Segment}
    (hm : segmentFilters masks t s m = some m₁) :
    ∃ m₁', SpectrumMonitor.segmentFilters masks t s m' = some m₁' ∧ Twin masks m₁ m₁' := by
  have htwin := h
  obtain ⟨⟨cache, rfl⟩, hsane, hsane'⟩ := h
  unfold SpectrumMonitor.segmentFilters at hm ⊢
  rw [show (m.withCache cache).config = m.config from rfl]
  split at hm
  · next hfilters =>
      have hm' := applyEnergyToFilters_withCache cache masks t s m
      rw [hm] at hm'
      rw [if_pos hfilters]
      exact ⟨m₁.withCache cache, hm', ⟨cache, rfl⟩,
        hsane.of_sameNoise (applyEnergyToFilters_sameNoise hm),
        hsane'.of_sameNoise (applyEnergyToFilters_sameNoise hm')⟩
  · next hfilters =>
      cases hm
      rw [if_neg hfilters]
      exact ⟨m.withCache cache, rfl, htwin⟩

theorem TwinLoop.recordSegment {l l' l₁ : SegmentLoop} (h : TwinLoop masks l l') {s : Segment}
    (hl : recordSegment masks t l s = some l₁) :
    ∃ l₁', recordSegment masks t l' s = some l₁' ∧ TwinLoop masks l₁ l₁' := by
  obtain ⟨heq, htwin⟩ := h
  obtain ⟨hrecords, htwin₁⟩ := htwin.lookup t.message s.shiftedFrequency
  rcases hn : l.monitor.noiseRecords masks t.message s.shiftedFrequency with ⟨records, m⟩
  rcases hn' : l'.monitor.noiseRecords masks t.message s.shiftedFrequency with ⟨records', m'⟩
  rw [hn, hn'] at hrecords htwin₁
  obtain rfl : records' = records := hrecords
  rw [recordSegment_eq masks t l s hn] at hl
  rw [recordSegment_eq masks t l' s hn']
  obtain ⟨⟨cache, rfl⟩, hsane, hsane'⟩ := htwin₁
  obtain ⟨r, hr, hl⟩ := Option.bind_eq_some_iff.mp hl
  obtain ⟨m₁, hm₁, rfl⟩ := Option.map_eq_some_iff.mp hl
  -- the monitors after the recorder loop are twins again
  have hmem := applyRecords_mem hr
  have htwin₂ : Twin masks { m with noiseRecorderMap := r.map }
      { m.withCache cache with noiseRecorderMap := r.map } :=
    ⟨⟨cache, rfl⟩, hsane.withRecorders hmem, hsane'.withRecorders hmem⟩
  obtain ⟨m₁', hm₁', htwin₃⟩ := htwin₂.segmentFilters hm₁
  have hr' : applyRecords (m.withCache cache).config.receiverSensitivityMilliWatt t s
      (m.withCache cache).noiseRecorderMap records' = some r := hr
  refine ⟨finishSegment t s r l' m₁', ?_, ?_, htwin₃⟩
  · rw [hr', Option.bind_some, hm₁']
    rfl
  · rw [heq]
    rfl

theorem simpleSegment_withCache (l : SegmentLoop) (s : Segment)
    (cache : ExtTreeMap ℕ (CacheEntry NoiseRecord)) :
    simpleSegment masks t { l with monitor := l.monitor.withCache cache } s =
      { simpleSegment masks t l s with monitor := l.monitor.withCache cache } := by
  unfold simpleSegment
  simp only
  by_cases hmatch : (l.monitor.config.mode == .passThrough ||
      decide (s.frequencyHz ∈ l.monitor.noiseRecorderMap)) = true
  · rw [if_pos hmatch, if_pos (show ((l.monitor.withCache cache).config.mode == .passThrough ||
      decide (s.frequencyHz ∈ (l.monitor.withCache cache).noiseRecorderMap)) = true from hmatch)]
    by_cases hpower : ((overlapWith masks t.message s.shiftedFrequency s.frequencyHz
        l.monitor.config.bandwidthHz).map (overlapPowerMw · s.rxPowerMw)).getD 0 ≥
          l.monitor.config.receiverSensitivityMilliWatt
    · rw [if_pos hpower]
      exact if_pos hpower
    · rw [if_neg hpower]
      exact if_neg hpower
  · rw [if_neg hmatch, if_neg (show ¬ ((l.monitor.withCache cache).config.mode == .passThrough ||
      decide (s.frequencyHz ∈ (l.monitor.withCache cache).noiseRecorderMap)) = true from hmatch)]

theorem TwinLoop.simpleSegment {l l' : SegmentLoop} (h : TwinLoop masks l l') (s : Segment) :
    TwinLoop masks (simpleSegment masks t l s) (SpectrumMonitor.simpleSegment masks t l' s) := by
  refine ⟨?_, ?_⟩
  · obtain ⟨cache, hcache⟩ := h.twin.eq
    rw [simpleSegment_monitor, h.eq, hcache, simpleSegment_withCache]
  · rw [simpleSegment_monitor, simpleSegment_monitor]
    exact h.twin

/-- **One segment.** -/
theorem TwinLoop.step {l l' l₁ : SegmentLoop} (h : TwinLoop masks l l') {s : Segment}
    (hl : segmentStep masks t l s = some l₁) :
    ∃ l₁', segmentStep masks t l' s = some l₁' ∧ TwinLoop masks l₁ l₁' := by
  have hconfig : l'.monitor.config = l.monitor.config := by
    obtain ⟨cache, hcache⟩ := h.twin.eq
    rw [hcache]
    rfl
  unfold segmentStep at hl ⊢
  rw [hconfig]
  split at hl
  · next hsimple =>
      cases hl
      rw [if_pos hsimple]
      exact ⟨_, rfl, h.simpleSegment s⟩
  · next hsimple =>
      rw [if_neg hsimple]
      exact h.recordSegment hl

theorem TwinLoop.segments {xs : List (FrequencySegment × ℚ)} :
    ∀ {l l' l₁ : SegmentLoop} {flag : Bool}, TwinLoop masks l l' →
      updateSegments masks t l xs = some (l₁, flag) →
      ∃ l₁', updateSegments masks t l' xs = some (l₁', flag) ∧ TwinLoop masks l₁ l₁' := by
  induction xs with
  | nil =>
      intro l l' l₁ flag h hl
      cases hl
      exact ⟨l', rfl, h⟩
  | cons x xs ih =>
      intro l l' l₁ flag h hl
      have hconfig : l'.monitor.config = l.monitor.config := by
        obtain ⟨cache, hcache⟩ := h.twin.eq
        rw [hcache]
        rfl
      unfold updateSegments at hl ⊢
      rw [hconfig]
      split at hl
      · cases hl
        exact ⟨l', rfl, h⟩
      · next s hs =>
          obtain ⟨l₂, hl₂, hrest⟩ := Option.bind_eq_some_iff.mp hl
          obtain ⟨l₂', hl₂', h₂⟩ := h.step hl₂
          obtain ⟨l₁', hl₁', h₁⟩ := ih h₂ hrest
          refine ⟨l₁', ?_, h₁⟩
          simp only [hl₂', Option.bind_eq_bind, Option.bind_some]
          exact hl₁'

theorem Twin.startLoop {m m' : SpectrumMonitor} (h : Twin masks m m') (msg : Message) :
    TwinLoop masks (m.startLoop msg) (m'.startLoop msg) := by
  obtain ⟨⟨cache, rfl⟩, hsane, hsane'⟩ := h
  exact ⟨rfl, ⟨cache, rfl⟩, hsane.of_sameNoise (withClampError_sameNoise m false),
    hsane'.of_sameNoise (withClampError_sameNoise _ false)⟩

theorem Twin.withClampError {m m' : SpectrumMonitor} (h : Twin masks m m') (flag : Bool) :
    Twin masks (m.withClampError flag) (m'.withClampError flag) := by
  obtain ⟨⟨cache, rfl⟩, hsane, hsane'⟩ := h
  exact ⟨⟨cache, rfl⟩, hsane.of_sameNoise (withClampError_sameNoise m flag),
    hsane'.of_sameNoise (withClampError_sameNoise _ flag)⟩

/-- **A message** changes twins alike and has the same report. -/
theorem Twin.update {m m' m₁ : SpectrumMonitor} (h : Twin masks m m') {msg : Message}
    {report : Report} (hm : m.update masks msg = some (m₁, report)) :
    ∃ m₁', m'.update masks msg = some (m₁', report) ∧ Twin masks m₁ m₁' := by
  have hconfig : m'.config = m.config := by
    obtain ⟨cache, rfl⟩ := h.eq
    rfl
  rw [update_eq] at hm ⊢
  rw [hconfig]
  split at hm
  · next hlen =>
      cases hm
      rw [if_pos hlen]
      exact ⟨_, rfl, h.withClampError false⟩
  · next hlen =>
      rw [if_neg hlen]
      cases hp : clampValue msg.propagationDelay m.config.maxPropagation m.config.maxClamp with
      | none =>
          rw [hp] at hm
          cases hm
          exact ⟨_, rfl, h.withClampError true⟩
      | some p =>
          rw [hp] at hm
          obtain ⟨⟨l, flag⟩, hl, hfinish⟩ := Option.map_eq_some_iff.mp hm
          obtain ⟨l', hl', hloop⟩ := ((h.withClampError false).startLoop msg).segments hl
          simp only [hl', Option.map_some]
          cases flag with
          | true =>
              cases hfinish
              exact ⟨_, rfl, hloop.twin.withClampError true⟩
          | false =>
              cases hfinish
              refine ⟨l'.monitor, ?_, hloop.twin⟩
              rw [hloop.eq]
              rfl

theorem Twin.symm {m m' : SpectrumMonitor} (h : Twin masks m m') : Twin masks m' m := by
  obtain ⟨⟨cache, rfl⟩, hsane, hsane'⟩ := h
  exact ⟨⟨m.transmitterBandwidthCache, rfl⟩, hsane', hsane⟩

/-- Twins fail together. -/
theorem Twin.update_rel {m m' : SpectrumMonitor} (h : Twin masks m m') (msg : Message) :
    Option.Rel (fun x x' => Twin masks x.1 x'.1) (m.update masks msg) (m'.update masks msg) := by
  cases hm : m.update masks msg with
  | some x =>
      obtain ⟨m₁', hm₁', htwin⟩ := h.update hm
      rw [hm₁']
      exact .some htwin
  | none =>
      cases hm' : m'.update masks msg with
      | none => exact .none
      | some x =>
          obtain ⟨m₁, hm₁, -⟩ := h.symm.update hm'
          rw [hm] at hm₁
          cases hm₁

/-! ## Initialization -/

/-- A monitor is right after its initialization. -/
theorem sane_initializeMonitor (masks : Masks) (m : SpectrumMonitor) (config : Config) :
    (m.initializeMonitor config).Sane masks := by
  refine ⟨fun f => Iff.rfl, ?_⟩
  intro msg φ records h₀ hrec
  have hnone : (m.initializeMonitor config).cachedRecords msg φ = none := by
    rw [cachedRecords_eq]
    apply lookupIn_of_empty
    unfold recordCache initializeMonitor
    rw [if_pos h₀, ExtTreeMap.getElem?_insert]
    split
    · rfl
    · simp
  rw [hnone] at hrec
  cases hrec

theorem Sane.update {m m₁ : SpectrumMonitor} (h : m.Sane masks) {msg : Message} {report : Report}
    (hm : m.update masks msg = some (m₁, report)) : m₁.Sane masks := by
  obtain ⟨m₁', -, htwin⟩ := Twin.update ⟨⟨m.transmitterBandwidthCache, rfl⟩, h, h⟩ hm
  exact htwin.sane

/-- **Initializing again** with the same arguments cannot be seen while nothing is recorded. -/
theorem Sane.reinitialize {m : SpectrumMonitor} (h : m.Sane masks)
    (hmap : m.noiseRecorderMap = initialRecorders m.config) :
    Twin masks m (m.initializeMonitor m.config) := by
  refine ⟨⟨(∅ : ExtTreeMap ℕ (CacheEntry NoiseRecord)).insert m.config.bandwidthHz
    (CacheEntry.empty _), ?_⟩, h, sane_initializeMonitor masks m m.config⟩
  unfold initializeMonitor withCache
  rw [← hmap]

end

end SpectrumMonitor

end Emane.Spectrum
