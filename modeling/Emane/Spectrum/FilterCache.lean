import Emane.Spectrum.OverlapCache

set_option autoImplicit false

/-! # The filter caches

`apply_energy_to_filters` keeps, for every bandwidth or mask and every shifted frequency, the overlap
records of the filters that accepted the first such segment. Later segments check the match criterion
again but look at these filters only, and for a filter with sub-bands they scale the power of each
overlap segment by its ratio, which the first one does not.

The history of a run is the list of the segments that have reached the filters since the caches were
cleared last. The first of them with the key and the frequency of a segment is the one for which the
entry was stored (`storedBy`). `FilterInv` says that the records in the caches are those of the current
filters, and `HistoryInv` that an entry has a record of exactly those filters that accepted the segment
for which it was stored. From both follows what the cached path leaves in the recorders of these filters
(`Transparent`): what the slow path leaves, with the ratio in the power of the sub-bands.
-/

namespace Emane.Spectrum

open Std Emane.Lib Emane.Noise

namespace SpectrumMonitor

/-! ## What a segment asks of a filter -/

/-- The overlap of a segment with a filter, if the filter accepts the segment. -/
def acceptedOverlap (masks : Masks) (m : SpectrumMonitor) (t : Timed) (s : Segment) (F : Filter) :
    Option MaskOverlap :=
  (overlapWith masks t.message s.shiftedFrequency F.frequencyHz F.bandwidthHz).filter fun overlap =>
    !overlap.overlaps.isEmpty &&
      m.recordMatches t.message s F.criterion overlap.lower overlap.upper

/-- What a segment leaves in the recorder of a filter, on the cached or on the slow path. -/
def outcome (masks : Masks) (m : SpectrumMonitor) (t : Timed) (s : Segment) (cached : Bool)
    (F : Filter) : Option NoiseRecorder :=
  match m.acceptedOverlap masks t s F with
  | none => some F.recorder
  | some overlap => applyOverlap m.config.receiverSensitivityMilliWatt t s cached overlap
      overlap.lower overlap.upper F.recorder

/-- Without sub-bands the two paths agree. -/
theorem outcome_singleBand (masks : Masks) (m : SpectrumMonitor) (t : Timed) (s : Segment)
    (F : Filter) (h : F.recorder.totalSubBandBins ≤ 1) (cached cached' : Bool) :
    m.outcome masks t s cached F = m.outcome masks t s cached' F := by
  unfold outcome
  split
  · rfl
  · have hone : ¬ F.recorder.totalSubBandBins > 1 := by omega
    unfold applyOverlap
    simp only [if_neg hone]

def cachedFilterRecords (m : SpectrumMonitor) (msg : Message) (φ : ℕ) :
    Option (List FilterRecord) :=
  (((m.filterCache msg)[cacheKey msg]?).getD (CacheEntry.empty _)).frequencies[φ]?

def withoutFilterCaches (m : SpectrumMonitor) : SpectrumMonitor :=
  { m with filterTransmitterBandwidthCache := ∅, filterTransmitterSpectralMaskCache := ∅ }

/-! ## The history -/

/-- A segment that has reached the filters, and the monitor as it was when its message came. -/
structure Seen where
  monitor : SpectrumMonitor
  timed : Timed
  segment : Segment

/-- The filter accepted the segment when it came. -/
def Seen.accepted (masks : Masks) (e : Seen) (F : Filter) : Bool :=
  (e.monitor.acceptedOverlap masks e.timed e.segment F).isSome

/-- The segments of a message that reach the filters: none in a simple mode, and none of a message with
the monitor's own sub-id that is to be left out. -/
def seen (m : SpectrumMonitor) (t : Timed) (segs : List Segment) : List Seen :=
  if simpleMode m.config t.message = true ∨
      m.config.excludeSameSubIdFromFilter = true ∧ m.config.subId = t.message.subId then []
  else segs.map fun s => ⟨m, t, s⟩

/-- The segment for which the entry of a message and a frequency was stored: the first one of the history
with their key. -/
def storedBy (history : List Seen) (msg : Message) (φ : ℕ) : Option Seen :=
  history.find? fun e => SameKey e.timed.message msg ∧ e.segment.shiftedFrequency = φ

/-- The history after one more operation. Where the filters change the caches are cleared. -/
def opHistory (m : SpectrumMonitor) (history : List Seen) : Op → List Seen
  | .init _ => history
  | .addFilter .. => []
  | .removeFilter index => if index ∈ m.filterNoiseRecorderMap then [] else history
  | .update msg =>
      match timed m.config msg with
      | none => history
      | some t => history ++ m.seen t (messageSegments m.config msg)

/-- An operation of a run that keeps its history. -/
def opStepSeen (masks : Masks) (x : SpectrumMonitor × List Seen) (op : Op) :
    Option (SpectrumMonitor × List Seen) :=
  (opStep masks x.1 op).map fun m => (m, opHistory x.1 x.2 op)

/-- The filter is served by the caches: no entry is stored for the segment, the filter accepted the
segment for which it was, or it does not accept this one. -/
def Covered (masks : Masks) (history : List Seen) (m : SpectrumMonitor) (t : Timed) (s : Segment)
    (F : Filter) : Prop :=
  ∀ e, storedBy history t.message s.shiftedFrequency = some e →
    e.accepted masks F = true ∨ m.acceptedOverlap masks t s F = none

/-- **Transparency at a segment**: compared with the same segment on emptied caches, every covered
filter without sub-bands has the same recorder; every covered filter has the recorder the slow path
gives, with the powers of its sub-bands scaled by the overlap ratio when an entry was stored. -/
def Transparent (masks : Masks) (history : List Seen) (t : Timed) (s : Segment) (m : SpectrumMonitor) :
    Prop :=
  ∀ m₁ m₂, applyEnergyToFilters masks t s m = some m₁ →
    applyEnergyToFilters masks t s m.withoutFilterCaches = some m₂ →
    ∀ (i : ℕ) (F : Filter), m.filterNoiseRecorderMap[i]? = some F → Covered masks history m t s F →
      (F.recorder.totalSubBandBins ≤ 1 →
        m₁.filterNoiseRecorderMap[i]? = m₂.filterNoiseRecorderMap[i]?) ∧
      ∃ r, m.outcome masks t s (storedBy history t.message s.shiftedFrequency).isSome F = some r ∧
        m₁.filterNoiseRecorderMap[i]? = some { F with recorder := r }

/-! ## One record -/

/-- What a filter is for, without its recorder. -/
def filterShape (F : Filter) : ℕ × ℕ × Criterion := (F.frequencyHz, F.bandwidthHz, F.criterion)

/-- Everything but the recorders of the filters agrees. -/
structure SameFilters (m m' : SpectrumMonitor) : Prop where
  config_eq : m'.config = m.config
  shape_eq : ∀ i : ℕ, (m'.filterNoiseRecorderMap[i]?).map filterShape
    = (m.filterNoiseRecorderMap[i]?).map filterShape
  bandwidthCache_eq : m'.filterTransmitterBandwidthCache = m.filterTransmitterBandwidthCache
  maskCache_eq : m'.filterTransmitterSpectralMaskCache = m.filterTransmitterSpectralMaskCache

theorem SameFilters.refl (m : SpectrumMonitor) : m.SameFilters m := ⟨rfl, fun _ => rfl, rfl, rfl⟩

theorem SameFilters.trans {m₁ m₂ m₃ : SpectrumMonitor} (h : m₁.SameFilters m₂)
    (h' : m₂.SameFilters m₃) : m₁.SameFilters m₃ :=
  ⟨h'.1.trans h.1, fun i => (h'.2 i).trans (h.2 i), h'.3.trans h.3, h'.4.trans h.4⟩

theorem applyFilterRecord_sameFilters {m m' : SpectrumMonitor} {t : Timed} {s : Segment}
    {cached checkMatch : Bool} {record : FilterRecord}
    (h : m.applyFilterRecord t s cached checkMatch record = some m') : m.SameFilters m' := by
  unfold applyFilterRecord at h
  split at h
  · rw [← Option.some.inj h]
    exact SameFilters.refl m
  next F hF =>
      split at h
      · rw [← Option.some.inj h]
        exact SameFilters.refl m
      · obtain ⟨recorder, -, h⟩ := Option.bind_eq_some_iff.mp h
        rw [← Option.some.inj h]
        refine ⟨rfl, ?_, rfl, rfl⟩
        intro i
        simp only [ExtTreeMap.getElem?_insert, Nat.compare_eq_eq]
        split
        next hi =>
            subst hi
            rw [hF]
            rfl
        next hi => rfl

/-- The part of the monitor that decides what happens to filter `i`. -/
def filterView (i : ℕ) (m : SpectrumMonitor) : Config × Option Filter :=
  (m.config, m.filterNoiseRecorderMap[i]?)

theorem applyFilterRecord_other {m m' : SpectrumMonitor} {t : Timed} {s : Segment}
    {cached checkMatch : Bool} {record : FilterRecord} {i : ℕ} (hi : record.index ≠ i)
    (h : m.applyFilterRecord t s cached checkMatch record = some m') :
    filterView i m' = filterView i m := by
  unfold applyFilterRecord at h
  split at h
  · rw [← Option.some.inj h]
  · split at h
    · rw [← Option.some.inj h]
    · obtain ⟨recorder, -, h⟩ := Option.bind_eq_some_iff.mp h
      rw [← Option.some.inj h]
      unfold filterView
      rw [ExtTreeMap.getElem?_insert, if_neg (by simpa using hi)]

/-- A record of the current overlap of its filter. -/
structure RecordOk (masks : Masks) (msg : Message) (φ : ℕ) (record : FilterRecord) (F : Filter) :
    Prop where
  overlap_eq : overlapWith masks msg φ F.frequencyHz F.bandwidthHz = some record.overlap
  nonempty : record.overlap.overlaps.isEmpty = false
  criterion_eq : record.criterion = F.criterion
  lower_eq : record.lower = record.overlap.lower
  upper_eq : record.upper = record.overlap.upper

/-- **A cached record** leaves the outcome of the cached path in the recorder of its filter. -/
theorem applyFilterRecord_outcome {masks : Masks} {m m₁ m' : SpectrumMonitor} {t : Timed}
    {s : Segment} {record : FilterRecord} {F : Filter}
    (hok : RecordOk masks t.message s.shiftedFrequency record F)
    (hview : filterView record.index m₁ = (m.config, some F))
    (h : m₁.applyFilterRecord t s true true record = some m') :
    ∃ r, m.outcome masks t s true F = some r ∧
      m'.filterNoiseRecorderMap[record.index]? = some { F with recorder := r } := by
  have hconfig : m₁.config = m.config := congrArg Prod.fst hview
  have hF : m₁.filterNoiseRecorderMap[record.index]? = some F := congrArg Prod.snd hview
  have hmatch : m₁.recordMatches t.message s record.criterion record.lower record.upper
      = m.recordMatches t.message s F.criterion record.overlap.lower record.overlap.upper := by
    unfold recordMatches
    rw [hconfig, hok.criterion_eq, hok.lower_eq, hok.upper_eq]
  unfold applyFilterRecord at h
  rw [hF] at h
  simp only [hmatch, hconfig, Bool.true_and] at h
  unfold outcome acceptedOverlap
  rw [hok.overlap_eq]
  simp only [Option.filter, hok.nonempty, Bool.not_false, Bool.true_and]
  cases hm : m.recordMatches t.message s F.criterion record.overlap.lower record.overlap.upper with
  | false =>
      rw [hm] at h
      simp only [Bool.not_false, if_true, Option.some.injEq] at h
      rw [← h]
      exact ⟨F.recorder, by simp, hF⟩
  | true =>
      rw [hm] at h
      simp only [Bool.not_true, Bool.false_eq_true, if_false] at h
      obtain ⟨r, hr, h⟩ := Option.bind_eq_some_iff.mp h
      rw [hok.lower_eq, hok.upper_eq] at hr
      refine ⟨r, by simpa using hr, ?_⟩
      rw [← Option.some.inj h, ExtTreeMap.getElem?_insert_self]

/-! ## The slow path -/

/-- The record the slow path keeps of a filter. -/
def acceptedRecord (masks : Masks) (m : SpectrumMonitor) (t : Timed) (s : Segment) (x : ℕ × Filter) :
    Option FilterRecord :=
  (m.acceptedOverlap masks t s x.2).map fun overlap =>
    { index := x.1
      overlap := overlap
      txFrequency := s.frequencyHz
      criterion := x.2.criterion
      lower := overlap.lower
      upper := overlap.upper }

theorem acceptedOverlap_congr {masks : Masks} {m m' : SpectrumMonitor} (h : m'.config = m.config)
    (t : Timed) (s : Segment) (F : Filter) :
    m'.acceptedOverlap masks t s F = m.acceptedOverlap masks t s F := by
  unfold acceptedOverlap recordMatches
  rw [h]

/-- One filter of the slow path: either it does not accept the segment and nothing happens, or its
record is applied and kept. -/
theorem applyFilter_cases {masks : Masks} {t : Timed} {s : Segment} {x : ℕ × Filter}
    {st st' : SpectrumMonitor × List FilterRecord} (h : applyFilter masks t s st x = some st') :
    (acceptedRecord masks st.1 t s x = none ∧ st' = st) ∨
      ∃ record m', acceptedRecord masks st.1 t s x = some record ∧
        st.1.applyFilterRecord t s false false record = some m' ∧
        st' = (m', st.2 ++ [record]) := by
  unfold applyFilter at h
  unfold acceptedRecord acceptedOverlap
  cases hov : overlapWith masks t.message s.shiftedFrequency x.2.frequencyHz x.2.bandwidthHz with
  | none =>
      rw [hov] at h
      exact Or.inl ⟨rfl, (Option.some.inj h).symm⟩
  | some overlap =>
      rw [hov] at h
      simp only at h
      cases hacc : (!overlap.overlaps.isEmpty &&
          st.1.recordMatches t.message s x.2.criterion overlap.lower overlap.upper) with
      | false =>
          have hskip : (overlap.overlaps.isEmpty ||
              !st.1.recordMatches t.message s x.2.criterion overlap.lower overlap.upper) = true := by
            rw [← Bool.not_not overlap.overlaps.isEmpty, ← Bool.not_and, hacc]
            rfl
          rw [if_pos hskip] at h
          left
          refine ⟨?_, (Option.some.inj h).symm⟩
          rw [Option.filter_some, hacc]
          rfl
      | true =>
          have hskip : (overlap.overlaps.isEmpty ||
              !st.1.recordMatches t.message s x.2.criterion overlap.lower overlap.upper) = false := by
            rw [← Bool.not_not overlap.overlaps.isEmpty, ← Bool.not_and, hacc]
            rfl
          rw [hskip, if_neg (by simp)] at h
          obtain ⟨m', hm', h⟩ := Option.bind_eq_some_iff.mp h
          right
          refine ⟨_, m', ?_, hm', (Option.some.inj h).symm⟩
          rw [Option.filter_some, hacc]
          rfl

theorem acceptedRecord_index {masks : Masks} {m : SpectrumMonitor} {t : Timed} {s : Segment}
    {x : ℕ × Filter} {record : FilterRecord} (h : m.acceptedRecord masks t s x = some record) :
    record.index = x.1 := by
  obtain ⟨overlap, -, rfl⟩ := Option.map_eq_some_iff.mp h
  rfl

theorem acceptedRecord_ok {masks : Masks} {m : SpectrumMonitor} {t : Timed} {s : Segment}
    {x : ℕ × Filter} {record : FilterRecord} (h : m.acceptedRecord masks t s x = some record) :
    RecordOk masks t.message s.shiftedFrequency record x.2 := by
  obtain ⟨overlap, hov, rfl⟩ := Option.map_eq_some_iff.mp h
  obtain ⟨hov, hacc⟩ := Option.filter_eq_some_iff.mp hov
  rw [Bool.and_eq_true, Bool.not_eq_true'] at hacc
  exact ⟨hov, hacc.1, rfl, rfl, rfl⟩

theorem applyFilter_sameFilters {masks : Masks} {t : Timed} {s : Segment} {x : ℕ × Filter}
    {st st' : SpectrumMonitor × List FilterRecord} (h : applyFilter masks t s st x = some st') :
    st.1.SameFilters st'.1 := by
  rcases applyFilter_cases h with ⟨-, rfl⟩ | ⟨record, m', -, hm', rfl⟩
  · exact SameFilters.refl _
  · exact applyFilterRecord_sameFilters hm'

theorem applyFilter_other {masks : Masks} {t : Timed} {s : Segment} {x : ℕ × Filter}
    {st st' : SpectrumMonitor × List FilterRecord} {i : ℕ} (hi : x.1 ≠ i)
    (h : applyFilter masks t s st x = some st') : filterView i st'.1 = filterView i st.1 := by
  rcases applyFilter_cases h with ⟨-, rfl⟩ | ⟨record, m', hrec, hm', rfl⟩
  · rfl
  · exact applyFilterRecord_other (by rw [acceptedRecord_index hrec]; exact hi) hm'

/-- **A filter of the slow path** is left with the outcome of the slow path. -/
theorem applyFilter_outcome {masks : Masks} {m : SpectrumMonitor} {t : Timed} {s : Segment}
    {i : ℕ} {F : Filter} {st st' : SpectrumMonitor × List FilterRecord}
    (hview : filterView i st.1 = (m.config, some F))
    (h : applyFilter masks t s st (i, F) = some st') :
    ∃ r, m.outcome masks t s false F = some r ∧
      st'.1.filterNoiseRecorderMap[i]? = some { F with recorder := r } := by
  have hconfig : st.1.config = m.config := congrArg Prod.fst hview
  have hF : st.1.filterNoiseRecorderMap[i]? = some F := congrArg Prod.snd hview
  unfold outcome
  rw [← acceptedOverlap_congr hconfig t s F]
  rcases applyFilter_cases h with ⟨hnone, rfl⟩ | ⟨record, m', hrec, hm', rfl⟩
  · rw [Option.map_eq_none_iff.mp hnone]
    exact ⟨F.recorder, rfl, hF⟩
  · obtain ⟨overlap, hov, rfl⟩ := Option.map_eq_some_iff.mp hrec
    rw [hov]
    unfold applyFilterRecord at hm'
    rw [hF] at hm'
    simp only [Bool.false_and, Bool.false_eq_true, if_false] at hm'
    obtain ⟨r, hr, hm'⟩ := Option.bind_eq_some_iff.mp hm'
    rw [hconfig] at hr
    refine ⟨r, hr, ?_⟩
    rw [← Option.some.inj hm', ExtTreeMap.getElem?_insert_self]

/-- The records the slow path collects. -/
theorem foldlM_applyFilter_records {masks : Masks} {m : SpectrumMonitor} {t : Timed} {s : Segment} :
    ∀ (xs : List (ℕ × Filter)) (st st' : SpectrumMonitor × List FilterRecord),
      st.1.config = m.config → xs.foldlM (applyFilter masks t s) st = some st' →
      st'.2 = st.2 ++ xs.filterMap (m.acceptedRecord masks t s) := by
  intro xs
  induction xs with
  | nil =>
      intro st st' _ h
      rw [List.foldlM_nil, Option.pure_def, Option.some.injEq] at h
      simp [h]
  | cons x xs ih =>
      intro st st' hconfig h
      rw [List.foldlM_cons] at h
      obtain ⟨st₁, h₁, h⟩ := Option.bind_eq_some_iff.mp h
      have hrec : acceptedRecord masks st.1 t s x = acceptedRecord masks m t s x := by
        unfold acceptedRecord
        rw [acceptedOverlap_congr hconfig]
      have hsame := applyFilter_sameFilters h₁
      rw [ih st₁ st' (hsame.config_eq.trans hconfig) h]
      rcases applyFilter_cases h₁ with ⟨hnone, rfl⟩ | ⟨record, m', hsome, -, rfl⟩
      · rw [hrec] at hnone
        rw [List.filterMap_cons_none hnone]
      · rw [hrec] at hsome
        rw [List.filterMap_cons_some hsome, List.append_assoc, List.singleton_append]

/-! ## The invariant -/

/-- The cached records are those of the current filters, at most one for each. -/
def FilterInv (masks : Masks) (m : SpectrumMonitor) : Prop :=
  ∀ msg φ records, m.cachedFilterRecords msg φ = some records →
    (records.map (·.index)).Nodup ∧
      ∀ record ∈ records, ∃ F, m.filterNoiseRecorderMap[record.index]? = some F ∧
        RecordOk masks msg φ record F

theorem RecordOk.congr {masks : Masks} {msg msg' : Message} {φ : ℕ} {record : FilterRecord}
    {F F' : Filter} (h : RecordOk masks msg φ record F) (hkey : SameKey msg msg')
    (hshape : filterShape F' = filterShape F) : RecordOk masks msg' φ record F' := by
  obtain ⟨h₁, h₂, h₃, h₄, h₅⟩ := h
  simp only [filterShape, Prod.mk.injEq] at hshape
  obtain ⟨hf, hb, hc⟩ := hshape
  refine ⟨?_, h₂, h₃.trans hc.symm, h₄, h₅⟩
  rw [hf, hb, ← overlapWith_sameKey hkey]
  exact h₁

/-- Recorders of the filters and everything outside the filters may change. -/
theorem FilterInv.congr {masks : Masks} {m m' : SpectrumMonitor} (h : FilterInv masks m)
    (hshape : ∀ i : ℕ, (m'.filterNoiseRecorderMap[i]?).map filterShape
      = (m.filterNoiseRecorderMap[i]?).map filterShape)
    (hbandwidth : m'.filterTransmitterBandwidthCache = m.filterTransmitterBandwidthCache)
    (hmask : m'.filterTransmitterSpectralMaskCache = m.filterTransmitterSpectralMaskCache) :
    FilterInv masks m' := by
  intro msg φ records hrec
  have hcached : m'.cachedFilterRecords msg φ = m.cachedFilterRecords msg φ := by
    unfold cachedFilterRecords filterCache
    rw [hbandwidth, hmask]
  rw [hcached] at hrec
  obtain ⟨hnodup, hok⟩ := h msg φ records hrec
  refine ⟨hnodup, ?_⟩
  intro record hmem
  obtain ⟨F, hF, hrecord⟩ := hok record hmem
  have hF' := hshape record.index
  rw [hF] at hF'
  obtain ⟨F', hF', hs⟩ := Option.map_eq_some_iff.mp hF'
  exact ⟨F', hF', hrecord.congr ⟨Iff.rfl, rfl⟩ hs⟩

theorem FilterInv.sameFilters {masks : Masks} {m m' : SpectrumMonitor} (h : FilterInv masks m)
    (hs : m.SameFilters m') : FilterInv masks m' :=
  h.congr hs.shape_eq hs.bandwidthCache_eq hs.maskCache_eq

/-- Empty caches satisfy the invariant. -/
theorem filterInv_of_empty {masks : Masks} {m : SpectrumMonitor}
    (hbandwidth : m.filterTransmitterBandwidthCache = ∅)
    (hmask : m.filterTransmitterSpectralMaskCache = ∅) : FilterInv masks m := by
  intro msg φ records hrec
  unfold cachedFilterRecords filterCache at hrec
  rw [hbandwidth, hmask] at hrec
  simp [CacheEntry.empty] at hrec

/-- The two paths of `apply_energy_to_filters`. -/
theorem applyEnergyToFilters_cases {masks : Masks} {t : Timed} {s : Segment} {m m' : SpectrumMonitor}
    (h : applyEnergyToFilters masks t s m = some m') :
    (∃ records, m.cachedFilterRecords t.message s.shiftedFrequency = some records ∧
      records.foldlM (fun m record => m.applyFilterRecord t s true true record) m = some m') ∨
    (m.cachedFilterRecords t.message s.shiftedFrequency = none ∧
      ∃ m₁ records entry, m.filterNoiseRecorderMap.toList.foldlM (applyFilter masks t s) (m, [])
          = some (m₁, records) ∧
        entry = ((m.filterCache t.message)[cacheKey t.message]?).getD (CacheEntry.empty _) ∧
        m' = m₁.setFilterCache t.message ((m₁.filterCache t.message).insert (cacheKey t.message)
          { entry with frequencies := entry.frequencies.insert s.shiftedFrequency records })) := by
  unfold applyEnergyToFilters at h
  simp only at h
  split at h
  next records hrec => exact Or.inl ⟨records, hrec, h⟩
  next hrec =>
      obtain ⟨⟨m₁, records⟩, h₁, h⟩ := Option.bind_eq_some_iff.mp h
      exact Or.inr ⟨hrec, m₁, records, _, h₁, rfl, (Option.some.inj h).symm⟩

theorem setFilterCache_map (m : SpectrumMonitor) (msg : Message)
    (cache : ExtTreeMap ℕ (CacheEntry FilterRecord)) :
    (m.setFilterCache msg cache).filterNoiseRecorderMap = m.filterNoiseRecorderMap := by
  unfold setFilterCache
  split
  · rfl
  · rfl

theorem filterCache_setFilterCache (m : SpectrumMonitor) (msg msg' : Message)
    (cache : ExtTreeMap ℕ (CacheEntry FilterRecord)) :
    (m.setFilterCache msg cache).filterCache msg'
      = if msg.spectralMaskIndex = 0 ↔ msg'.spectralMaskIndex = 0 then cache
        else m.filterCache msg' := by
  unfold setFilterCache filterCache
  rw [apply_ite filterTransmitterBandwidthCache, apply_ite filterTransmitterSpectralMaskCache]
  exact read_replaced ..

/-- What storing an entry does to later lookups. -/
theorem cachedFilterRecords_store (m : SpectrumMonitor) (msg msg' : Message) (φ φ' : ℕ)
    (records : List FilterRecord) {entry : CacheEntry FilterRecord}
    (hentry : entry = ((m.filterCache msg)[cacheKey msg]?).getD (CacheEntry.empty _)) :
    (m.setFilterCache msg ((m.filterCache msg).insert (cacheKey msg)
        { entry with frequencies := entry.frequencies.insert φ records })).cachedFilterRecords msg' φ'
      = if SameKey msg msg' ∧ φ = φ' then some records else m.cachedFilterRecords msg' φ' := by
  unfold cachedFilterRecords
  rw [filterCache_setFilterCache]
  by_cases hcache : msg.spectralMaskIndex = 0 ↔ msg'.spectralMaskIndex = 0
  · have hsame : m.filterCache msg' = m.filterCache msg := by
      unfold filterCache
      by_cases h₀ : msg.spectralMaskIndex = 0
      · rw [if_pos h₀, if_pos (hcache.mp h₀)]
      · rw [if_neg h₀, if_neg (fun h' => h₀ (hcache.mpr h'))]
    rw [if_pos hcache, hsame, ExtTreeMap.getElem?_insert]
    by_cases hkey : cacheKey msg = cacheKey msg'
    · rw [if_pos (by simpa using hkey), Option.getD_some]
      simp only [ExtTreeMap.getElem?_insert, Nat.compare_eq_eq, SameKey, hcache, hkey, true_and]
      split
      · rfl
      · rw [hentry, hkey]
    · rw [if_neg (by simpa using hkey)]
      have hne : ¬ (SameKey msg msg' ∧ φ = φ') := fun hc => hkey hc.1.2
      rw [if_neg hne]
  · have hne : ¬ (SameKey msg msg' ∧ φ = φ') := fun hc => hcache hc.1.1
    rw [if_neg hcache, if_neg hne]

/-- The slow path keeps everything but the recorders. -/
theorem foldlM_applyFilter_sameFilters {masks : Masks} {t : Timed} {s : Segment}
    {xs : List (ℕ × Filter)} {st st' : SpectrumMonitor × List FilterRecord}
    (h : xs.foldlM (applyFilter masks t s) st = some st') : st.1.SameFilters st'.1 :=
  foldlM_preserves (fun a b : SpectrumMonitor × List FilterRecord => a.1.SameFilters b.1)
    (fun a => SameFilters.refl a.1) (fun _ _ _ => SameFilters.trans)
    (fun _ _ _ => applyFilter_sameFilters) _ _ _ h

theorem nodup_keys_toList (map : ExtTreeMap ℕ Filter) : (map.toList.map Prod.fst).Nodup := by
  rw [ExtTreeMap.map_fst_toList_eq_keys]
  exact map.nodup_keys

/-- The records of the slow path name each filter at most once. -/
theorem nodup_acceptedRecords {masks : Masks} {m : SpectrumMonitor} {t : Timed} {s : Segment} :
    ∀ xs : List (ℕ × Filter), (xs.map Prod.fst).Nodup →
      ((xs.filterMap (m.acceptedRecord masks t s)).map (·.index)).Nodup := by
  intro xs
  induction xs with
  | nil =>
      intro _
      exact List.nodup_nil
  | cons x xs ih =>
      intro h
      rw [List.map_cons, List.nodup_cons] at h
      obtain ⟨hx, hxs⟩ := h
      cases hrec : m.acceptedRecord masks t s x with
      | none =>
          rw [List.filterMap_cons_none hrec]
          exact ih hxs
      | some record =>
          rw [List.filterMap_cons_some hrec, List.map_cons, List.nodup_cons]
          refine ⟨?_, ih hxs⟩
          intro hmem
          obtain ⟨record', hmem', hidx⟩ := List.mem_map.mp hmem
          obtain ⟨y, hy, hrec'⟩ := List.mem_filterMap.mp hmem'
          apply hx
          rw [← acceptedRecord_index hrec, ← hidx, acceptedRecord_index hrec']
          exact List.mem_map.mpr ⟨y, hy, rfl⟩

/-- **Both paths keep the invariant.** -/
theorem FilterInv.applyEnergyToFilters {masks : Masks} {t : Timed} {s : Segment}
    {m m' : SpectrumMonitor} (h : FilterInv masks m)
    (hrun : SpectrumMonitor.applyEnergyToFilters masks t s m = some m') : FilterInv masks m' := by
  rcases applyEnergyToFilters_cases hrun with ⟨records, -, hfold⟩ |
    ⟨-, m₁, records, entry, hfold, hentry, rfl⟩
  · exact h.sameFilters (foldlM_preserves SameFilters SameFilters.refl
      (fun _ _ _ => SameFilters.trans) (fun _ _ _ => applyFilterRecord_sameFilters) _ _ _ hfold)
  · have hsame : m.SameFilters m₁ := foldlM_applyFilter_sameFilters hfold
    have hcache : m₁.filterCache t.message = m.filterCache t.message := by
      unfold filterCache
      rw [hsame.bandwidthCache_eq, hsame.maskCache_eq]
    rw [← hcache] at hentry
    have hinv₁ := h.sameFilters hsame
    have hrecords : records = m.filterNoiseRecorderMap.toList.filterMap
        (m.acceptedRecord masks t s) := by
      have := foldlM_applyFilter_records (m := m) _ _ _ rfl hfold
      simpa using this
    intro msg φ records' hrec
    rw [cachedFilterRecords_store m₁ t.message msg s.shiftedFrequency φ records hentry] at hrec
    rw [setFilterCache_map]
    split at hrec
    next hkey =>
        obtain ⟨hkey, rfl⟩ := hkey
        rw [← Option.some.inj hrec, hrecords]
        refine ⟨nodup_acceptedRecords _ (nodup_keys_toList _), ?_⟩
        intro record hmem
        obtain ⟨x, hx, hacc⟩ := List.mem_filterMap.mp hmem
        have hF : m.filterNoiseRecorderMap[x.1]? = some x.2 :=
          ExtTreeMap.mem_toList_iff_getElem?_eq_some.mp hx
        have hshape := hsame.shape_eq x.1
        rw [hF] at hshape
        obtain ⟨F', hF', hs⟩ := Option.map_eq_some_iff.mp hshape
        refine ⟨F', ?_, (acceptedRecord_ok hacc).congr hkey hs⟩
        rw [acceptedRecord_index hacc]
        exact hF'
    next hkey => exact hinv₁ msg φ records' hrec

/-! ## The two paths at one filter -/

/-- The slow path leaves its outcome in every filter. -/
theorem slowPath_outcome {masks : Masks} {t : Timed} {s : Segment} {m m' : SpectrumMonitor} {i : ℕ}
    {F : Filter} (hF : m.filterNoiseRecorderMap[i]? = some F)
    (hmiss : m.cachedFilterRecords t.message s.shiftedFrequency = none)
    (h : applyEnergyToFilters masks t s m = some m') :
    ∃ r, m.outcome masks t s false F = some r ∧
      m'.filterNoiseRecorderMap[i]? = some { F with recorder := r } := by
  rcases applyEnergyToFilters_cases h with ⟨records, hhit, -⟩ |
    ⟨-, m₁, records, entry, hfold, -, rfl⟩
  · rw [hmiss] at hhit
    exact absurd hhit (by simp)
  · have hmem : (i, F) ∈ m.filterNoiseRecorderMap.toList :=
      ExtTreeMap.mem_toList_iff_getElem?_eq_some.mpr hF
    obtain ⟨st₁, st₂, hview₁, hstep, hview₂⟩ := foldlM_view_at Prod.fst
      (fun st : SpectrumMonitor × List FilterRecord => filterView i st.1)
      (fun _ _ _ hne hst => applyFilter_other hne hst) (nodup_keys_toList _) hmem rfl hfold
    obtain ⟨r, hr, hget⟩ := applyFilter_outcome (hview₁.trans (by
      show filterView i m = _
      unfold filterView
      rw [hF])) hstep
    refine ⟨r, hr, ?_⟩
    rw [setFilterCache_map]
    have hget₁ : m₁.filterNoiseRecorderMap[i]? = st₂.1.filterNoiseRecorderMap[i]? :=
      congrArg Prod.snd hview₂
    rw [hget₁, hget]

/-- The cached path leaves its outcome in every filter the entry covers. -/
theorem cachedPath_outcome {masks : Masks} {t : Timed} {s : Segment} {m m' : SpectrumMonitor}
    (hinv : FilterInv masks m) {i : ℕ} {F : Filter} (hF : m.filterNoiseRecorderMap[i]? = some F)
    {records : List FilterRecord}
    (hhit : m.cachedFilterRecords t.message s.shiftedFrequency = some records)
    (hcovered : (∃ record ∈ records, record.index = i) ∨ m.acceptedOverlap masks t s F = none)
    (h : applyEnergyToFilters masks t s m = some m') :
    ∃ r, m.outcome masks t s true F = some r ∧
      m'.filterNoiseRecorderMap[i]? = some { F with recorder := r } := by
  obtain ⟨hnodup, hok⟩ := hinv t.message s.shiftedFrequency records hhit
  rcases applyEnergyToFilters_cases h with ⟨records', hhit', hfold⟩ | ⟨hmiss, -⟩
  · rw [hhit, Option.some.injEq] at hhit'
    subst hhit'
    by_cases hrecord : ∃ record ∈ records, record.index = i
    · obtain ⟨record, hmem, rfl⟩ := hrecord
      obtain ⟨F', hF', hrec⟩ := hok record hmem
      rw [hF, Option.some.injEq] at hF'
      subst hF'
      obtain ⟨m₁, m₂, hview₁, hstep, hview₂⟩ := foldlM_view_at FilterRecord.index
        (filterView record.index) (fun _ _ _ hne hst => applyFilterRecord_other hne hst) hnodup hmem rfl hfold
      obtain ⟨r, hr, hget⟩ := applyFilterRecord_outcome hrec (hview₁.trans (by
        unfold filterView
        rw [hF])) hstep
      refine ⟨r, hr, ?_⟩
      have hget' : m'.filterNoiseRecorderMap[record.index]?
          = m₂.filterNoiseRecorderMap[record.index]? := congrArg Prod.snd hview₂
      rw [hget', hget]
    · -- no record: the segment is not for this filter, and nothing touches it
      have hnone := hcovered.resolve_left hrecord
      have hview := foldlM_view_other FilterRecord.index (filterView i)
        (fun _ _ _ hne hst => applyFilterRecord_other hne hst) records m m'
        (fun record hmem hidx => hrecord ⟨record, hmem, hidx⟩) hfold
      refine ⟨F.recorder, ?_, ?_⟩
      · unfold outcome
        rw [hnone]
      · have hget : m'.filterNoiseRecorderMap[i]? = m.filterNoiseRecorderMap[i]? :=
          congrArg Prod.snd hview
        rw [hget, hF]
  · rw [hhit] at hmiss
    exact absurd hmiss (by simp)

/-! ## The entries and the history -/

theorem SameKey.symm {msg msg' : Message} (h : SameKey msg msg') : SameKey msg' msg :=
  ⟨h.1.symm, h.2.symm⟩

theorem SameKey.trans {msg₁ msg₂ msg₃ : Message} (h : SameKey msg₁ msg₂) (h' : SameKey msg₂ msg₃) :
    SameKey msg₁ msg₃ := ⟨h.1.trans h'.1, h.2.trans h'.2⟩

/-- One more segment stores an entry if none was stored for its key. -/
theorem storedBy_concat (history : List Seen) (e : Seen) (msg : Message) (φ : ℕ) :
    storedBy (history ++ [e]) msg φ = (storedBy history msg φ).or
      (if SameKey e.timed.message msg ∧ e.segment.shiftedFrequency = φ then some e else none) := by
  unfold storedBy
  rw [List.find?_append, List.find?_singleton]
  simp only [decide_eq_true_eq]

theorem storedBy_sameKey {history : List Seen} {msg msg' : Message} (h : SameKey msg msg') (φ : ℕ) :
    storedBy history msg φ = storedBy history msg' φ := by
  unfold storedBy
  congr 1
  funext e
  have hiff : SameKey e.timed.message msg ↔ SameKey e.timed.message msg' :=
    ⟨fun he => he.trans h, fun he => he.trans h.symm⟩
  simp only [hiff]

/-- A filter accepts a segment for what it is, whatever its recorder holds. -/
theorem acceptedOverlap_shape {masks : Masks} {m : SpectrumMonitor} {t : Timed} {s : Segment}
    {F F' : Filter} (h : filterShape F' = filterShape F) :
    m.acceptedOverlap masks t s F' = m.acceptedOverlap masks t s F := by
  simp only [filterShape, Prod.mk.injEq] at h
  obtain ⟨hf, hb, hc⟩ := h
  unfold acceptedOverlap
  rw [hf, hb, hc]

/-- The records are those of the filters that accepted the segment. -/
def RecordsOf (masks : Masks) (e : Seen) (m : SpectrumMonitor) (records : List FilterRecord) : Prop :=
  ∀ i F, m.filterNoiseRecorderMap[i]? = some F →
    ((∃ record ∈ records, record.index = i) ↔ e.accepted masks F = true)

/-- An entry is in the caches exactly when it was stored, and it has the records of the filters that
accepted the segment for which it was. -/
structure HistoryInv (masks : Masks) (history : List Seen) (m : SpectrumMonitor) : Prop where
  inv : FilterInv masks m
  stored : ∀ msg φ, (m.cachedFilterRecords msg φ).isSome = (storedBy history msg φ).isSome
  records : ∀ msg φ records e, m.cachedFilterRecords msg φ = some records →
    storedBy history msg φ = some e → RecordsOf masks e m records

theorem RecordsOf.congr {masks : Masks} {e : Seen} {m m' : SpectrumMonitor} {records : List FilterRecord}
    (h : RecordsOf masks e m records)
    (hshape : ∀ i : ℕ, (m'.filterNoiseRecorderMap[i]?).map filterShape
      = (m.filterNoiseRecorderMap[i]?).map filterShape) : RecordsOf masks e m' records := by
  intro i F' hF'
  have hF := hshape i
  rw [hF'] at hF
  obtain ⟨F, hF, hs⟩ := Option.map_eq_some_iff.mp hF.symm
  rw [h i F hF, Seen.accepted, Seen.accepted, acceptedOverlap_shape hs]

section

variable {masks : Masks} {history : List Seen} {m m' : SpectrumMonitor} {t : Timed} {s : Segment}

/-- Recorders of the filters and everything outside the filters may change. -/
theorem HistoryInv.congr (h : HistoryInv masks history m)
    (hshape : ∀ i : ℕ, (m'.filterNoiseRecorderMap[i]?).map filterShape
      = (m.filterNoiseRecorderMap[i]?).map filterShape)
    (hbandwidth : m'.filterTransmitterBandwidthCache = m.filterTransmitterBandwidthCache)
    (hmask : m'.filterTransmitterSpectralMaskCache = m.filterTransmitterSpectralMaskCache) :
    HistoryInv masks history m' := by
  have hcached : ∀ msg φ, m'.cachedFilterRecords msg φ = m.cachedFilterRecords msg φ := by
    intro msg φ
    unfold cachedFilterRecords filterCache
    rw [hbandwidth, hmask]
  refine ⟨h.inv.congr hshape hbandwidth hmask, fun msg φ => ?_, fun msg φ records e hrec he => ?_⟩
  · rw [hcached, h.stored]
  · rw [hcached] at hrec
    exact (h.records msg φ records e hrec he).congr hshape

theorem HistoryInv.sameFilters (h : HistoryInv masks history m) (hs : m.SameFilters m') :
    HistoryInv masks history m' := h.congr hs.shape_eq hs.bandwidthCache_eq hs.maskCache_eq

/-- Nothing is stored in empty caches. -/
theorem historyInv_of_empty (hbandwidth : m.filterTransmitterBandwidthCache = ∅)
    (hmask : m.filterTransmitterSpectralMaskCache = ∅) : HistoryInv masks [] m := by
  have hnone : ∀ msg φ, m.cachedFilterRecords msg φ = none := by
    intro msg φ
    unfold cachedFilterRecords filterCache
    rw [hbandwidth, hmask]
    simp [CacheEntry.empty]
  refine ⟨filterInv_of_empty hbandwidth hmask, fun msg φ => by rw [hnone]; rfl, ?_⟩
  intro msg φ records e hrec
  rw [hnone] at hrec
  cases hrec

/-- A segment whose key is known stores nothing. -/
theorem storedBy_concat_of_isSome {e : Seen}
    (h : (storedBy history e.timed.message e.segment.shiftedFrequency).isSome = true) (msg : Message)
    (φ : ℕ) : storedBy (history ++ [e]) msg φ = storedBy history msg φ := by
  rw [storedBy_concat]
  split
  · next hkey =>
      obtain ⟨hkey, rfl⟩ := hkey
      rw [storedBy_sameKey hkey] at h
      obtain ⟨first, hfirst⟩ := Option.isSome_iff_exists.mp h
      rw [hfirst, Option.some_or]
  · exact Option.or_none

/-- A segment whose key is new stands for it from then on. -/
theorem storedBy_concat_of_eq_none {e : Seen}
    (h : storedBy history e.timed.message e.segment.shiftedFrequency = none) (msg : Message) (φ : ℕ) :
    storedBy (history ++ [e]) msg φ =
      if SameKey e.timed.message msg ∧ e.segment.shiftedFrequency = φ then some e
      else storedBy history msg φ := by
  rw [storedBy_concat]
  split
  · next hkey =>
      obtain ⟨hkey, rfl⟩ := hkey
      rw [← storedBy_sameKey hkey, h, Option.none_or]
  · exact Option.or_none

/-- What the slow path collects are the records of the filters that accept the segment. -/
theorem recordsOf_acceptedRecords {m₀ : SpectrumMonitor} (hconfig : m₀.config = m.config) (t : Timed)
    (s : Segment) : RecordsOf masks ⟨m₀, t, s⟩ m
      (m.filterNoiseRecorderMap.toList.filterMap (m.acceptedRecord masks t s)) := by
  intro i F hF
  rw [Seen.accepted, ← acceptedOverlap_congr hconfig.symm t s F]
  constructor
  · rintro ⟨record, hrecord, rfl⟩
    obtain ⟨x, hx, hacc⟩ := List.mem_filterMap.mp hrecord
    rw [acceptedRecord_index hacc, ExtTreeMap.mem_toList_iff_getElem?_eq_some.mp hx] at hF
    obtain rfl := Option.some.inj hF
    obtain ⟨overlap, hov, -⟩ := Option.map_eq_some_iff.mp hacc
    exact Option.isSome_iff_exists.mpr ⟨overlap, hov⟩
  · intro hacc
    obtain ⟨overlap, hov⟩ := Option.isSome_iff_exists.mp hacc
    have hmem := ExtTreeMap.mem_toList_iff_getElem?_eq_some.mpr hF
    have hrecord : m.acceptedRecord masks t s (i, F) = some _ :=
      Option.map_eq_some_iff.mpr ⟨overlap, hov, rfl⟩
    exact ⟨_, List.mem_filterMap.mpr ⟨(i, F), hmem, hrecord⟩, acceptedRecord_index hrecord⟩

/-- **A segment at the filters** is one more of the history. -/
theorem HistoryInv.applyEnergyToFilters (h : HistoryInv masks history m) {e : Seen}
    (hconfig : e.monitor.config = m.config) (ht : e.timed = t) (hs : e.segment = s)
    (hrun : SpectrumMonitor.applyEnergyToFilters masks t s m = some m') :
    HistoryInv masks (history ++ [e]) m' := by
  obtain ⟨m₀, t, s⟩ := e
  subst ht hs
  have hinv := h.inv.applyEnergyToFilters hrun
  have hcached := h.stored t.message s.shiftedFrequency
  rcases applyEnergyToFilters_cases hrun with ⟨records, hhit, hfold⟩ |
    ⟨hmiss, m₁, records, entry, hfold, hentry, rfl⟩
  · -- the entry is there, so the segment is not the first one with its key
    have hsame : m.SameFilters m' := foldlM_preserves SameFilters SameFilters.refl
      (fun _ _ _ => SameFilters.trans) (fun _ _ _ => applyFilterRecord_sameFilters) _ _ _ hfold
    rw [hhit, Option.isSome_some] at hcached
    have hstored := @storedBy_concat_of_isSome history ⟨m₀, t, s⟩ hcached.symm
    have hkept := h.sameFilters hsame
    refine ⟨hinv, fun msg φ => by rw [hstored, hkept.stored], fun msg φ records e hrec he => ?_⟩
    rw [hstored] at he
    exact hkept.records msg φ records e hrec he
  · -- the segment stores an entry, with what the slow path collects
    have hsame : m.SameFilters m₁ := foldlM_applyFilter_sameFilters hfold
    have hkept := h.sameFilters hsame
    have hcache : m₁.filterCache t.message = m.filterCache t.message := by
      unfold filterCache
      rw [hsame.bandwidthCache_eq, hsame.maskCache_eq]
    rw [← hcache] at hentry
    rw [hmiss, Option.isSome_none, eq_comm, Option.isSome_eq_false_iff, Option.isNone_iff_eq_none] at hcached
    have hstored := @storedBy_concat_of_eq_none history ⟨m₀, t, s⟩ hcached
    have hrecords : records = m.filterNoiseRecorderMap.toList.filterMap (m.acceptedRecord masks t s) := by
      have hcollected := foldlM_applyFilter_records (m := m) _ _ _ rfl hfold
      simpa using hcollected
    have hnew : RecordsOf masks ⟨m₀, t, s⟩ m₁ records :=
      hrecords ▸ (recordsOf_acceptedRecords hconfig t s).congr hsame.shape_eq
    refine ⟨hinv, fun msg φ => ?_, fun msg φ records' e hrec he => ?_⟩
    · rw [cachedFilterRecords_store m₁ t.message msg s.shiftedFrequency φ records hentry, hstored]
      split
      · rfl
      · exact hkept.stored msg φ
    · rw [cachedFilterRecords_store m₁ t.message msg s.shiftedFrequency φ records hentry] at hrec
      rw [hstored] at he
      intro i F hF
      rw [setFilterCache_map] at hF
      split at hrec
      · next hkey =>
          rw [if_pos hkey] at he
          obtain rfl := Option.some.inj he
          obtain rfl := Option.some.inj hrec
          exact hnew i F hF
      · next hkey =>
          rw [if_neg hkey] at he
          exact hkept.records msg φ records' e hrec he i F hF

/-- **Transparency** from the invariant. -/
theorem HistoryInv.transparent (h : HistoryInv masks history m) (t : Timed) (s : Segment) :
    Transparent masks history t s m := by
  intro m₁ m₂ h₁ h₂ i F hF hcovered
  have hempty : m.withoutFilterCaches.cachedFilterRecords t.message s.shiftedFrequency = none := by
    unfold cachedFilterRecords filterCache withoutFilterCaches
    split <;> simp [CacheEntry.empty]
  obtain ⟨r₂, hr₂, hget₂⟩ := slowPath_outcome (m := m.withoutFilterCaches) hF hempty h₂
  have hr₂' : m.outcome masks t s false F = some r₂ := hr₂
  rw [← h.stored]
  cases hcache : m.cachedFilterRecords t.message s.shiftedFrequency with
  | none =>
      obtain ⟨r₁, hr₁, hget₁⟩ := slowPath_outcome hF hcache h₁
      refine ⟨?_, r₁, hr₁, hget₁⟩
      intro _
      rw [hr₁, Option.some.injEq] at hr₂'
      rw [hget₁, hget₂, hr₂']
  | some records =>
      have hsome : (storedBy history t.message s.shiftedFrequency).isSome = true := by
        rw [← h.stored, hcache]
        rfl
      obtain ⟨e, he⟩ := Option.isSome_iff_exists.mp hsome
      have hrecord : (∃ record ∈ records, record.index = i) ∨ m.acceptedOverlap masks t s F = none :=
        (hcovered e he).imp_left (h.records t.message s.shiftedFrequency records e hcache he i F hF).mpr
      obtain ⟨r₁, hr₁, hget₁⟩ := cachedPath_outcome h.inv hF hcache hrecord h₁
      refine ⟨?_, r₁, hr₁, hget₁⟩
      intro hone
      rw [outcome_singleBand masks m t s F hone true false, hr₂', Option.some.injEq] at hr₁
      rw [hget₁, hget₂, hr₁]

end

/-! ## Runs -/

/-- The monitor on which a segment reaches the filters: after the recorders of the frequencies of
interest. -/
def beforeFilters (masks : Masks) (t : Timed) (l : SegmentLoop) (s : Segment) (r : RecordLoop) :
    SpectrumMonitor :=
  { (l.monitor.noiseRecords masks t.message s.shiftedFrequency).2 with noiseRecorderMap := r.map }

/-- `update` reaches the segment of a message after others of it. -/
structure Reached (masks : Masks) (m : SpectrumMonitor) (t : Timed) (before : List Segment)
    (l : SegmentLoop) (s : Segment) : Prop where
  timed : timed m.config t.message = some t
  segments : ∃ after, messageSegments m.config t.message = before ++ s :: after
  run : runSteps (segmentStep masks t) (m.startLoop t.message) before = some l

/-- The filters are transparent at a segment that records. -/
def SegmentTransparent (masks : Masks) (history : List Seen) (t : Timed) (l : SegmentLoop) (s : Segment) :
    Prop :=
  simpleMode l.monitor.config t.message = false →
    ∀ r, applyRecords l.monitor.config.receiverSensitivityMilliWatt t s l.monitor.noiseRecorderMap
        (l.monitor.noiseRecords masks t.message s.shiftedFrequency).1 = some r →
      Transparent masks history t s (beforeFilters masks t l s r)

theorem noiseRecords_filters (masks : Masks) (m : SpectrumMonitor) (msg : Message) (φ : ℕ) :
    (m.noiseRecords masks msg φ).2.filterNoiseRecorderMap = m.filterNoiseRecorderMap ∧
      (m.noiseRecords masks msg φ).2.filterTransmitterBandwidthCache
        = m.filterTransmitterBandwidthCache ∧
      (m.noiseRecords masks msg φ).2.filterTransmitterSpectralMaskCache
        = m.filterTransmitterSpectralMaskCache := by
  unfold noiseRecords
  split
  · exact ⟨rfl, rfl, rfl⟩
  · simp only [setRecordCache]
    split
    · exact ⟨rfl, rfl, rfl⟩
    · exact ⟨rfl, rfl, rfl⟩

section

variable {masks : Masks} {history : List Seen} {m m' : SpectrumMonitor} {t : Timed} {l l' : SegmentLoop}
  {s : Segment} {segs : List Segment}

theorem HistoryInv.beforeFilters (s : Segment) (r : RecordLoop) (h : HistoryInv masks history l.monitor) :
    HistoryInv masks history (beforeFilters masks t l s r) := by
  obtain ⟨h₁, h₂, h₃⟩ := noiseRecords_filters masks l.monitor t.message s.shiftedFrequency
  refine h.congr ?_ h₂ h₃
  intro i
  show Option.map filterShape
    ((l.monitor.noiseRecords masks t.message s.shiftedFrequency).2.filterNoiseRecorderMap[i]?) = _
  rw [h₁]

/-- A recorded segment ends with the filters, or skips them if its sub-id is to be left out. -/
theorem recordSegment_filters (h : recordSegment masks t l s = some l') :
    ∃ r, (beforeFilters masks t l s r).config = l.monitor.config ∧
      if l.monitor.config.excludeSameSubIdFromFilter = true ∧ l.monitor.config.subId = t.message.subId then
        l'.monitor = beforeFilters masks t l s r
      else applyEnergyToFilters masks t s (beforeFilters masks t l s r) = some l'.monitor := by
  obtain ⟨hconfig, -⟩ := noiseRecords_frame masks l.monitor t.message s.shiftedFrequency
  unfold recordSegment at h
  simp only [Option.bind_eq_bind] at h
  obtain ⟨r, -, h⟩ := Option.bind_eq_some_iff.mp h
  refine ⟨r, hconfig, ?_⟩
  rw [← hconfig]
  split at h
  · next hreach =>
      rw [if_neg fun hleftOut => by simp [hleftOut.1, hleftOut.2] at hreach]
      obtain ⟨m', hm', h⟩ := Option.bind_eq_some_iff.mp h
      rw [← Option.some.inj h]
      exact hm'
  · next hreach =>
      rw [if_pos (by simpa using hreach)]
      rw [Option.bind_some] at h
      rw [← Option.some.inj h]
      rfl

theorem seen_append (m : SpectrumMonitor) (t : Timed) (segs segs' : List Segment) :
    m.seen t (segs ++ segs') = m.seen t segs ++ m.seen t segs' := by
  unfold seen
  split
  · rfl
  · exact List.map_append

/-- **One segment** of a message. -/
theorem HistoryInv.segmentStep (h : HistoryInv masks history l.monitor)
    (hconfig : l.monitor.config = m.config) (hstep : segmentStep masks t l s = some l') :
    HistoryInv masks (history ++ m.seen t [s]) l'.monitor := by
  unfold SpectrumMonitor.segmentStep at hstep
  unfold seen
  rw [← hconfig]
  split at hstep
  · next hmode =>
      rw [← Option.some.inj hstep, simpleSegment_monitor, if_pos (.inl hmode), List.append_nil]
      exact h
  · next hmode =>
      obtain ⟨r, hsame, hr⟩ := recordSegment_filters hstep
      split at hr
      · next hleftOut =>
          rw [hr, if_pos (.inr hleftOut), List.append_nil]
          exact h.beforeFilters s r
      · next hreach =>
          rw [if_neg (not_or.mpr ⟨hmode, hreach⟩)]
          exact (h.beforeFilters s r).applyEnergyToFilters (hconfig.symm.trans hsame.symm) rfl rfl hr

/-- **The segments of a message.** -/
theorem HistoryInv.segments (h : HistoryInv masks history l.monitor)
    (hconfig : l.monitor.config = m.config)
    (hrun : runSteps (SpectrumMonitor.segmentStep masks t) l segs = some l') :
    HistoryInv masks (history ++ m.seen t segs) l'.monitor := by
  induction segs generalizing l history with
  | nil =>
      rw [runSteps_nil, Option.some.injEq] at hrun
      subst hrun
      have hnil : m.seen t [] = [] := by
        unfold seen
        split <;> rfl
      rw [hnil, List.append_nil]
      exact h
  | cons s segs ih =>
      rw [runSteps_cons] at hrun
      obtain ⟨l₁, h₁, hrun⟩ := Option.bind_eq_some_iff.mp hrun
      have hnext := ih (h.segmentStep hconfig h₁) ((segmentStep_frame h₁).1.trans hconfig) hrun
      rwa [List.append_assoc, ← seen_append, List.singleton_append] at hnext

/-- **One operation** of a run. -/
theorem HistoryInv.opStep (h : HistoryInv masks history m) {op : Op}
    (hstep : SpectrumMonitor.opStep masks m op = some m') :
    HistoryInv masks (opHistory m history op) m' := by
  cases op with
  | init config =>
      rw [← Option.some.inj hstep]
      exact h.congr (fun _ => rfl) rfl rfl
  | addFilter index frequencyHz bandwidthHz bandwidthBinSizeHz criterion =>
      replace hstep : m.initializeFilter index frequencyHz bandwidthHz bandwidthBinSizeHz criterion
          = some m' := hstep
      unfold initializeFilter at hstep
      split at hstep
      · cases hstep
      · rw [← Option.some.inj hstep]
        exact historyInv_of_empty rfl rfl
  | removeFilter index =>
      rw [← Option.some.inj hstep]
      show HistoryInv masks (if index ∈ m.filterNoiseRecorderMap then [] else history)
        (m.removeFilter index)
      unfold SpectrumMonitor.removeFilter
      by_cases hmem : index ∈ m.filterNoiseRecorderMap
      · rw [if_pos hmem, if_pos hmem]
        exact historyInv_of_empty rfl rfl
      · rw [if_neg hmem, if_neg hmem]
        exact h
  | update msg =>
      have hstart : HistoryInv masks history (m.startLoop msg).monitor := h.congr (fun _ => rfl) rfl rfl
      obtain ⟨⟨m₁, report⟩, hupd, rfl⟩ := Option.map_eq_some_iff.mp hstep
      simp only [opHistory]
      rcases update_spec hupd with ⟨hnone, flag, rfl⟩ | ⟨t, l, ht, hrun, flag, rfl⟩
      · rw [hnone]
        exact h.congr (fun _ => rfl) rfl rfl
      · rw [ht]
        exact (hstart.segments (m := m) rfl hrun).congr (fun _ => rfl) rfl rfl

/-- **A run** keeps the invariant. -/
theorem historyInv_of_run {ops : List Op}
    (hrun : runSteps (opStepSeen masks) (SpectrumMonitor.new, []) ops = some (m, history)) :
    HistoryInv masks history m := by
  have hkeeps : ∀ (x : SpectrumMonitor × List Seen) op x', HistoryInv masks x.2 x.1 →
      opStepSeen masks x op = some x' → HistoryInv masks x'.2 x'.1 := by
    intro x op x' hx hstep
    obtain ⟨m', hm', rfl⟩ := Option.map_eq_some_iff.mp hstep
    exact hx.opStep hm'
  exact runSteps_keeps (I := fun x : SpectrumMonitor × List Seen => HistoryInv masks x.2 x.1) hkeeps
    (historyInv_of_empty rfl rfl) hrun

end

end SpectrumMonitor

open SpectrumMonitor

/-- **The filter caches are transparent for the filters they cover**: in every run of initializations,
filter changes and updates, at every segment that a message brings, a filter that accepted the segment for
which the entry was stored, or that does not accept this one, or any filter if no entry was stored, ends
with the recorder it has on emptied caches if it has no sub-bands, and with the recorder of the same
overlap segments, their powers scaled by the overlap ratio when an entry was stored, if it has. -/
theorem filter_caches_transparent (masks : Masks) {ops : List Op} {m : SpectrumMonitor}
    {history : List Seen}
    (hrun : runSteps (opStepSeen masks) (SpectrumMonitor.new, []) ops = some (m, history))
    {t : Timed} {before : List Segment} {l : SegmentLoop} {s : Segment}
    (hreached : Reached masks m t before l s) :
    SegmentTransparent masks (history ++ m.seen t before) t l s := by
  have hstart : HistoryInv masks history (m.startLoop t.message).monitor :=
    (historyInv_of_run hrun).congr (fun _ => rfl) rfl rfl
  have hinv := hstart.segments (m := m) rfl hreached.run
  intro _ r _
  exact (hinv.beforeFilters s r).transparent t s

/-- A filter with sub-bands that takes the sub-id `2`, and one message for it. -/
def subBandsSeen : List Op :=
  [.init (recordingConfig []), .addFilter 0 1000 100 50 (some fun _ _ subId _ => subId == 2),
    .update (messageAt 1000 1040 100 0)]

/-- The next message finds the entry that the first one stored, for which the filter accepted it. -/
theorem filter_caches_transparent_subBands :
    ∃ m history t s e F,
      runSteps (opStepSeen oneMask) (SpectrumMonitor.new, []) subBandsSeen = some (m, history) ∧
      t.message = messageAt 1100 1040 100 0 ∧ Reached oneMask m t [] (m.startLoop t.message) s ∧
      storedBy (history ++ m.seen t []) t.message s.shiftedFrequency = some e ∧
      m.filterNoiseRecorderMap[0]? = some F ∧ e.accepted oneMask F = true ∧
      1 < F.recorder.totalSubBandBins ∧
      SegmentTransparent oneMask (history ++ m.seen t []) t (m.startLoop t.message) s := by
  have hfacts : ((runSteps (opStepSeen oneMask) (SpectrumMonitor.new, []) subBandsSeen).bind fun x =>
      (timed x.1.config (messageAt 1100 1040 100 0)).bind fun t =>
        (messageSegments x.1.config (messageAt 1100 1040 100 0)).head?.bind fun s =>
          (storedBy (x.2 ++ x.1.seen t []) (messageAt 1100 1040 100 0) s.shiftedFrequency).bind fun e =>
            x.1.filterNoiseRecorderMap[0]?.map fun F =>
              (e.accepted oneMask F, F.recorder.totalSubBandBins)) = some (true, 3) := by
    decide +kernel
  obtain ⟨⟨m, history⟩, hrun, hfacts⟩ := Option.bind_eq_some_iff.mp hfacts
  obtain ⟨t, ht, hfacts⟩ := Option.bind_eq_some_iff.mp hfacts
  obtain ⟨s, hs, hfacts⟩ := Option.bind_eq_some_iff.mp hfacts
  obtain ⟨e, he, hfacts⟩ := Option.bind_eq_some_iff.mp hfacts
  obtain ⟨F, hF, hfacts⟩ := Option.map_eq_some_iff.mp hfacts
  obtain ⟨haccepted, hbins⟩ := Prod.mk.inj hfacts
  have hmessage := timed_message ht
  rw [← hmessage] at ht hs he
  have hreached : Reached oneMask m t [] (m.startLoop t.message) s := by
    obtain ⟨after, hafter⟩ := List.head?_eq_some_iff.mp hs
    exact ⟨ht, ⟨after, hafter⟩, rfl⟩
  exact ⟨m, history, t, s, e, F, hrun, hmessage, hreached, he, hF, haccepted, by rw [hbins]; decide,
    filter_caches_transparent oneMask hrun hreached⟩

/-- The window of a filter after one more message. -/
def filterWindow (m : SpectrumMonitor) (msg : Message) (i : ℕ) (now startTime : ℤ) :
    Option (Option (List ℚ × ℤ)) := do
  let (m, _) ← m.update oneMask msg
  let F ← m.filterNoiseRecorderMap[i]?
  F.recorder.tryGet now 0 startTime

/-- Two ways in which the caches show. A filter with sub-bands, seen before with an overlap ratio of
`3 / 5`, is given `3 / 5` of the power on the cached path and all of it on emptied caches. And a
filter that did not match the first segment of its bandwidth and frequency is given nothing by a
later segment that it matches. -/
theorem filter_caches_visible :
    ((runSteps (opStep oneMask) SpectrumMonitor.new
        [.init (recordingConfig []), .addFilter 0 1000 100 50 none,
          .update (messageAt 1000 1040 100 0)]).bind
      (fun m => filterWindow m (messageAt 1100 1040 100 0) 0 1110 1100)
        = some (some ([1 / 10, 1 / 2, 0], 1100))) ∧
    ((runSteps (opStep oneMask) SpectrumMonitor.new
        [.init (recordingConfig []), .addFilter 0 1000 100 50 none,
          .update (messageAt 1000 1040 100 0)]).bind
      (fun m => filterWindow m.withoutFilterCaches (messageAt 1100 1040 100 0) 0 1110 1100)
        = some (some ([1 / 6, 5 / 6, 0], 1100))) ∧
    ((runSteps (opStep oneMask) SpectrumMonitor.new
        [.init (recordingConfig []), .addFilter 0 1000 100 0 (some fun _ _ subId _ => subId == 2),
          .update { messageAt 1000 1000 100 0 with subId := 3 }]).bind
      (fun m => filterWindow m (messageAt 1100 1000 100 0) 0 1110 1100)
        = some (some ([0], 1100))) ∧
    ((runSteps (opStep oneMask) SpectrumMonitor.new
        [.init (recordingConfig []), .addFilter 0 1000 100 0 (some fun _ _ subId _ => subId == 2),
          .update { messageAt 1000 1000 100 0 with subId := 3 }]).bind
      (fun m => filterWindow m.withoutFilterCaches (messageAt 1100 1000 100 0) 0 1110 1100)
        = some (some ([1], 1100))) := by
  refine ⟨?_, ?_, ?_, ?_⟩
  · decide +kernel
  · decide +kernel
  · decide +kernel
  · decide +kernel

end Emane.Spectrum
