import Emane.Noise.Capacity
import Emane.Spectrum.FilterCache

set_option autoImplicit false

/-! # Messages that end with a clamp error

`update` checks the clamps of a segment and then records it, one segment after the other. A segment out
of range refuses the message, but the segments before it have been recorded.

A message with a clamp error leaves all recorders as they were if none of the segments before the error
reaches a recorder (`SegmentQuiet`). If one of them has bins that are newer than all that its recorder
has, the recorders are not as they were (`SegmentExtends`).
-/

namespace Emane.Spectrum

open Std Emane.Lib Emane.Noise

namespace SpectrumMonitor

/-! ## Segments that reach a recorder -/

/-- The recorders of the two monitors agree. -/
structure SameRecorders (m m' : SpectrumMonitor) : Prop where
  config_eq : m'.config = m.config
  noise_eq : m'.noiseRecorderMap = m.noiseRecorderMap
  filter_eq : m'.filterNoiseRecorderMap = m.filterNoiseRecorderMap

theorem SameRecorders.refl (m : SpectrumMonitor) : m.SameRecorders m := ⟨rfl, rfl, rfl⟩

theorem SameRecorders.trans {m₁ m₂ m₃ : SpectrumMonitor} (h : m₁.SameRecorders m₂)
    (h' : m₂.SameRecorders m₃) : m₁.SameRecorders m₃ :=
  ⟨h'.1.trans h.1, h'.2.trans h.2, h'.3.trans h.3⟩

/-- The power accumulated with a record is below the sensitivity, or there is no recorder. -/
def RecordQuiet (sensitivity : ℚ) (s : Segment) (l : RecordLoop) (record : NoiseRecord) : Prop :=
  sensitivity ≤ l.overlapPower + overlapPowerMw record.overlap s.rxPowerMw →
    record.frequency ∉ l.map

/-- The records of filters that a segment is applied to, cached or new. -/
def filterRecords (masks : Masks) (m : SpectrumMonitor) (t : Timed) (s : Segment) : List FilterRecord :=
  match m.cachedFilterRecords t.message s.shiftedFrequency with
  | some records => records
  | none => m.filterNoiseRecorderMap.toList.filterMap (m.acceptedRecord masks t s)

/-- There is no such filter, it does not match the message, or the power is below the sensitivity. -/
def FilterQuiet (m : SpectrumMonitor) (t : Timed) (s : Segment) (record : FilterRecord) : Prop :=
  record.index ∈ m.filterNoiseRecorderMap →
    m.recordMatches t.message s record.criterion record.lower record.upper = true →
    overlapPowerMw record.overlap s.rxPowerMw < m.config.receiverSensitivityMilliWatt

/-- The segment reaches no recorder: in a simple mode it never does. -/
def SegmentQuiet (masks : Masks) (t : Timed) (l : SegmentLoop) (s : Segment) : Prop :=
  simpleMode l.monitor.config t.message = false →
    RunMeets (applyRecord l.monitor.config.receiverSensitivityMilliWatt t s)
        (RecordQuiet l.monitor.config.receiverSensitivityMilliWatt s)
        ⟨l.monitor.noiseRecorderMap, 0, false, false, 0, 0⟩
        (l.monitor.noiseRecords masks t.message s.shiftedFrequency).1 ∧
      ((!l.monitor.config.excludeSameSubIdFromFilter ||
          decide (l.monitor.config.subId ≠ t.message.subId)) = true →
        ∀ record ∈ l.monitor.filterRecords masks t s, l.monitor.FilterQuiet t s record)

/-- The record leads to new bins in its recorder, and they end after the newest one. -/
def RecordExtends (sensitivity : ℚ) (t : Timed) (s : Segment) (l : RecordLoop) (record : NoiseRecord) :
    Prop :=
  let power := l.overlapPower + overlapPowerMw record.overlap s.rxPowerMw
  let c := updateCall t s power record.lower record.upper false
  sensitivity ≤ power ∧ ∃ r ∈ l.map[record.frequency]?,
    r.effectiveStartBin c ≤ c.eorBin r.binSizeMicroseconds ∧
      r.maxEndOfReceptionBin < c.eorBin r.binSizeMicroseconds

/-- The segment is recorded with bins newer than all others of a recorder. -/
def SegmentExtends (masks : Masks) (t : Timed) (l : SegmentLoop) (s : Segment) : Prop :=
  simpleMode l.monitor.config t.message = false ∧
    ¬ RunMeets (applyRecord l.monitor.config.receiverSensitivityMilliWatt t s)
      (fun r record => ¬ RecordExtends l.monitor.config.receiverSensitivityMilliWatt t s r record)
      ⟨l.monitor.noiseRecorderMap, 0, false, false, 0, 0⟩
      (l.monitor.noiseRecords masks t.message s.shiftedFrequency).1

instance (sensitivity : ℚ) (s : Segment) (l : RecordLoop) (record : NoiseRecord) :
    Decidable (RecordQuiet sensitivity s l record) :=
  inferInstanceAs (Decidable (_ → _))

instance (m : SpectrumMonitor) (t : Timed) (s : Segment) (record : FilterRecord) :
    Decidable (m.FilterQuiet t s record) :=
  inferInstanceAs (Decidable (_ → _ → _))

instance (masks : Masks) (t : Timed) (l : SegmentLoop) (s : Segment) :
    Decidable (SegmentQuiet masks t l s) :=
  inferInstanceAs (Decidable (_ → _ ∧ _))

instance (sensitivity : ℚ) (t : Timed) (s : Segment) (l : RecordLoop) (record : NoiseRecord) :
    Decidable (RecordExtends sensitivity t s l record) :=
  inferInstanceAs (Decidable (_ ∧ ∃ r ∈ l.map[record.frequency]?, _))

instance (masks : Masks) (t : Timed) (l : SegmentLoop) (s : Segment) :
    Decidable (SegmentExtends masks t l s) :=
  inferInstanceAs (Decidable (_ ∧ ¬ _))

/-! ## Quiet segments change no recorder -/

theorem applyRecord_quiet {sensitivity : ℚ} {t : Timed} {s : Segment} {l l' : RecordLoop}
    {record : NoiseRecord} (hquiet : RecordQuiet sensitivity s l record)
    (h : applyRecord sensitivity t s l record = some l') : l'.map = l.map := by
  unfold applyRecord at h
  simp only at h
  split at h
  · next hpower =>
      split at h
      · next r hr =>
          refine absurd ?_ (hquiet hpower)
          rw [ExtTreeMap.mem_iff_isSome_getElem?, hr]
          rfl
      · cases h
        rfl
  · cases h
    rfl

theorem applyFilterRecord_quiet {m m' : SpectrumMonitor} {t : Timed} {s : Segment}
    {cached checkMatch : Bool} {record : FilterRecord} (hquiet : m.FilterQuiet t s record)
    (hmatch : checkMatch = false →
      m.recordMatches t.message s record.criterion record.lower record.upper = true)
    (h : m.applyFilterRecord t s cached checkMatch record = some m') : m.SameRecorders m' := by
  unfold applyFilterRecord at h
  split at h
  · cases h
    exact SameRecorders.refl m
  next F hF =>
      split at h
      · cases h
        exact SameRecorders.refl m
      next hskip =>
          obtain ⟨recorder, hrecorder, h⟩ := Option.bind_eq_some_iff.mp h
          cases h
          have hmatches : m.recordMatches t.message s record.criterion record.lower record.upper = true := by
            cases checkMatch with
            | false => exact hmatch rfl
            | true => simpa using hskip
          have hmem : record.index ∈ m.filterNoiseRecorderMap := by
            rw [ExtTreeMap.mem_iff_isSome_getElem?, hF]
            rfl
          -- the power is below the sensitivity, so the recorder is put back as it was
          rw [applyOverlap, if_pos (hquiet hmem hmatches)] at hrecorder
          cases hrecorder
          refine ⟨rfl, rfl, ?_⟩
          refine ExtTreeMap.ext_getElem? fun i => ?_
          rw [ExtTreeMap.getElem?_insert]
          split
          · next hi => rw [← Nat.compare_eq_eq.mp hi, hF]
          · rfl

/-- What is quiet for a monitor is quiet for one with the same recorders. -/
theorem FilterQuiet.congr {m m' : SpectrumMonitor} {t : Timed} {s : Segment} {record : FilterRecord}
    (h : m.SameRecorders m') (hquiet : m.FilterQuiet t s record) : m'.FilterQuiet t s record := by
  unfold FilterQuiet recordMatches at *
  rw [h.config_eq, h.filter_eq]
  exact hquiet

theorem setFilterCache_sameRecorders (m : SpectrumMonitor) (msg : Message)
    (cache : ExtTreeMap ℕ (CacheEntry FilterRecord)) : m.SameRecorders (m.setFilterCache msg cache) := by
  unfold setFilterCache
  split
  · exact ⟨rfl, rfl, rfl⟩
  · exact ⟨rfl, rfl, rfl⟩

/-- **The filters** are left alone by a segment that is quiet for all records it is applied to. -/
theorem applyEnergyToFilters_quiet {masks : Masks} {t : Timed} {s : Segment} {m m' : SpectrumMonitor}
    (hquiet : ∀ record ∈ m.filterRecords masks t s, m.FilterQuiet t s record)
    (h : applyEnergyToFilters masks t s m = some m') : m.SameRecorders m' := by
  unfold applyEnergyToFilters at h
  simp only at h
  unfold filterRecords cachedFilterRecords at hquiet
  split at h
  · next records hcached =>
      simp only [hcached] at hquiet
      exact runSteps_keeps_of_mem (I := fun m₁ => m.SameRecorders m₁)
        (fun m₁ record hrecord m₂ hsame hstep => hsame.trans (applyFilterRecord_quiet
          ((hquiet record hrecord).congr hsame) (fun hfalse => absurd hfalse (by decide)) hstep))
        (SameRecorders.refl m) h
  · next hcached =>
      simp only [hcached] at hquiet
      obtain ⟨⟨m₁, records⟩, h₁, h⟩ := Option.bind_eq_some_iff.mp h
      cases h
      have hfold := runSteps_keeps_of_mem
        (I := fun st : SpectrumMonitor × List FilterRecord => m.SameRecorders st.1)
        (fun st x hx st' hsame hstep => by
          rcases applyFilter_cases hstep with ⟨-, rfl⟩ | ⟨record, m₂, hrecord, hm₂, rfl⟩
          · exact hsame
          · have haccepted : m.acceptedRecord masks t s x = some record := by
              unfold acceptedRecord at hrecord ⊢
              rwa [acceptedOverlap_congr hsame.config_eq] at hrecord
            refine hsame.trans (applyFilterRecord_quiet ((hquiet record ?_).congr hsame) ?_ hm₂)
            · exact List.mem_filterMap.mpr ⟨x, hx, haccepted⟩
            · intro _
              obtain ⟨overlap, hoverlap, rfl⟩ := Option.map_eq_some_iff.mp hrecord
              have haccept := (Option.filter_eq_some_iff.mp hoverlap).2
              rw [Bool.and_eq_true] at haccept
              exact haccept.2)
        (SameRecorders.refl m) h₁
      exact hfold.trans (setFilterCache_sameRecorders m₁ t.message _)

/-- The lookup of the records leaves the recorders and the filter caches alone. -/
theorem noiseRecords_sameRecorders (masks : Masks) (m : SpectrumMonitor) (t : Timed) (s : Segment) :
    m.SameRecorders (m.noiseRecords masks t.message s.shiftedFrequency).2 ∧
      (m.noiseRecords masks t.message s.shiftedFrequency).2.filterRecords masks t s =
        m.filterRecords masks t s := by
  unfold noiseRecords
  split
  · exact ⟨SameRecorders.refl m, rfl⟩
  · simp only [setRecordCache]
    split
    · exact ⟨⟨rfl, rfl, rfl⟩, rfl⟩
    · exact ⟨⟨rfl, rfl, rfl⟩, rfl⟩

/-- **A quiet segment** changes no recorder. -/
theorem segmentStep_quiet {masks : Masks} {t : Timed} {l l' : SegmentLoop} {s : Segment}
    (hquiet : SegmentQuiet masks t l s) (h : segmentStep masks t l s = some l') :
    l.monitor.SameRecorders l'.monitor := by
  unfold segmentStep at h
  split at h
  · cases h
    rw [simpleSegment_monitor]
    exact SameRecorders.refl _
  next hsimple =>
  obtain ⟨hnoise, hfilters⟩ := hquiet (by simpa using hsimple)
  obtain ⟨hsame, hrecords⟩ := noiseRecords_sameRecorders masks l.monitor t s
  unfold recordSegment at h
  simp only [Option.bind_eq_bind] at h
  obtain ⟨r, hr, h⟩ := Option.bind_eq_some_iff.mp h
  have hmap : r.map = l.monitor.noiseRecorderMap := by
    rw [hsame.config_eq, hsame.noise_eq] at hr
    exact hnoise.keeps (I := fun r : RecordLoop => r.map = l.monitor.noiseRecorderMap)
      (fun r record r' hI hcond hstep => (applyRecord_quiet hcond hstep).trans hI) rfl hr
  have hmonitor : l.monitor.SameRecorders
      { (l.monitor.noiseRecords masks t.message s.shiftedFrequency).2 with noiseRecorderMap := r.map } :=
    ⟨hsame.config_eq, hmap, hsame.filter_eq⟩
  split at h
  · next happly =>
      obtain ⟨m', hm', h⟩ := Option.bind_eq_some_iff.mp h
      cases h
      rw [hsame.config_eq] at happly
      refine hmonitor.trans (applyEnergyToFilters_quiet (fun record hrecord => ?_) hm')
      refine (hfilters happly record ?_).congr hmonitor
      rw [← hrecords]
      exact hrecord
  · rw [Option.bind_some] at h
    cases h
    exact hmonitor

/-! ## Segments with the newest bins change a recorder -/

/-- The second recorder has the wheel of the first one and is not behind it. -/
structure NotBehind (r r' : NoiseRecorder) : Prop where
  wheelBins : r'.totalWheelBins = r.totalWheelBins
  newest : 0 ≤ r.totalWheelBins → r.maxEndOfReceptionBin ≤ r'.maxEndOfReceptionBin

/-- No recorder is behind the one it was. -/
def Grows (map map' : ExtTreeMap ℕ NoiseRecorder) : Prop :=
  ∀ f : ℕ, Option.Rel NotBehind map[f]? map'[f]?

/-- A recorder with a wheel is ahead of the one it was. -/
def Grown (map map' : ExtTreeMap ℕ NoiseRecorder) : Prop :=
  ∃ (f : ℕ) (r r' : NoiseRecorder), map[f]? = some r ∧ map'[f]? = some r' ∧
    r'.totalWheelBins = r.totalWheelBins ∧
    (0 ≤ r.totalWheelBins → r.maxEndOfReceptionBin < r'.maxEndOfReceptionBin)

theorem Grows.refl (map : ExtTreeMap ℕ NoiseRecorder) : Grows map map := by
  intro f
  cases map[f]? with
  | none => exact .none
  | some r => exact .some ⟨rfl, fun _ => le_rfl⟩

theorem Grows.trans {map₁ map₂ map₃ : ExtTreeMap ℕ NoiseRecorder} (h : Grows map₁ map₂)
    (h' : Grows map₂ map₃) : Grows map₁ map₃ := by
  intro f
  have h₁ := h f
  have h₂ := h' f
  generalize map₁[f]? = x, map₂[f]? = y, map₃[f]? = z at h₁ h₂
  cases h₁ with
  | none => exact h₂
  | some hr =>
      cases h₂ with
      | some hr' =>
          refine .some ⟨hr'.1.trans hr.1, fun hwheel => ?_⟩
          exact (hr.2 hwheel).trans (hr'.2 (hr.1 ▸ hwheel))

theorem Grows.trans_grown {map₁ map₂ map₃ : ExtTreeMap ℕ NoiseRecorder} (h : Grows map₁ map₂)
    (h' : Grown map₂ map₃) : Grown map₁ map₃ := by
  obtain ⟨f, r₂, r₃, h₂, h₃, hwheel, hlt⟩ := h'
  have hrel := h f
  rw [h₂] at hrel
  cases hr₁ : map₁[f]? with
  | none =>
      rw [hr₁] at hrel
      cases hrel
  | some r₁ =>
      rw [hr₁] at hrel
      cases hrel with
      | some hr =>
          refine ⟨f, r₁, r₃, hr₁, h₃, hwheel.trans hr.1, fun hpos => ?_⟩
          exact (hr.2 hpos).trans_lt (hlt (hr.1 ▸ hpos))

theorem Grown.trans_grows {map₁ map₂ map₃ : ExtTreeMap ℕ NoiseRecorder} (h : Grown map₁ map₂)
    (h' : Grows map₂ map₃) : Grown map₁ map₃ := by
  obtain ⟨f, r₁, r₂, h₁, h₂, hwheel, hlt⟩ := h
  have hrel := h' f
  rw [h₂] at hrel
  cases hr₃ : map₃[f]? with
  | none =>
      rw [hr₃] at hrel
      cases hrel
  | some r₃ =>
      rw [hr₃] at hrel
      cases hrel with
      | some hr =>
          refine ⟨f, r₁, r₃, h₁, hr₃, hr.1.trans hwheel, fun hpos => ?_⟩
          exact (hlt hpos).trans_le (hr.2 (hwheel ▸ hpos))

/-- One record: nothing happens, or its recorder is updated. -/
theorem applyRecord_cases {sensitivity : ℚ} {t : Timed} {s : Segment} {l l' : RecordLoop}
    {record : NoiseRecord} (h : applyRecord sensitivity t s l record = some l') :
    l'.map = l.map ∧ ¬ RecordExtends sensitivity t s l record ∨
      ∃ r r' sor eor, l.map[record.frequency]? = some r ∧
        r.update (updateCall t s (l.overlapPower + overlapPowerMw record.overlap s.rxPowerMw)
          record.lower record.upper false) = some (r', sor, eor) ∧
        l'.map = l.map.insert record.frequency r' := by
  unfold applyRecord at h
  simp only at h
  split at h
  · split at h
    · next r hr =>
        obtain ⟨⟨r', sor, eor⟩, hupdate, h⟩ := Option.bind_eq_some_iff.mp h
        cases h
        exact Or.inr ⟨r, r', sor, eor, hr, hupdate, rfl⟩
    · next hr =>
        cases h
        refine Or.inl ⟨rfl, ?_⟩
        rintro ⟨-, r, hr', -⟩
        rw [hr] at hr'
        cases hr'
  · next hpower =>
      cases h
      exact Or.inl ⟨rfl, fun hextends => hpower hextends.1⟩

theorem applyRecord_grows {sensitivity : ℚ} {t : Timed} {s : Segment} {l l' : RecordLoop}
    {record : NoiseRecord} (h : applyRecord sensitivity t s l record = some l') :
    Grows l.map l'.map := by
  rcases applyRecord_cases h with ⟨hmap, -⟩ | ⟨r, r', sor, eor, hr, hupdate, hmap⟩
  · rw [hmap]
    exact Grows.refl _
  · intro f
    rw [hmap, ExtTreeMap.getElem?_insert]
    split
    · next hf =>
        rw [← Nat.compare_eq_eq.mp hf, hr]
        exact .some ⟨(NoiseRecorder.update_sameShape hupdate).wheelBins,
          fun hwheel => (NoiseRecorder.update_newest hwheel hupdate).1⟩
    · exact Grows.refl l.map f

theorem applyRecord_grown {sensitivity : ℚ} {t : Timed} {s : Segment} {l l' : RecordLoop}
    {record : NoiseRecord} (hextends : RecordExtends sensitivity t s l record)
    (h : applyRecord sensitivity t s l record = some l') : Grown l.map l'.map := by
  rcases applyRecord_cases h with ⟨-, hnot⟩ | ⟨r, r', sor, eor, hr, hupdate, hmap⟩
  · exact absurd hextends hnot
  · obtain ⟨-, r₁, hr₁, hbins, hnewest⟩ := hextends
    rw [hr, Option.mem_some_iff] at hr₁
    subst hr₁
    refine ⟨record.frequency, r, r', hr, ?_, (NoiseRecorder.update_sameShape hupdate).wheelBins,
      fun hwheel => ?_⟩
    · rw [hmap, ExtTreeMap.getElem?_insert_self]
    · exact hnewest.trans_le ((NoiseRecorder.update_newest hwheel hupdate).2 hbins)

/-- The records of a segment, if it is recorded. -/
theorem segmentStep_records {masks : Masks} {t : Timed} {l l' : SegmentLoop} {s : Segment}
    (h : segmentStep masks t l s = some l') :
    simpleMode l.monitor.config t.message = true ∧
        l'.monitor.noiseRecorderMap = l.monitor.noiseRecorderMap ∨
      ∃ r, runSteps (applyRecord l.monitor.config.receiverSensitivityMilliWatt t s)
          ⟨l.monitor.noiseRecorderMap, 0, false, false, 0, 0⟩
          (l.monitor.noiseRecords masks t.message s.shiftedFrequency).1 = some r ∧
        l'.monitor.noiseRecorderMap = r.map := by
  unfold segmentStep at h
  split at h
  · next hsimple =>
      cases h
      rw [simpleSegment_monitor]
      exact Or.inl ⟨hsimple, rfl⟩
  · obtain ⟨r, hr, hsame⟩ := recordSegment_spec h
    exact Or.inr ⟨r, hr, hsame.map_eq⟩

theorem segmentStep_grows {masks : Masks} {t : Timed} {l l' : SegmentLoop} {s : Segment}
    (h : segmentStep masks t l s = some l') :
    Grows l.monitor.noiseRecorderMap l'.monitor.noiseRecorderMap := by
  rcases segmentStep_records h with ⟨-, hmap⟩ | ⟨r, hr, hmap⟩
  · rw [hmap]
    exact Grows.refl _
  · rw [hmap]
    exact foldlM_preserves (fun a b : RecordLoop => Grows a.map b.map) (fun a => Grows.refl a.map)
      (fun _ _ _ => Grows.trans) (fun _ _ _ => applyRecord_grows) _ _ _ hr

/-- **A segment with the newest bins** puts a recorder ahead of what it was. -/
theorem segmentStep_grown {masks : Masks} {t : Timed} {l l' : SegmentLoop} {s : Segment}
    (hextends : SegmentExtends masks t l s) (h : segmentStep masks t l s = some l') :
    Grown l.monitor.noiseRecorderMap l'.monitor.noiseRecorderMap := by
  obtain ⟨hsimple, hextends⟩ := hextends
  rcases segmentStep_records h with ⟨hsimple', -⟩ | ⟨r, hr, hmap⟩
  · rw [hsimple] at hsimple'
    cases hsimple'
  · obtain ⟨before, record, after, r₁, r₂, -, hbefore, hrecord, hstep, hafter⟩ :=
      exists_of_not_runMeets hextends hr
    have hgrows {a b : RecordLoop} {records : List NoiseRecord}
        (hrun : runSteps (applyRecord l.monitor.config.receiverSensitivityMilliWatt t s) a records =
          some b) : Grows a.map b.map :=
      foldlM_preserves (fun a b : RecordLoop => Grows a.map b.map) (fun a => Grows.refl a.map)
        (fun _ _ _ => Grows.trans) (fun _ _ _ => applyRecord_grows) _ _ _ hrun
    rw [hmap]
    exact ((hgrows hbefore).trans_grown (applyRecord_grown (not_not.mp hrecord) hstep)).trans_grows
      (hgrows hafter)

/-- Maps with a recorder ahead of the one it was are different. -/
theorem Grown.ne {map map' : ExtTreeMap ℕ NoiseRecorder} (h : Grown map map')
    (hwheels : ∀ (f : ℕ) (r : NoiseRecorder), map[f]? = some r → 0 ≤ r.totalWheelBins) : map' ≠ map := by
  rintro rfl
  obtain ⟨f, r, r', hr, hr', -, hlt⟩ := h
  rw [hr, Option.some.injEq] at hr'
  subst hr'
  exact lt_irrefl _ (hlt (hwheels f r hr))

/-! ## Messages with a clamp error -/

/-- **Clamp errors.** A message that ends with one leaves every recorder as it was if no segment before
the error reaches a recorder; if one of them is recorded with the newest bins of a recorder, the
recorders are not as they were. -/
theorem clampError_atomic (masks : Masks) (m m' : SpectrumMonitor) (msg : Message) (report : Report)
    (h : m.update masks msg = some (m', report)) (_herror : m'.lastUpdateClampError = true) :
    (m.AtSegments masks (SegmentQuiet masks) (.update msg) → m.SameRecorders m') ∧
    ((∀ (f : ℕ) (r : NoiseRecorder), m.noiseRecorderMap[f]? = some r → 0 ≤ r.totalWheelBins) →
      ¬ m.AtSegments masks (fun t l s => ¬ SegmentExtends masks t l s) (.update msg) →
      ¬ m.SameRecorders m') := by
  rcases update_spec h with ⟨htimed, flag, rfl⟩ | ⟨t, l, htimed, hrun, flag, rfl⟩
  · refine ⟨fun _ => ⟨rfl, rfl, rfl⟩, fun _ hextends => ?_⟩
    refine absurd ?_ hextends
    simp only [AtSegments, htimed]
  · simp only [AtSegments, htimed]
    have hstart : m.SameRecorders (m.startLoop msg).monitor := ⟨rfl, rfl, rfl⟩
    refine ⟨fun hquiet => ?_, fun hwheels hextends hsame => ?_⟩
    · have hloop : m.SameRecorders l.monitor :=
        hquiet.keeps (I := fun l : SegmentLoop => m.SameRecorders l.monitor)
          (fun _ _ _ hI hcond hstep => hI.trans (segmentStep_quiet hcond hstep)) hstart hrun
      exact ⟨hloop.1, hloop.2, hloop.3⟩
    · obtain ⟨before, s, after, l₁, l₂, -, hbefore, hs, hstep, hafter⟩ :=
        exists_of_not_runMeets hextends hrun
      have hgrows {a b : SegmentLoop} {segments : List Segment}
          (hrun : runSteps (segmentStep masks t) a segments = some b) :
          Grows a.monitor.noiseRecorderMap b.monitor.noiseRecorderMap :=
        foldlM_preserves
          (fun a b : SegmentLoop => Grows a.monitor.noiseRecorderMap b.monitor.noiseRecorderMap)
          (fun a => Grows.refl _) (fun _ _ _ => Grows.trans) (fun _ _ _ => segmentStep_grows) _ _ _ hrun
      have hgrown : Grown m.noiseRecorderMap l.monitor.noiseRecorderMap :=
        ((hgrows hbefore).trans_grown (segmentStep_grown (not_not.mp hs) hstep)).trans_grows
          (hgrows hafter)
      exact hgrown.ne hwheels hsame.noise_eq

/-- A segment of the given power, followed by one whose offset is out of range. -/
def brokenMessage (power : ℚ) : Message :=
  { messageAt 1000 1000 100 0 with
    segments := [⟨1000, 20, 0⟩, ⟨1000, 20, 50⟩]
    rxPowersMilliWatt := [power, power] }

/-- A monitor that records one frequency. -/
def recording : SpectrumMonitor := new.initializeMonitor (recordingConfig [1000])

/-- The segment in range is too weak for the recorder. -/
theorem clampError_atomic_weak :
    ∃ m' report, recording.update oneMask (brokenMessage 0) = some (m', report) ∧
      m'.lastUpdateClampError = true ∧ recording.SameRecorders m' := by
  have herror : (recording.update oneMask (brokenMessage 0)).map (·.1.lastUpdateClampError) =
      some true := by decide +kernel
  obtain ⟨⟨m', report⟩, hupdate, hflag⟩ := Option.map_eq_some_iff.mp herror
  exact ⟨m', report, hupdate, hflag, (clampError_atomic oneMask recording m' (brokenMessage 0) report
    hupdate hflag).1 (by decide +kernel)⟩

/-- **A strong segment is recorded** although the message is refused: the newest bin of the recorder
was none and is 101. -/
theorem clampError_not_atomic :
    ∃ m' report, recording.update oneMask (brokenMessage 1) = some (m', report) ∧
      m'.lastUpdateClampError = true ∧
      (recording.noiseRecorderMap[1000]?).map (·.maxEndOfReceptionBin) = some 0 ∧
      (m'.noiseRecorderMap[1000]?).map (·.maxEndOfReceptionBin) = some 101 ∧
      ¬ recording.SameRecorders m' := by
  have hbefore : (recording.noiseRecorderMap[1000]?).map (·.maxEndOfReceptionBin) = some 0 := by
    decide +kernel
  have hrun : (recording.update oneMask (brokenMessage 1)).map (fun x => (x.1.lastUpdateClampError,
      (x.1.noiseRecorderMap[1000]?).map (·.maxEndOfReceptionBin))) = some (true, some 101) := by
    decide +kernel
  obtain ⟨⟨m', report⟩, hupdate, h⟩ := Option.map_eq_some_iff.mp hrun
  obtain ⟨hflag, hafter⟩ := Prod.mk.inj h
  refine ⟨m', report, hupdate, hflag, hbefore, hafter, fun hsame => ?_⟩
  rw [hsame.noise_eq, hbefore] at hafter
  cases hafter

end SpectrumMonitor

end Emane.Spectrum
