import Emane.Lib.Run
import Emane.Lib.TreeMap
import Emane.Spectrum.Monitor

set_option autoImplicit false

/-! # What a segment can change

Frame lemmas for the segment loop of `update`. The filters touch neither the recorders of the
frequencies of interest nor their caches (`SameNoise`), the recorder loop keeps the set of
frequencies, and the loop over the raw segments is a run over the segments that pass the clamps
(`updateSegments_eq`).
-/

namespace Emane.Spectrum

open Std Emane.Lib Emane.Noise

namespace SpectrumMonitor

/-! ## Filters leave the recorders alone -/

/-- Everything but the filters and their caches agrees. -/
structure SameNoise (m m' : SpectrumMonitor) : Prop where
  config_eq : m'.config = m.config
  map_eq : m'.noiseRecorderMap = m.noiseRecorderMap
  bandwidthCache_eq : m'.transmitterBandwidthCache = m.transmitterBandwidthCache
  maskCache_eq : m'.transmitterSpectralMaskCache = m.transmitterSpectralMaskCache

theorem SameNoise.refl (m : SpectrumMonitor) : m.SameNoise m := ⟨rfl, rfl, rfl, rfl⟩

theorem SameNoise.trans {m₁ m₂ m₃ : SpectrumMonitor} (h : m₁.SameNoise m₂) (h' : m₂.SameNoise m₃) :
    m₁.SameNoise m₃ :=
  ⟨h'.1.trans h.1, h'.2.trans h.2, h'.3.trans h.3, h'.4.trans h.4⟩

theorem applyFilterRecord_sameNoise {m m' : SpectrumMonitor} {t : Timed} {s : Segment}
    {cached checkMatch : Bool} {record : FilterRecord}
    (h : m.applyFilterRecord t s cached checkMatch record = some m') : m.SameNoise m' := by
  unfold applyFilterRecord at h
  split at h
  · rw [← Option.some.inj h]
    exact SameNoise.refl m
  · split at h
    · rw [← Option.some.inj h]
      exact SameNoise.refl m
    · obtain ⟨recorder, -, h⟩ := Option.bind_eq_some_iff.mp h
      rw [← Option.some.inj h]
      exact ⟨rfl, rfl, rfl, rfl⟩

theorem applyFilter_sameNoise {masks : Masks} {t : Timed} {s : Segment} {x : ℕ × Filter}
    {st st' : SpectrumMonitor × List FilterRecord} (h : applyFilter masks t s st x = some st') :
    st.1.SameNoise st'.1 := by
  unfold applyFilter at h
  split at h
  · rw [← Option.some.inj h]
    exact SameNoise.refl st.1
  · split at h
    · rw [← Option.some.inj h]
      exact SameNoise.refl st.1
    · obtain ⟨m, hm, h⟩ := Option.bind_eq_some_iff.mp h
      rw [← Option.some.inj h]
      exact applyFilterRecord_sameNoise hm

theorem setFilterCache_sameNoise (m : SpectrumMonitor) (msg : Message)
    (cache : ExtTreeMap ℕ (CacheEntry FilterRecord)) : m.SameNoise (m.setFilterCache msg cache) := by
  unfold setFilterCache
  split
  · exact ⟨rfl, rfl, rfl, rfl⟩
  · exact ⟨rfl, rfl, rfl, rfl⟩

theorem applyEnergyToFilters_sameNoise {masks : Masks} {t : Timed} {s : Segment}
    {m m' : SpectrumMonitor} (h : applyEnergyToFilters masks t s m = some m') : m.SameNoise m' := by
  unfold applyEnergyToFilters at h
  simp only at h
  split at h
  · exact foldlM_preserves SameNoise SameNoise.refl (fun _ _ _ => SameNoise.trans)
      (fun _ _ _ => applyFilterRecord_sameNoise) _ _ _ h
  · obtain ⟨⟨m₁, records⟩, h₁, h⟩ := Option.bind_eq_some_iff.mp h
    rw [← Option.some.inj h]
    have hfold := foldlM_preserves (fun a b : SpectrumMonitor × List FilterRecord => a.1.SameNoise b.1)
      (fun a => SameNoise.refl a.1) (fun _ _ _ => SameNoise.trans)
      (fun _ _ _ => applyFilter_sameNoise) _ _ _ h₁
    exact hfold.trans (setFilterCache_sameNoise m₁ t.message _)

/-! ## The recorder loop keeps the frequencies -/

theorem applyRecord_mem {sensitivity : ℚ} {t : Timed} {s : Segment} {l l' : RecordLoop}
    {record : NoiseRecord} (h : applyRecord sensitivity t s l record = some l') (f : ℕ) :
    f ∈ l'.map ↔ f ∈ l.map := by
  unfold applyRecord at h
  simp only at h
  split at h
  · split at h
    next recorder hrec =>
        obtain ⟨⟨r', sor, eor⟩, -, h⟩ := Option.bind_eq_some_iff.mp h
        rw [← Option.some.inj h]
        have hmem : record.frequency ∈ l.map := by
          rw [ExtTreeMap.mem_iff_isSome_getElem?, hrec]
          rfl
        simp only [ExtTreeMap.mem_insert, Nat.compare_eq_eq]
        constructor
        · rintro (rfl | hf)
          · exact hmem
          · exact hf
        · exact Or.inr
    next hrec =>
        rw [← Option.some.inj h]
  · rw [← Option.some.inj h]

theorem applyRecords_mem {sensitivity : ℚ} {t : Timed} {s : Segment}
    {map : ExtTreeMap ℕ NoiseRecorder} {records : List NoiseRecord} {l : RecordLoop}
    (h : applyRecords sensitivity t s map records = some l) (f : ℕ) : f ∈ l.map ↔ f ∈ map :=
  foldlM_preserves (fun a b : RecordLoop => f ∈ b.map ↔ f ∈ a.map) (fun _ => Iff.rfl)
    (fun _ _ _ h₁ h₂ => h₂.trans h₁) (fun _ _ _ h => applyRecord_mem h f) _ _ _ h

/-! ## One segment -/

/-- The lookup of the records changes nothing but the cache it uses. -/
theorem noiseRecords_frame (masks : Masks) (m : SpectrumMonitor) (msg : Message) (φ : ℕ) :
    (m.noiseRecords masks msg φ).2.config = m.config ∧
      (m.noiseRecords masks msg φ).2.noiseRecorderMap = m.noiseRecorderMap := by
  unfold noiseRecords
  split
  · exact ⟨rfl, rfl⟩
  · simp only [setRecordCache]
    split
    · exact ⟨rfl, rfl⟩
    · exact ⟨rfl, rfl⟩

/-- **What a recorded segment does**: the lookup, the recorder loop, and changes to the filters
only. -/
theorem recordSegment_spec {masks : Masks} {t : Timed} {l l' : SegmentLoop} {s : Segment}
    (h : recordSegment masks t l s = some l') :
    ∃ r, applyRecords l.monitor.config.receiverSensitivityMilliWatt t s l.monitor.noiseRecorderMap
        (l.monitor.noiseRecords masks t.message s.shiftedFrequency).1 = some r ∧
      SameNoise { (l.monitor.noiseRecords masks t.message s.shiftedFrequency).2 with
        noiseRecorderMap := r.map } l'.monitor := by
  obtain ⟨hconfig, hmap⟩ := noiseRecords_frame masks l.monitor t.message s.shiftedFrequency
  unfold recordSegment at h
  simp only [Option.bind_eq_bind] at h
  obtain ⟨r, hr, h⟩ := Option.bind_eq_some_iff.mp h
  refine ⟨r, by rw [hconfig, hmap] at hr; exact hr, ?_⟩
  split at h
  · obtain ⟨m', hm', h⟩ := Option.bind_eq_some_iff.mp h
    rw [← Option.some.inj h]
    exact applyEnergyToFilters_sameNoise hm'
  · rw [Option.bind_some] at h
    rw [← Option.some.inj h]
    exact SameNoise.refl _

theorem simpleSegment_monitor (masks : Masks) (t : Timed) (l : SegmentLoop) (s : Segment) :
    (simpleSegment masks t l s).monitor = l.monitor := by
  unfold simpleSegment
  simp only
  split
  · split
    · rfl
    · rfl
  · rfl

/-- Segments change neither the configuration nor the set of frequencies. -/
theorem segmentStep_frame {masks : Masks} {t : Timed} {l l' : SegmentLoop} {s : Segment}
    (h : segmentStep masks t l s = some l') :
    l'.monitor.config = l.monitor.config ∧
      ∀ f, f ∈ l'.monitor.noiseRecorderMap ↔ f ∈ l.monitor.noiseRecorderMap := by
  unfold segmentStep at h
  split at h
  · rw [← Option.some.inj h, simpleSegment_monitor]
    exact ⟨rfl, fun _ => Iff.rfl⟩
  · obtain ⟨r, hr, hsame⟩ := recordSegment_spec h
    obtain ⟨hconfig, -⟩ := noiseRecords_frame masks l.monitor t.message s.shiftedFrequency
    refine ⟨hsame.config_eq.trans hconfig, ?_⟩
    intro f
    rw [hsame.map_eq]
    exact applyRecords_mem hr f

/-! ## The segments of a message -/

/-- The segments before the first clamp error. -/
def acceptedSegments (config : Config) (msg : Message) : List (FrequencySegment × ℚ) → List Segment
  | [] => []
  | x :: xs =>
      match clampSegment config msg x with
      | none => []
      | some s => s :: acceptedSegments config msg xs

/-- **The segment loop is a run over the accepted segments.** -/
theorem updateSegments_eq {masks : Masks} {t : Timed} :
    ∀ (xs : List (FrequencySegment × ℚ)) (l : SegmentLoop),
      (updateSegments masks t l xs).map (·.1)
        = runSteps (segmentStep masks t) l (acceptedSegments l.monitor.config t.message xs) := by
  intro xs
  induction xs with
  | nil =>
      intro l
      rfl
  | cons x xs ih =>
      intro l
      unfold updateSegments acceptedSegments
      cases clampSegment l.monitor.config t.message x with
      | none => rfl
      | some s =>
          simp only [runSteps_cons, Option.bind_eq_bind]
          cases hstep : segmentStep masks t l s with
          | none => rfl
          | some l' =>
              simp only [Option.bind_some]
              rw [ih l', (segmentStep_frame hstep).1]

/-- The message is processed: one power per segment, and the propagation delay passes the clamp. -/
def timed (config : Config) (msg : Message) : Option Timed :=
  if msg.segments.length ≠ msg.rxPowersMilliWatt.length then none
  else (clampValue msg.propagationDelay config.maxPropagation config.maxClamp).map fun p =>
    ⟨msg, validTxTime config msg, p⟩

theorem timed_message {config : Config} {msg : Message} {t : Timed}
    (h : timed config msg = some t) : t.message = msg := by
  unfold timed at h
  split at h
  · exact absurd h (by simp)
  · obtain ⟨p, -, rfl⟩ := Option.map_eq_some_iff.mp h
    rfl

/-- The segments `update` processes for a message. -/
def messageSegments (config : Config) (msg : Message) : List Segment :=
  acceptedSegments config msg (msg.segments.zip msg.rxPowersMilliWatt)

/-- The monitor with its clamp error flag set. -/
def withClampError (m : SpectrumMonitor) (flag : Bool) : SpectrumMonitor :=
  { m with lastUpdateClampError := flag }

theorem withClampError_sameNoise (m : SpectrumMonitor) (flag : Bool) :
    m.SameNoise (m.withClampError flag) := ⟨rfl, rfl, rfl, rfl⟩

/-- The report of a message whose segments were all processed. -/
def reportOf (config : Config) (t : Timed) (l : SegmentLoop) : Report :=
  ⟨t.validTxTime, t.validPropagation,
    if l.minimumSor = i64Max ∨ l.maximumEor = i64Min then 0 else l.maximumEor - l.minimumSor,
    l.reportable, l.reportAsInBand, config.receiverSensitivityMilliWatt⟩

/-- The end of `update`: a clamp error of a segment refuses the message. -/
def finishUpdate (config : Config) (t : Timed) (x : SegmentLoop × Bool) : SpectrumMonitor × Report :=
  if x.2 then (x.1.monitor.withClampError true, refused) else (x.1.monitor, reportOf config t x.1)

/-- `update` in parts. -/
theorem update_eq (masks : Masks) (m : SpectrumMonitor) (msg : Message) :
    m.update masks msg =
      if msg.segments.length ≠ msg.rxPowersMilliWatt.length then
        some (m.withClampError false, refused)
      else
        match clampValue msg.propagationDelay m.config.maxPropagation m.config.maxClamp with
        | none => some (m.withClampError true, refused)
        | some p => (updateSegments masks ⟨msg, validTxTime m.config msg, p⟩
            ((m.withClampError false).startLoop msg) (msg.segments.zip msg.rxPowersMilliWatt)).map
              (finishUpdate m.config ⟨msg, validTxTime m.config msg, p⟩) := by
  unfold update
  simp only
  split
  · rfl
  · cases clampValue msg.propagationDelay m.config.maxPropagation m.config.maxClamp with
    | none => rfl
    | some p =>
        show Option.bind (updateSegments masks ⟨msg, validTxTime m.config msg, p⟩
            ((m.withClampError false).startLoop msg) (msg.segments.zip msg.rxPowersMilliWatt)) _ =
          Option.map _ (updateSegments masks ⟨msg, validTxTime m.config msg, p⟩
            ((m.withClampError false).startLoop msg) (msg.segments.zip msg.rxPowersMilliWatt))
        cases updateSegments masks ⟨msg, validTxTime m.config msg, p⟩
            ((m.withClampError false).startLoop msg) (msg.segments.zip msg.rxPowersMilliWatt) with
        | none => rfl
        | some x =>
            obtain ⟨l, flag⟩ := x
            cases flag with
            | true => rfl
            | false => rfl

/-- **What a message does**, apart from the flag: nothing, or the run over its segments. -/
theorem update_spec {masks : Masks} {m m' : SpectrumMonitor} {msg : Message} {report : Report}
    (h : m.update masks msg = some (m', report)) :
    (timed m.config msg = none ∧ ∃ flag, m' = m.withClampError flag) ∨
      ∃ t l, timed m.config msg = some t ∧
        runSteps (segmentStep masks t) (m.startLoop msg) (messageSegments m.config msg) = some l ∧
        ∃ flag, m' = l.monitor.withClampError flag := by
  unfold update at h
  simp only at h
  split at h
  next hlen =>
      left
      simp only [Option.some.injEq, Prod.mk.injEq] at h
      exact ⟨by rw [timed, if_pos hlen], false, h.1.symm⟩
  next hlen =>
      split at h
      next hclamp =>
          left
          simp only [Option.some.injEq, Prod.mk.injEq] at h
          exact ⟨by rw [timed, if_neg hlen, hclamp]; rfl, true, h.1.symm⟩
      next p hclamp =>
          right
          obtain ⟨⟨l, clampError⟩, hloop, h⟩ := Option.bind_eq_some_iff.mp h
          refine ⟨⟨msg, validTxTime m.config msg, p⟩, l, by rw [timed, if_neg hlen, hclamp]; rfl, ?_, ?_⟩
          · have hrun := congrArg (Option.map (·.1)) hloop
            rw [updateSegments_eq] at hrun
            exact hrun
          · simp only at h
            split at h
            · simp only [Option.some.injEq, Prod.mk.injEq] at h
              exact ⟨true, h.1.symm⟩
            · simp only [Option.some.injEq, Prod.mk.injEq] at h
              exact ⟨l.monitor.lastUpdateClampError, h.1.symm⟩

/-- A message changes neither the configuration nor the set of frequencies. -/
theorem update_frame {masks : Masks} {m m' : SpectrumMonitor} {msg : Message} {report : Report}
    (h : m.update masks msg = some (m', report)) :
    m'.config = m.config ∧ ∀ f, f ∈ m'.noiseRecorderMap ↔ f ∈ m.noiseRecorderMap := by
  rcases update_spec h with ⟨-, flag, rfl⟩ | ⟨t, l, -, hrun, flag, rfl⟩
  · exact ⟨rfl, fun _ => Iff.rfl⟩
  · refine runSteps_keeps (I := fun l : SegmentLoop => l.monitor.config = m.config ∧
      ∀ f, f ∈ l.monitor.noiseRecorderMap ↔ f ∈ m.noiseRecorderMap) ?_ ?_ hrun
    · intro l s l' hl hstep
      obtain ⟨hconfig, hmem⟩ := segmentStep_frame hstep
      exact ⟨hconfig.trans hl.1, fun f => (hmem f).trans (hl.2 f)⟩
    · exact ⟨rfl, fun _ => Iff.rfl⟩

/-! ## Operations -/

/-- The operations of the monitor that change its state. -/
inductive Op where
  | init (config : Config)
  | addFilter (index frequencyHz bandwidthHz bandwidthBinSizeHz : ℕ) (criterion : Criterion)
  | removeFilter (index : ℕ)
  | update (msg : Message)

def opStep (masks : Masks) (m : SpectrumMonitor) : Op → Option SpectrumMonitor
  | .init config => some (m.initializeMonitor config)
  | .addFilter index frequencyHz bandwidthHz bandwidthBinSizeHz criterion =>
      m.initializeFilter index frequencyHz bandwidthHz bandwidthBinSizeHz criterion
  | .removeFilter index => some (m.removeFilter index)
  | .update msg => (m.update masks msg).map (·.1)

/-- `P` holds at every segment an operation processes. -/
def AtSegments (masks : Masks) (P : Timed → SegmentLoop → Segment → Prop) (m : SpectrumMonitor) :
    Op → Prop
  | .update msg =>
      match timed m.config msg with
      | none => True
      | some t =>
          RunMeets (segmentStep masks t) (P t) (m.startLoop msg) (messageSegments m.config msg)
  | _ => True

instance (masks : Masks) (P : Timed → SegmentLoop → Segment → Prop) [∀ t l s, Decidable (P t l s)]
    (m : SpectrumMonitor) : (op : Op) → Decidable (m.AtSegments masks P op)
  | .update msg =>
      match h : timed m.config msg with
      | none => isTrue (by simp [AtSegments, h])
      | some t => decidable_of_iff (RunMeets (segmentStep masks t) (P t) (m.startLoop msg)
          (messageSegments m.config msg)) (by simp [AtSegments, h])
  | .init _ => isTrue trivial
  | .addFilter .. => isTrue trivial
  | .removeFilter _ => isTrue trivial

end SpectrumMonitor

end Emane.Spectrum
