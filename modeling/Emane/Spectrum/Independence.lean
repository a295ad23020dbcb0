import Emane.Spectrum.OverlapCache

set_option autoImplicit false

/-! # Independence of the frequencies of interest

The recorder loop adds the overlap powers of a segment up over the recorders, in increasing order of
their frequencies, so the recorder of a frequency is given its own overlap power plus that of every
lower frequency of interest the segment overlaps. `ownRun` is what the recorder of `f` would be if
only its own band counted. In a run without leaks from lower frequencies (`NoLeak`) the recorder of
`f` is exactly that, whatever the other frequencies are.
-/

namespace Emane.Spectrum

open Std Emane.Lib Emane.Noise

namespace SpectrumMonitor

/-! ## The recorder of one frequency alone -/

/-- The power a segment leaves in the band of a frequency; `0` without an overlap. -/
def ownPower (masks : Masks) (config : Config) (msg : Message) (s : Segment) (f : ℕ) : ℚ :=
  ((overlapWith masks msg s.shiftedFrequency f config.bandwidthHz).map
    (overlapPowerMw · s.rxPowerMw)).getD 0

/-- A segment recorded from its overlap with the band of `f` alone. -/
def ownStep (masks : Masks) (config : Config) (f : ℕ) (t : Timed) (r : NoiseRecorder) (s : Segment) :
    Option NoiseRecorder :=
  match overlapWith masks t.message s.shiftedFrequency f config.bandwidthHz with
  | none => some r
  | some overlap =>
      let power := overlapPowerMw overlap s.rxPowerMw
      if power ≥ config.receiverSensitivityMilliWatt then
        (r.update (updateCall t s power overlap.lower overlap.upper false)).map (·.1)
      else some r

def ownMessage (masks : Masks) (config : Config) (f : ℕ) (r : NoiseRecorder) (msg : Message) :
    Option NoiseRecorder :=
  match timed config msg with
  | none => some r
  | some t =>
      if simpleMode config msg then some r
      else runSteps (ownStep masks config f t) r (messageSegments config msg)

/-- The recorder of `f` after the messages, as a function of its own band. -/
def ownRun (masks : Masks) (config : Config) (f : ℕ) (msgs : List Message) : Option NoiseRecorder :=
  runSteps (ownMessage masks config f) (recorderFor config f) msgs

/-- The power a segment leaves in the bands of the frequencies of interest below `f`. -/
def lowerPower (masks : Masks) (config : Config) (msg : Message) (s : Segment) (f : ℕ) : ℚ :=
  (((frequencies config).filter (· < f)).map (ownPower masks config msg s)).sum

/-- A segment that overlaps the band of `f` and that would be recorded there, alone or with the power
of the lower frequencies, leaves no power in those. -/
def NoLeakAt (masks : Masks) (config : Config) (f : ℕ) (msg : Message) (s : Segment) : Prop :=
  (overlapWith masks msg s.shiftedFrequency f config.bandwidthHz).isSome →
    config.receiverSensitivityMilliWatt
        ≤ lowerPower masks config msg s f + ownPower masks config msg s f ∨
      config.receiverSensitivityMilliWatt ≤ ownPower masks config msg s f →
    lowerPower masks config msg s f = 0

/-- No segment the message records leaks into `f`. -/
def NoLeak (masks : Masks) (config : Config) (f : ℕ) (msg : Message) : Prop :=
  simpleMode config msg = false → ∀ s ∈ messageSegments config msg, NoLeakAt masks config f msg s

instance (masks : Masks) (config : Config) (f : ℕ) (msg : Message) (s : Segment) :
    Decidable (NoLeakAt masks config f msg s) :=
  inferInstanceAs (Decidable (_ → _))

instance (masks : Masks) (config : Config) (f : ℕ) (msg : Message) :
    Decidable (NoLeak masks config f msg) :=
  inferInstanceAs (Decidable (_ → _))

/-! ## The recorder loop at one frequency -/

/-- The record of a frequency. -/
def recordOf (masks : Masks) (config : Config) (msg : Message) (φ frequency : ℕ) :
    Option NoiseRecord :=
  (overlapWith masks msg φ frequency config.bandwidthHz).map fun overlap =>
    ⟨frequency, overlap, overlap.lower, overlap.upper⟩

/-- A record of another frequency leaves the recorder of `f` alone and adds its power. -/
theorem applyRecord_other {sensitivity : ℚ} {t : Timed} {s : Segment} {l l' : RecordLoop}
    {record : NoiseRecord} {f : ℕ} (hf : record.frequency ≠ f)
    (h : applyRecord sensitivity t s l record = some l') :
    l'.map[f]? = l.map[f]? ∧
      l'.overlapPower = l.overlapPower + overlapPowerMw record.overlap s.rxPowerMw := by
  unfold applyRecord at h
  simp only at h
  split at h
  · split at h
    · obtain ⟨⟨r, sor, eor⟩, -, h⟩ := Option.bind_eq_some_iff.mp h
      rw [← Option.some.inj h]
      refine ⟨?_, rfl⟩
      rw [ExtTreeMap.getElem?_insert, if_neg (by simpa using hf)]
    · rw [← Option.some.inj h]
      exact ⟨rfl, rfl⟩
  · rw [← Option.some.inj h]
    exact ⟨rfl, rfl⟩

/-- The records of other frequencies leave the recorder of `f` alone and add up their powers. -/
theorem foldlM_applyRecord_other {sensitivity : ℚ} {masks : Masks} {config : Config} {t : Timed}
    {s : Segment} (f : ℕ) :
    ∀ (fs : List ℕ) (l l' : RecordLoop), (∀ g ∈ fs, g ≠ f) →
      (fs.filterMap (recordOf masks config t.message s.shiftedFrequency)).foldlM
        (applyRecord sensitivity t s) l = some l' →
      l'.map[f]? = l.map[f]? ∧
        l'.overlapPower = l.overlapPower + (fs.map (ownPower masks config t.message s)).sum := by
  intro fs
  induction fs with
  | nil =>
      intro l l' _ h
      rw [List.filterMap_nil, List.foldlM_nil, Option.pure_def, Option.some.injEq] at h
      rw [← h]
      simp
  | cons g fs ih =>
      intro l l' hne h
      have hfs : ∀ g ∈ fs, g ≠ f := fun g' hg' => hne g' (by simp [hg'])
      cases hov : overlapWith masks t.message s.shiftedFrequency g config.bandwidthHz with
      | none =>
          have hrec : recordOf masks config t.message s.shiftedFrequency g = none := by
            unfold recordOf
            rw [hov]
            rfl
          have hpow : ownPower masks config t.message s g = 0 := by
            unfold ownPower
            rw [hov]
            rfl
          rw [List.filterMap_cons_none hrec] at h
          rw [List.map_cons, List.sum_cons, hpow, zero_add]
          exact ih l l' hfs h
      | some overlap =>
          have hrec : recordOf masks config t.message s.shiftedFrequency g
              = some ⟨g, overlap, overlap.lower, overlap.upper⟩ := by
            unfold recordOf
            rw [hov]
            rfl
          have hpow : ownPower masks config t.message s g = overlapPowerMw overlap s.rxPowerMw := by
            unfold ownPower
            rw [hov]
            rfl
          rw [List.filterMap_cons_some hrec, List.foldlM_cons] at h
          obtain ⟨l₁, h₁, h⟩ := Option.bind_eq_some_iff.mp h
          obtain ⟨hmap₁, hpow₁⟩ := applyRecord_other (hne g (by simp)) h₁
          obtain ⟨hmap, hpower⟩ := ih l₁ l' hfs h
          refine ⟨hmap.trans hmap₁, ?_⟩
          calc l'.overlapPower
              = l₁.overlapPower + (fs.map (ownPower masks config t.message s)).sum := hpower
            _ = l.overlapPower + overlapPowerMw overlap s.rxPowerMw
                  + (fs.map (ownPower masks config t.message s)).sum := by rw [hpow₁]
            _ = l.overlapPower + ((g :: fs).map (ownPower masks config t.message s)).sum := by
                rw [List.map_cons, List.sum_cons, hpow]
                ring

/-- **The recorder of `f` after the recorder loop**, when nothing leaks. -/
theorem applyRecords_own {masks : Masks} {config : Config} {t : Timed} {s : Segment} {f : ℕ}
    {map : ExtTreeMap ℕ NoiseRecorder} {l : RecordLoop} {r : NoiseRecorder}
    (hf : f ∈ initialRecorders config) (hget : map[f]? = some r)
    (hleak : NoLeakAt masks config f t.message s)
    (h : applyRecords config.receiverSensitivityMilliWatt t s map
      (recordsUnder masks config t.message s.shiftedFrequency) = some l) :
    ∃ r', ownStep masks config f t r s = some r' ∧ l.map[f]? = some r' := by
  have hrecords : recordsUnder masks config t.message s.shiftedFrequency
      = ((frequencies config).filter (· < f)).filterMap
          (recordOf masks config t.message s.shiftedFrequency)
        ++ ([f].filterMap (recordOf masks config t.message s.shiftedFrequency)
        ++ ((frequencies config).filter (f < ·)).filterMap
          (recordOf masks config t.message s.shiftedFrequency)) := by
    have hsplit : frequencies config = (frequencies config).filter (· < f)
        ++ ([f] ++ (frequencies config).filter (f < ·)) := keys_split hf
    calc recordsUnder masks config t.message s.shiftedFrequency
        = (frequencies config).filterMap
            (recordOf masks config t.message s.shiftedFrequency) := rfl
      _ = _ := by rw [hsplit, List.filterMap_append, List.filterMap_append, ← hsplit]
  unfold applyRecords at h
  rw [hrecords, List.foldlM_append] at h
  obtain ⟨l₁, h₁, h⟩ := Option.bind_eq_some_iff.mp h
  rw [List.foldlM_append] at h
  obtain ⟨l₂, h₂, h₃⟩ := Option.bind_eq_some_iff.mp h
  obtain ⟨hmap₁, hpow₁⟩ := foldlM_applyRecord_other f _ _ _ (fun g hg => by
    have := (List.mem_filter.mp hg).2
    simp only [decide_eq_true_eq] at this
    omega) h₁
  obtain ⟨hmap₃, -⟩ := foldlM_applyRecord_other f _ _ _ (fun g hg => by
    have := (List.mem_filter.mp hg).2
    simp only [decide_eq_true_eq] at this
    omega) h₃
  have hpow : l₁.overlapPower = lowerPower masks config t.message s f := by
    rw [hpow₁]
    exact zero_add _
  have hget₁ : l₁.map[f]? = some r := hmap₁.trans hget
  rw [hmap₃]
  unfold ownStep
  cases hov : overlapWith masks t.message s.shiftedFrequency f config.bandwidthHz with
  | none =>
      have hrec : recordOf masks config t.message s.shiftedFrequency f = none := by
        unfold recordOf
        rw [hov]
        rfl
      rw [List.filterMap_cons_none hrec, List.filterMap_nil, List.foldlM_nil, Option.pure_def,
        Option.some.injEq] at h₂
      rw [← h₂]
      exact ⟨r, rfl, hget₁⟩
  | some overlap =>
      have hrec : recordOf masks config t.message s.shiftedFrequency f
          = some ⟨f, overlap, overlap.lower, overlap.upper⟩ := by
        unfold recordOf
        rw [hov]
        rfl
      have hown : ownPower masks config t.message s f = overlapPowerMw overlap s.rxPowerMw := by
        unfold ownPower
        rw [hov]
        rfl
      rw [List.filterMap_cons_some hrec, List.filterMap_nil, List.foldlM_cons] at h₂
      obtain ⟨l₂', hstep, hnil⟩ := Option.bind_eq_some_iff.mp h₂
      rw [List.foldlM_nil, Option.pure_def, Option.some.injEq] at hnil
      subst hnil
      unfold applyRecord at hstep
      simp only [hpow, hget₁, ← hown] at hstep
      have hleak' := hleak (by rw [hov]; rfl)
      simp only [← hown]
      by_cases habove : config.receiverSensitivityMilliWatt
          ≤ lowerPower masks config t.message s f + ownPower masks config t.message s f
      · have hzero := hleak' (Or.inl habove)
        rw [hzero, zero_add] at hstep habove
        rw [if_pos habove] at hstep ⊢
        obtain ⟨⟨r', sor, eor⟩, hupd, hstep⟩ := Option.bind_eq_some_iff.mp hstep
        refine ⟨r', by rw [hupd]; rfl, ?_⟩
        rw [← Option.some.inj hstep, ExtTreeMap.getElem?_insert_self]
      · have hbelow : ¬ config.receiverSensitivityMilliWatt
            ≤ ownPower masks config t.message s f := by
          intro hc
          apply habove
          rw [hleak' (Or.inr hc), zero_add]
          exact hc
        rw [if_neg habove] at hstep
        rw [if_neg hbelow, ← Option.some.inj hstep]
        exact ⟨r, rfl, hget₁⟩

/-! ## Runs -/

/-- A monitor that was initialized once: its caches were filled under its own configuration. -/
structure Settled (masks : Masks) (config : Config) (m : SpectrumMonitor) : Prop where
  config_eq : m.config = config
  cache : ∃ past, (∀ e ∈ past, e.config = config) ∧ CacheInv masks past m

theorem Settled.sameNoise {masks : Masks} {config : Config} {m m' : SpectrumMonitor}
    (h : Settled masks config m) (hs : m.SameNoise m') : Settled masks config m' := by
  obtain ⟨hconfig, past, hpast, hinv⟩ := h
  exact ⟨hs.config_eq.trans hconfig, past, hpast, hinv.sameNoise hs⟩

theorem compatible_of_config_eq {e e' : Lookup} (h : e.config = e'.config) : Compatible e e' := by
  intro _ _ _ _
  rw [h]
  exact ⟨rfl, rfl⟩

/-- **One recorded segment** does to the recorder of `f` what its own band asks for. -/
theorem Settled.segment {masks : Masks} {config : Config} {f : ℕ} {t : Timed} {l l' : SegmentLoop}
    {s : Segment} {r : NoiseRecorder} (h : Settled masks config l.monitor)
    (hf : f ∈ initialRecorders config) (hmode : simpleMode config t.message = false)
    (hget : l.monitor.noiseRecorderMap[f]? = some r)
    (hleak : NoLeakAt masks config f t.message s) (hstep : segmentStep masks t l s = some l') :
    Settled masks config l'.monitor ∧
      ∃ r', ownStep masks config f t r s = some r' ∧ l'.monitor.noiseRecorderMap[f]? = some r' := by
  obtain ⟨hconfig, past, hpast, hinv⟩ := h
  subst hconfig
  obtain ⟨hrec, hnext⟩ := hinv.segment hmode s
    (fun e he => compatible_of_config_eq (hpast e he))
  obtain ⟨hconfig', hinv'⟩ := hnext l' hstep
  refine ⟨⟨hconfig', _, ?_, hinv'⟩, ?_⟩
  · intro e he
    rcases List.mem_cons.mp he with rfl | he
    · rfl
    · exact hpast e he
  · unfold segmentStep at hstep
    rw [hmode, if_neg (by simp)] at hstep
    obtain ⟨l₁, hloop, hsame⟩ := recordSegment_spec hstep
    rw [hrec] at hloop
    obtain ⟨r', hown, hget'⟩ := applyRecords_own hf hget hleak hloop
    refine ⟨r', hown, ?_⟩
    rw [hsame.map_eq]
    exact hget'

theorem Settled.segments {masks : Masks} {config : Config} {f : ℕ} {t : Timed}
    (hf : f ∈ initialRecorders config) (hmode : simpleMode config t.message = false) :
    ∀ (segs : List Segment) (l l' : SegmentLoop) (r : NoiseRecorder),
      Settled masks config l.monitor → l.monitor.noiseRecorderMap[f]? = some r →
      (∀ s ∈ segs, NoLeakAt masks config f t.message s) →
      runSteps (segmentStep masks t) l segs = some l' →
      Settled masks config l'.monitor ∧
        ∃ r', runSteps (ownStep masks config f t) r segs = some r' ∧
          l'.monitor.noiseRecorderMap[f]? = some r' := by
  intro segs
  induction segs with
  | nil =>
      intro l l' r h hget _ hrun
      rw [runSteps_nil, Option.some.injEq] at hrun
      subst hrun
      exact ⟨h, r, rfl, hget⟩
  | cons s segs ih =>
      intro l l' r h hget hleak hrun
      rw [runSteps_cons] at hrun
      obtain ⟨l₁, h₁, hrun⟩ := Option.bind_eq_some_iff.mp hrun
      obtain ⟨hsettled, r₁, hown, hget₁⟩ := h.segment hf hmode hget (hleak s (by simp)) h₁
      obtain ⟨hfinal, r', hrest, hget'⟩ := ih l₁ l' r₁ hsettled hget₁
        (fun s' hs' => hleak s' (by simp [hs'])) hrun
      refine ⟨hfinal, r', ?_, hget'⟩
      rw [runSteps_cons, hown]
      exact hrest

/-- **One message.** -/
theorem Settled.message {masks : Masks} {config : Config} {f : ℕ} {m m' : SpectrumMonitor}
    {msg : Message} {r : NoiseRecorder} (h : Settled masks config m)
    (hf : f ∈ initialRecorders config) (hget : m.noiseRecorderMap[f]? = some r)
    (hleak : NoLeak masks config f msg) (hstep : opStep masks m (.update msg) = some m') :
    Settled masks config m' ∧
      ∃ r', ownMessage masks config f r msg = some r' ∧ m'.noiseRecorderMap[f]? = some r' := by
  obtain ⟨⟨m₁, report⟩, hupd, rfl⟩ := Option.map_eq_some_iff.mp hstep
  have hconfig := h.config_eq
  unfold ownMessage
  rcases update_spec hupd with ⟨hnone, flag, rfl⟩ | ⟨t, l, ht, hrun, flag, rfl⟩
  · have hs := withClampError_sameNoise m flag
    rw [hconfig] at hnone
    rw [hnone]
    refine ⟨h.sameNoise hs, r, rfl, ?_⟩
    rw [hs.map_eq]
    exact hget
  · have hs := withClampError_sameNoise l.monitor flag
    obtain rfl : t.message = msg := timed_message ht
    have hstart : Settled masks config (m.startLoop t.message).monitor :=
      h.sameNoise ⟨rfl, rfl, rfl, rfl⟩
    rw [hconfig] at ht hrun
    rw [ht]
    cases hmode : simpleMode config t.message with
    | true =>
        obtain ⟨-, hmon⟩ := segments_simple masks t (messageSegments config t.message)
          (m.startLoop t.message) (by rw [hstart.config_eq]; exact hmode)
        have hl := hmon l hrun
        refine ⟨(hl ▸ hstart : Settled masks config l.monitor).sameNoise hs, r, by simp, ?_⟩
        rw [hs.map_eq, hl]
        exact hget
    | false =>
        obtain ⟨hfinal, r', hown, hget'⟩ := Settled.segments hf hmode
          (messageSegments config t.message) (m.startLoop t.message) l r hstart hget
          (hleak hmode) hrun
        refine ⟨hfinal.sameNoise hs, r', by simpa using hown, ?_⟩
        rw [hs.map_eq]
        exact hget'

theorem Settled.messages {masks : Masks} {config : Config} {f : ℕ}
    (hf : f ∈ initialRecorders config) :
    ∀ (msgs : List Message) (m m' : SpectrumMonitor) (r : NoiseRecorder), Settled masks config m →
      m.noiseRecorderMap[f]? = some r → (∀ msg ∈ msgs, NoLeak masks config f msg) →
      runSteps (opStep masks) m (msgs.map .update) = some m' →
      ∃ r', runSteps (ownMessage masks config f) r msgs = some r' ∧
        m'.noiseRecorderMap[f]? = some r' := by
  intro msgs
  induction msgs with
  | nil =>
      intro m m' r _ hget _ hrun
      rw [List.map_nil, runSteps_nil, Option.some.injEq] at hrun
      subst hrun
      exact ⟨r, rfl, hget⟩
  | cons msg msgs ih =>
      intro m m' r h hget hleak hrun
      rw [List.map_cons, runSteps_cons] at hrun
      obtain ⟨m₁, h₁, hrun⟩ := Option.bind_eq_some_iff.mp hrun
      obtain ⟨hsettled, r₁, hown, hget₁⟩ := h.message hf hget (hleak msg (by simp)) h₁
      obtain ⟨r', hrest, hget'⟩ := ih m₁ m' r₁ hsettled hget₁
        (fun msg' hmsg' => hleak msg' (by simp [hmsg'])) hrun
      refine ⟨r', ?_, hget'⟩
      rw [runSteps_cons, hown]
      exact hrest

/-! ## Two configurations -/

theorem getElem?_initialRecorders (config : Config) (f : ℕ) :
    (initialRecorders config)[f]? = if f ∈ config.foi then some (recorderFor config f) else none := by
  have hfold : ∀ (fs : List ℕ) (map : ExtTreeMap ℕ NoiseRecorder),
      (fs.foldl (fun map g => map.insert g (recorderFor config g)) map)[f]?
        = if f ∈ fs then some (recorderFor config f) else map[f]? := by
    intro fs
    induction fs with
    | nil =>
        intro map
        simp
    | cons g fs ih =>
        intro map
        rw [List.foldl_cons, ih]
        by_cases hmem : f ∈ fs
        · simp [hmem]
        · rw [if_neg hmem, ExtTreeMap.getElem?_insert]
          by_cases hg : g = f
          · simp [hg]
          · have hg' : ¬ f = g := fun h => hg h.symm
            simp [hg, hg', hmem]
  unfold initialRecorders
  rw [hfold]
  simp

/-- A new monitor with the given filters, initialized. -/
def start (config : Config) (filters : ExtTreeMap ℕ Filter) : SpectrumMonitor :=
  { SpectrumMonitor.new.initializeMonitor config with filterNoiseRecorderMap := filters }

theorem settled_start (masks : Masks) (config : Config) (filters : ExtTreeMap ℕ Filter) :
    Settled masks config (start config filters) := by
  refine ⟨rfl, [], by simp, ?_⟩
  exact ((CacheInv.new masks).init config).of_sameNoise rfl (fun _ => Iff.rfl) rfl rfl

theorem recorder_eq_ownRun {masks : Masks} {config : Config} {filters : ExtTreeMap ℕ Filter} {f : ℕ}
    {msgs : List Message} {m : SpectrumMonitor} (hf : f ∈ config.foi)
    (hleak : ∀ msg ∈ msgs, NoLeak masks config f msg)
    (hrun : runSteps (opStep masks) (start config filters) (msgs.map .update) = some m) :
    ∃ r, ownRun masks config f msgs = some r ∧ m.noiseRecorderMap[f]? = some r := by
  have hget : (initialRecorders config)[f]? = some (recorderFor config f) := by
    rw [getElem?_initialRecorders, if_pos hf]
  have hmem : f ∈ initialRecorders config := by
    rw [ExtTreeMap.mem_iff_isSome_getElem?, hget]
    rfl
  exact Settled.messages hmem msgs _ m _ (settled_start masks config filters) hget hleak hrun

theorem acceptedSegments_foi (config : Config) (foi : List ℕ) (msg : Message) :
    ∀ xs, acceptedSegments { config with foi := foi } msg xs = acceptedSegments config msg xs := by
  intro xs
  induction xs with
  | nil => rfl
  | cons x xs ih =>
      unfold acceptedSegments
      rw [ih]
      rfl

theorem ownRun_foi (masks : Masks) (config : Config) (foi : List ℕ) (f : ℕ) (msgs : List Message) :
    ownRun masks { config with foi := foi } f msgs = ownRun masks config f msgs := by
  have hmsg : ownMessage masks { config with foi := foi } f = ownMessage masks config f := by
    funext r msg
    unfold ownMessage messageSegments
    rw [acceptedSegments_foi]
    rfl
  unfold ownRun
  rw [hmsg]
  rfl

end SpectrumMonitor

open SpectrumMonitor

/-- **The recorder of a frequency does not depend on the other frequencies of interest**, for every
sequence of messages none of which leaks power of lower frequencies into it under either
configuration: after the two runs the recorder is the same, and it is the one its own band gives. -/
theorem recorder_independent_of_other_frequencies (masks : Masks) (config : Config) (foi : List ℕ)
    (filters : ExtTreeMap ℕ Filter) (f : ℕ) (hf : f ∈ config.foi) (hf' : f ∈ foi)
    (msgs : List Message) (m m' : SpectrumMonitor)
    (hrun : runSteps (opStep masks) (start config filters) (msgs.map .update) = some m)
    (hrun' : runSteps (opStep masks) (start { config with foi := foi } filters) (msgs.map .update)
      = some m')
    (hleak : ∀ msg ∈ msgs, NoLeak masks config f msg)
    (hleak' : ∀ msg ∈ msgs, NoLeak masks { config with foi := foi } f msg) :
    m.noiseRecorderMap[f]? = m'.noiseRecorderMap[f]? ∧
      m.noiseRecorderMap[f]? = ownRun masks config f msgs := by
  obtain ⟨r, hown, hget⟩ := recorder_eq_ownRun hf hleak hrun
  obtain ⟨r', hown', hget'⟩ := recorder_eq_ownRun hf' hleak' hrun'
  rw [ownRun_foi] at hown'
  rw [hget, hget', ← hown, ← hown']
  exact ⟨rfl, rfl⟩

/-- Frequencies a whole bandwidth apart do not influence each other. -/
theorem recorder_independent_of_distant_frequency :
    ∃ m m', runSteps (opStep oneMask) (start (recordingConfig [1000]) ∅)
        ([messageAt 1000 1000 100 0].map .update) = some m ∧
      runSteps (opStep oneMask) (start (recordingConfig [900, 1000]) ∅)
        ([messageAt 1000 1000 100 0].map .update) = some m' ∧
      m.noiseRecorderMap[1000]? = m'.noiseRecorderMap[1000]? ∧
      m.noiseRecorderMap[1000]?
        = ownRun oneMask (recordingConfig [1000]) 1000 [messageAt 1000 1000 100 0] := by
  have h : (runSteps (opStep oneMask) (start (recordingConfig [1000]) ∅)
      ([messageAt 1000 1000 100 0].map .update)).isSome = true := by decide +kernel
  have h' : (runSteps (opStep oneMask) (start (recordingConfig [900, 1000]) ∅)
      ([messageAt 1000 1000 100 0].map .update)).isSome = true := by decide +kernel
  obtain ⟨m, hm⟩ := Option.isSome_iff_exists.mp h
  obtain ⟨m', hm'⟩ := Option.isSome_iff_exists.mp h'
  exact ⟨m, m', hm, hm', recorder_independent_of_other_frequencies oneMask (recordingConfig [1000])
    [900, 1000] ∅ 1000 (by decide) (by decide) _ m m' hm hm' (by decide +kernel)
    (by decide +kernel)⟩

/-- With `960` as a second frequency of interest, a segment at `1000` also overlaps the band of
`960`, and the recorder of `1000` is given `8 / 5` of its power. -/
theorem recorder_leaks_lower_frequency :
    (runSteps (opStep oneMask) (start (recordingConfig [1000]) ∅)
        ([messageAt 1000 1000 100 0].map .update)).bind
      (fun m => (m.noiseRecorderMap[1000]?).bind (·.tryGet 1020 0 1000))
      = some (some ([1, 1], 1000)) ∧
    (runSteps (opStep oneMask) (start (recordingConfig [960, 1000]) ∅)
        ([messageAt 1000 1000 100 0].map .update)).bind
      (fun m => (m.noiseRecorderMap[1000]?).bind (·.tryGet 1020 0 1000))
      = some (some ([8 / 5, 8 / 5], 1000)) := by
  constructor
  · decide +kernel
  · decide +kernel

end Emane.Spectrum
