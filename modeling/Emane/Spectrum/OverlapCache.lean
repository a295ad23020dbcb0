import Emane.Spectrum.Segments

set_option autoImplicit false

/-! # The overlap caches across re-initialization

`update` keeps the overlap records of a segment in one of two caches: by transmitter bandwidth, or by
spectral mask. Initialization empties the first one only, so an entry of the mask cache can outlive
the frequencies of interest and the bandwidth it was computed for.

`CacheInv past m` says what the caches hold after the lookups `past`: the bandwidth cache agrees with
the current configuration, every entry of the mask cache agrees with the configuration of some past
lookup of the same mask and frequency. So a run uses fresh records as long as no lookup finds an
entry that was filled under other frequencies or another bandwidth (`Compatible`).
-/

namespace Emane.Spectrum

open Std Emane.Lib Emane.Noise

namespace SpectrumMonitor

/-! ## One cache -/

/-- The lookup in a cache: `cachedRecords` for a given cache and key. -/
def lookupIn (cache : ExtTreeMap ℕ (CacheEntry NoiseRecord)) (key φ : ℕ) :
    Option (List NoiseRecord) :=
  let entry := (cache[key]?).getD (CacheEntry.empty _)
  match entry.frequencies[φ]? with
  | some records => some records
  | none => if φ ∈ entry.noOverlap then some [] else none

theorem cachedRecords_eq (m : SpectrumMonitor) (msg : Message) (φ : ℕ) :
    m.cachedRecords msg φ = lookupIn (m.recordCache msg) (cacheKey msg) φ := rfl

theorem lookupIn_of_empty {cache : ExtTreeMap ℕ (CacheEntry NoiseRecord)} {key : ℕ}
    (h : (cache[key]?).getD (CacheEntry.empty _) = CacheEntry.empty _) (φ : ℕ) :
    lookupIn cache key φ = none := by
  unfold lookupIn
  rw [h]
  simp [CacheEntry.empty]

/-- Storing the records of a frequency answers later lookups of it, and of nothing else. -/
theorem lookupIn_insert {cache : ExtTreeMap ℕ (CacheEntry NoiseRecord)} {key φ : ℕ}
    (hmiss : lookupIn cache key φ = none) (records : List NoiseRecord) (found : Bool)
    (key' φ' : ℕ) :
    lookupIn (cache.insert key
        { frequencies :=
            if records.isEmpty then ((cache[key]?).getD (CacheEntry.empty _)).frequencies
            else ((cache[key]?).getD (CacheEntry.empty _)).frequencies.insert φ records
          noOverlap :=
            if found then ((cache[key]?).getD (CacheEntry.empty _)).noOverlap.insert φ
            else ((cache[key]?).getD (CacheEntry.empty _)).noOverlap }) key' φ'
      = if key = key' ∧ φ = φ' then
          (if records.isEmpty && !found then none else some records)
        else lookupIn cache key' φ' := by
  by_cases hkey : key = key'
  · subst hkey
    set entry := (cache[key]?).getD (CacheEntry.empty _) with hentry
    have hfreq : entry.frequencies[φ]? = none := by
      unfold lookupIn at hmiss
      rw [← hentry] at hmiss
      cases hget : entry.frequencies[φ]? with
      | none => rfl
      | some records => simp [hget] at hmiss
    have hno : φ ∉ entry.noOverlap := by
      unfold lookupIn at hmiss
      rw [← hentry] at hmiss
      intro hmem
      simp [hfreq, hmem] at hmiss
    unfold lookupIn
    simp only [ExtTreeMap.getElem?_insert_self, Option.getD_some, ← hentry]
    by_cases hφ : φ = φ'
    · subst hφ
      cases records with
      | nil => cases found <;> simp [hfreq, hno]
      | cons record rest => simp
    · cases records with
      | nil => cases found <;> simp [hφ, ExtTreeSet.mem_insert]
      | cons record rest =>
          cases found <;> simp [hφ, ExtTreeMap.getElem?_insert, ExtTreeSet.mem_insert]
  · unfold lookupIn
    simp [hkey, ExtTreeMap.getElem?_insert]

/-- Two caches, of which `p` says which one is replaced and `q` which one is read. -/
theorem read_replaced {α : Type} {p q : Prop} [Decidable p] [Decidable q] (new old old' : α) :
    (if q then (if p then new else old) else if p then old' else new) =
      if p ↔ q then new else if q then old else old' := by
  by_cases hp : p <;> by_cases hq : q <;> simp [hp, hq]

/-- The two caches are independent. -/
theorem recordCache_setRecordCache (m : SpectrumMonitor) (msg msg' : Message)
    (cache : ExtTreeMap ℕ (CacheEntry NoiseRecord)) :
    (m.setRecordCache msg cache).recordCache msg'
      = if msg.spectralMaskIndex = 0 ↔ msg'.spectralMaskIndex = 0 then cache
        else m.recordCache msg' := by
  unfold setRecordCache recordCache
  rw [apply_ite transmitterBandwidthCache, apply_ite transmitterSpectralMaskCache]
  exact read_replaced ..

/-! ## Records of a configuration -/

/-- The frequencies of interest of a configuration, in increasing order. -/
def frequencies (config : Config) : List ℕ := (initialRecorders config).keys

/-- The records of a segment under a configuration, computed without a cache. -/
def recordsUnder (masks : Masks) (config : Config) (msg : Message) (φ : ℕ) : List NoiseRecord :=
  (frequencies config).filterMap fun frequency =>
    (overlapWith masks msg φ frequency config.bandwidthHz).map fun overlap =>
      ⟨frequency, overlap, overlap.lower, overlap.upper⟩

/-- Messages that share a cache and a key. -/
def SameKey (msg msg' : Message) : Prop :=
  (msg.spectralMaskIndex = 0 ↔ msg'.spectralMaskIndex = 0) ∧ cacheKey msg = cacheKey msg'

instance (msg msg' : Message) : Decidable (SameKey msg msg') :=
  inferInstanceAs (Decidable (_ ∧ _))

theorem overlapWith_sameKey {masks : Masks} {msg msg' : Message} (h : SameKey msg msg')
    (φ rxFrequency rxBandwidth : ℕ) :
    overlapWith masks msg φ rxFrequency rxBandwidth
      = overlapWith masks msg' φ rxFrequency rxBandwidth := by
  obtain ⟨hzero, hkey⟩ := h
  unfold cacheKey at hkey
  unfold overlapWith
  by_cases h₀ : msg.spectralMaskIndex = 0
  · rw [if_pos h₀, if_pos (hzero.mp h₀)] at hkey
    rw [h₀, hzero.mp h₀, hkey]
  · rw [if_neg h₀, if_neg (fun h' => h₀ (hzero.mpr h'))] at hkey
    rw [← hkey]
    exact getSpectralOverlap_mask masks φ rxFrequency rxBandwidth _ _ h₀

theorem recordsUnder_sameKey {masks : Masks} {msg msg' : Message} (h : SameKey msg msg')
    (config : Config) (φ : ℕ) :
    recordsUnder masks config msg φ = recordsUnder masks config msg' φ := by
  unfold recordsUnder
  simp only [overlapWith_sameKey h]

/-- The recorders are those of the configuration. -/
def KeysOk (m : SpectrumMonitor) : Prop :=
  ∀ f, f ∈ m.noiseRecorderMap ↔ f ∈ initialRecorders m.config

theorem KeysOk.keys_eq {m : SpectrumMonitor} (h : m.KeysOk) :
    m.noiseRecorderMap.keys = frequencies m.config :=
  keys_eq_of_mem_iff h

theorem KeysOk.computeRecords_eq {m : SpectrumMonitor} (h : m.KeysOk) (masks : Masks)
    (msg : Message) (φ : ℕ) :
    m.computeRecords masks msg φ = recordsUnder masks m.config msg φ := by
  unfold computeRecords recordsUnder
  rw [h.keys_eq]

/-- What `noiseRecords` stores on a miss, read back. Without frequencies nothing is stored. -/
theorem KeysOk.cachedRecords_noiseRecords {m : SpectrumMonitor} (h : m.KeysOk) (masks : Masks)
    {msg : Message} {φ : ℕ} (hmiss : m.cachedRecords msg φ = none) (msg' : Message) (φ' : ℕ) :
    (m.noiseRecords masks msg φ).2.cachedRecords msg' φ'
      = if SameKey msg msg' ∧ φ = φ' then
          (if frequencies m.config = [] then none else some (recordsUnder masks m.config msg φ))
        else m.cachedRecords msg' φ' := by
  have hresult : ((m.computeRecords masks msg φ).isEmpty &&
      !(m.noiseRecorderMap.keys.any fun frequency =>
        (overlapWith masks msg φ frequency m.config.bandwidthHz).isNone))
      = decide (frequencies m.config = []) := by
    rw [h.computeRecords_eq, h.keys_eq]
    unfold recordsUnder
    cases hfreq : frequencies m.config with
    | nil => simp
    | cons f fs =>
        cases hov : overlapWith masks msg φ f m.config.bandwidthHz <;> simp [hov]
  unfold noiseRecords
  rw [hmiss]
  simp only [cachedRecords_eq, recordCache_setRecordCache]
  rw [cachedRecords_eq] at hmiss
  by_cases hcache : msg.spectralMaskIndex = 0 ↔ msg'.spectralMaskIndex = 0
  · have hsame : m.recordCache msg' = m.recordCache msg := by
      unfold recordCache
      by_cases h₀ : msg.spectralMaskIndex = 0
      · rw [if_pos h₀, if_pos (hcache.mp h₀)]
      · rw [if_neg h₀, if_neg (fun h' => h₀ (hcache.mpr h'))]
    rw [if_pos hcache, lookupIn_insert hmiss, hresult, h.computeRecords_eq, hsame]
    by_cases hkey : cacheKey msg = cacheKey msg' ∧ φ = φ'
    · have hsame' : SameKey msg msg' ∧ φ = φ' := ⟨⟨hcache, hkey.1⟩, hkey.2⟩
      rw [if_pos hkey, if_pos hsame']
      simp only [decide_eq_true_eq]
    · have hsame' : ¬ (SameKey msg msg' ∧ φ = φ') := fun hc => hkey ⟨hc.1.2, hc.2⟩
      rw [if_neg hkey, if_neg hsame']
  · have hsame' : ¬ (SameKey msg msg' ∧ φ = φ') := fun hc => hcache hc.1.1
    rw [if_neg hcache, if_neg hsame']

/-! ## The invariant -/

/-- A lookup of the records of a segment, under a configuration. -/
structure Lookup where
  mask : ℕ
  frequency : ℕ
  config : Config

/-- A later lookup of the same mask and frequency is made for the same frequencies of interest and
the same bandwidth. -/
def Compatible (earlier later : Lookup) : Prop :=
  earlier.mask ≠ 0 → earlier.mask = later.mask → earlier.frequency = later.frequency →
    frequencies earlier.config ≠ [] →
    frequencies earlier.config = frequencies later.config ∧
      earlier.config.bandwidthHz = later.config.bandwidthHz

instance (earlier later : Lookup) : Decidable (Compatible earlier later) :=
  inferInstanceAs (Decidable (_ → _))

/-- The caches after the lookups `past`. -/
structure CacheInv (masks : Masks) (past : List Lookup) (m : SpectrumMonitor) : Prop where
  keys : m.KeysOk
  bandwidth : ∀ msg φ records, msg.spectralMaskIndex = 0 → m.cachedRecords msg φ = some records →
    records = recordsUnder masks m.config msg φ
  mask : ∀ msg φ records, msg.spectralMaskIndex ≠ 0 → m.cachedRecords msg φ = some records →
    ∃ e ∈ past, e.mask = msg.spectralMaskIndex ∧ e.frequency = φ ∧ frequencies e.config ≠ [] ∧
      records = recordsUnder masks e.config msg φ

theorem CacheInv.of_sameNoise {masks : Masks} {past : List Lookup} {m m' : SpectrumMonitor}
    (h : CacheInv masks past m) (hconfig : m'.config = m.config)
    (hkeys : ∀ f, f ∈ m'.noiseRecorderMap ↔ f ∈ m.noiseRecorderMap)
    (hbandwidth : m'.transmitterBandwidthCache = m.transmitterBandwidthCache)
    (hmask : m'.transmitterSpectralMaskCache = m.transmitterSpectralMaskCache) :
    CacheInv masks past m' := by
  have hcached : ∀ msg φ, m'.cachedRecords msg φ = m.cachedRecords msg φ := by
    intro msg φ
    rw [cachedRecords_eq, cachedRecords_eq]
    unfold recordCache
    rw [hbandwidth, hmask]
  refine ⟨?_, ?_, ?_⟩
  · intro f
    rw [hconfig, hkeys f]
    exact h.keys f
  · intro msg φ records h₀ hrec
    rw [hcached] at hrec
    rw [hconfig]
    exact h.bandwidth msg φ records h₀ hrec
  · intro msg φ records h₀ hrec
    rw [hcached] at hrec
    exact h.mask msg φ records h₀ hrec

theorem recordsUnder_congr {masks : Masks} {c c' : Config} (hf : frequencies c = frequencies c')
    (hb : c.bandwidthHz = c'.bandwidthHz) (msg : Message) (φ : ℕ) :
    recordsUnder masks c msg φ = recordsUnder masks c' msg φ := by
  unfold recordsUnder
  rw [hf, hb]

/-- **A lookup**: compatible with the past it gives fresh records, and keeps the invariant. -/
theorem CacheInv.lookup {masks : Masks} {past : List Lookup} {m : SpectrumMonitor}
    (h : CacheInv masks past m) (msg : Message) (φ : ℕ)
    (hcompat : ∀ e ∈ past, Compatible e ⟨msg.spectralMaskIndex, φ, m.config⟩) :
    (m.noiseRecords masks msg φ).1 = recordsUnder masks m.config msg φ ∧
      CacheInv masks (⟨msg.spectralMaskIndex, φ, m.config⟩ :: past)
        (m.noiseRecords masks msg φ).2 := by
  have hweaken : CacheInv masks (⟨msg.spectralMaskIndex, φ, m.config⟩ :: past) m := by
    refine ⟨h.keys, h.bandwidth, ?_⟩
    intro msg' φ' records h₀ hrec
    obtain ⟨e, he, hrest⟩ := h.mask msg' φ' records h₀ hrec
    exact ⟨e, List.mem_cons_of_mem _ he, hrest⟩
  cases hcached : m.cachedRecords msg φ with
  | some records =>
      have hres : m.noiseRecords masks msg φ = (records, m) := by
        unfold noiseRecords
        rw [hcached]
      rw [hres]
      refine ⟨?_, hweaken⟩
      by_cases h₀ : msg.spectralMaskIndex = 0
      · exact h.bandwidth msg φ records h₀ hcached
      · obtain ⟨e, he, hmask, hfreq, hne, hrec⟩ := h.mask msg φ records h₀ hcached
        obtain ⟨hf, hb⟩ := hcompat e he (by rw [hmask]; exact h₀) hmask hfreq hne
        exact hrec.trans (recordsUnder_congr hf hb msg φ)
  | none =>
      obtain ⟨hconfig, hmap⟩ := noiseRecords_frame masks m msg φ
      have hread := h.keys.cachedRecords_noiseRecords masks hcached
      refine ⟨?_, ?_, ?_, ?_⟩
      · have hres : (m.noiseRecords masks msg φ).1 = m.computeRecords masks msg φ := by
          unfold noiseRecords
          rw [hcached]
        rw [hres, h.keys.computeRecords_eq]
      · intro f
        rw [hconfig, hmap]
        exact h.keys f
      · intro msg' φ' records h₀ hrec
        rw [hread] at hrec
        rw [hconfig]
        split at hrec
        next hsame =>
            obtain ⟨hkey, rfl⟩ := hsame
            split at hrec
            · exact absurd hrec (by simp)
            · rw [← Option.some.inj hrec]
              exact recordsUnder_sameKey hkey m.config φ
        next hsame => exact h.bandwidth msg' φ' records h₀ hrec
      · intro msg' φ' records h₀ hrec
        rw [hread] at hrec
        split at hrec
        next hsame =>
            obtain ⟨hkey, rfl⟩ := hsame
            split at hrec
            · exact absurd hrec (by simp)
            next hne =>
                refine ⟨⟨msg.spectralMaskIndex, φ, m.config⟩, by simp, ?_, rfl, hne, ?_⟩
                · obtain ⟨hzero, hkey⟩ := hkey
                  unfold cacheKey at hkey
                  rwa [if_neg (fun h' => h₀ (hzero.mp h')), if_neg h₀] at hkey
                · rw [← Option.some.inj hrec]
                  exact recordsUnder_sameKey hkey m.config φ
        next hsame =>
            obtain ⟨e, he, hrest⟩ := h.mask msg' φ' records h₀ hrec
            exact ⟨e, List.mem_cons_of_mem _ he, hrest⟩

/-! ## Runs -/

/-- The lookups a message makes under a configuration. -/
def messageLookups (config : Config) (msg : Message) : List Lookup :=
  if (timed config msg).isSome && !simpleMode config msg then
    (messageSegments config msg).map fun s => ⟨msg.spectralMaskIndex, s.shiftedFrequency, config⟩
  else []

/-- The configuration after an operation. -/
def opConfig (config : Config) : Op → Config
  | .init config' => config'
  | _ => config

/-- The lookups of an operation. -/
def opLookups (config : Config) : Op → List Lookup
  | .update msg => messageLookups config msg
  | _ => []

/-- The lookups of a run, oldest first. They depend on the operations only. -/
def runLookups : Config → List Op → List Lookup
  | _, [] => []
  | config, op :: ops => opLookups config op ++ runLookups (opConfig config op) ops

/-- The records a segment is given are those computed afresh. -/
def SegmentFresh (masks : Masks) (t : Timed) (l : SegmentLoop) (s : Segment) : Prop :=
  simpleMode l.monitor.config t.message = false →
    (l.monitor.noiseRecords masks t.message s.shiftedFrequency).1
      = l.monitor.computeRecords masks t.message s.shiftedFrequency

instance (masks : Masks) (t : Timed) (l : SegmentLoop) (s : Segment) :
    Decidable (SegmentFresh masks t l s) :=
  inferInstanceAs (Decidable (_ → _))

/-- Every segment of an update is given fresh records. -/
def UsesFresh (masks : Masks) (m : SpectrumMonitor) (op : Op) : Prop :=
  m.AtSegments masks (SegmentFresh masks) op

instance (masks : Masks) (m : SpectrumMonitor) (op : Op) : Decidable (m.UsesFresh masks op) :=
  inferInstanceAs (Decidable (m.AtSegments masks (SegmentFresh masks) op))

/-- The lookup of a segment. -/
def lookupOf (config : Config) (msg : Message) (s : Segment) : Lookup :=
  ⟨msg.spectralMaskIndex, s.shiftedFrequency, config⟩

/-- **One segment**: a compatible lookup uses fresh records and the step keeps the invariant. -/
theorem CacheInv.segment {masks : Masks} {t : Timed} {l : SegmentLoop} {past : List Lookup}
    (h : CacheInv masks past l.monitor) (hmode : simpleMode l.monitor.config t.message = false)
    (s : Segment)
    (hcompat : ∀ e ∈ past, Compatible e (lookupOf l.monitor.config t.message s)) :
    (l.monitor.noiseRecords masks t.message s.shiftedFrequency).1
        = recordsUnder masks l.monitor.config t.message s.shiftedFrequency ∧
      ∀ l', segmentStep masks t l s = some l' → l'.monitor.config = l.monitor.config ∧
        CacheInv masks (lookupOf l.monitor.config t.message s :: past) l'.monitor := by
  obtain ⟨hrec, hinv⟩ := h.lookup t.message s.shiftedFrequency hcompat
  refine ⟨hrec, ?_⟩
  intro l' hl'
  obtain ⟨hconfig, hkeys⟩ := segmentStep_frame hl'
  unfold segmentStep at hl'
  rw [hmode, if_neg (by simp)] at hl'
  obtain ⟨r, -, hsame⟩ := recordSegment_spec hl'
  obtain ⟨hc, hm⟩ := noiseRecords_frame masks l.monitor t.message s.shiftedFrequency
  refine ⟨hconfig, hinv.of_sameNoise ?_ ?_ hsame.bandwidthCache_eq hsame.maskCache_eq⟩
  · rw [hconfig, hc]
  · intro f
    rw [hkeys f, hm]

/-- **The segments of a message**: compatible lookups use fresh records and keep the invariant. -/
theorem segments_fresh {masks : Masks} {t : Timed} {config : Config}
    (hmode : simpleMode config t.message = false) :
    ∀ (segs : List Segment) (l : SegmentLoop) (past : List Lookup), l.monitor.config = config →
      CacheInv masks past l.monitor →
      (∀ e ∈ past, ∀ s ∈ segs, Compatible e (lookupOf config t.message s)) →
      (segs.map (lookupOf config t.message)).Pairwise Compatible →
      RunMeets (segmentStep masks t) (SegmentFresh masks t) l segs ∧
        ∀ l', runSteps (segmentStep masks t) l segs = some l' → l'.monitor.config = config ∧
          CacheInv masks ((segs.map (lookupOf config t.message)).reverse ++ past) l'.monitor := by
  intro segs
  induction segs with
  | nil =>
      intro l past hconfig hinv _ _
      refine ⟨trivial, ?_⟩
      intro l' hl'
      rw [runSteps_nil, Option.some.injEq] at hl'
      subst hl'
      exact ⟨hconfig, hinv⟩
  | cons s segs ih =>
      intro l past hconfig hinv hpast hpair
      subst hconfig
      rw [List.map_cons, List.pairwise_cons] at hpair
      obtain ⟨hhead, htail⟩ := hpair
      obtain ⟨hrec, hstep⟩ := hinv.segment hmode s (fun e he => hpast e he s (by simp))
      have hpast' : ∀ e ∈ lookupOf l.monitor.config t.message s :: past, ∀ s' ∈ segs,
          Compatible e (lookupOf l.monitor.config t.message s') := by
        intro e he s' hs'
        rcases List.mem_cons.mp he with rfl | he
        · exact hhead _ (List.mem_map.mpr ⟨s', hs', rfl⟩)
        · exact hpast e he s' (by simp [hs'])
      refine ⟨⟨?_, ?_⟩, ?_⟩
      · intro _
        rw [hrec, hinv.keys.computeRecords_eq]
      · intro l₁ h₁
        obtain ⟨hc₁, hi₁⟩ := hstep l₁ h₁
        exact (ih l₁ _ hc₁ hi₁ hpast' htail).1
      · intro l' hl'
        rw [runSteps_cons] at hl'
        obtain ⟨l₁, h₁, hl'⟩ := Option.bind_eq_some_iff.mp hl'
        obtain ⟨hc₁, hi₁⟩ := hstep l₁ h₁
        have := (ih l₁ _ hc₁ hi₁ hpast' htail).2 l' hl'
        simpa using this

/-- In a simple mode the segments leave the monitor alone. -/
theorem segments_simple (masks : Masks) (t : Timed) :
    ∀ (segs : List Segment) (l : SegmentLoop), simpleMode l.monitor.config t.message = true →
      RunMeets (segmentStep masks t) (SegmentFresh masks t) l segs ∧
        ∀ l', runSteps (segmentStep masks t) l segs = some l' → l'.monitor = l.monitor := by
  intro segs
  induction segs with
  | nil =>
      intro l _
      refine ⟨trivial, ?_⟩
      intro l' hl'
      rw [runSteps_nil, Option.some.injEq] at hl'
      rw [hl']
  | cons s segs ih =>
      intro l hmode
      have hstep : segmentStep masks t l s = some (simpleSegment masks t l s) := by
        unfold segmentStep
        rw [if_pos hmode]
      have hmon := simpleSegment_monitor masks t l s
      obtain ⟨hmeets, hrun⟩ := ih (simpleSegment masks t l s) (by rw [hmon]; exact hmode)
      refine ⟨⟨?_, ?_⟩, ?_⟩
      · intro hsimple
        rw [hmode] at hsimple
        exact absurd hsimple (by simp)
      · intro l₁ h₁
        rw [hstep, Option.some.injEq] at h₁
        exact h₁ ▸ hmeets
      · intro l' hl'
        rw [runSteps_cons, hstep, Option.bind_some] at hl'
        rw [hrun l' hl', hmon]

/-- Initialization empties the bandwidth cache and keeps the mask cache. -/
theorem CacheInv.init {masks : Masks} {past : List Lookup} {m : SpectrumMonitor}
    (h : CacheInv masks past m) (config : Config) :
    CacheInv masks past (m.initializeMonitor config) := by
  refine ⟨fun f => Iff.rfl, ?_, ?_⟩
  · intro msg φ records h₀ hrec
    have hnone : (m.initializeMonitor config).cachedRecords msg φ = none := by
      rw [cachedRecords_eq]
      apply lookupIn_of_empty
      unfold recordCache initializeMonitor
      rw [if_pos h₀, ExtTreeMap.getElem?_insert]
      split
      · rfl
      · simp
    rw [hnone] at hrec
    exact absurd hrec (by simp)
  · intro msg φ records h₀ hrec
    have hcached : (m.initializeMonitor config).cachedRecords msg φ = m.cachedRecords msg φ := by
      rw [cachedRecords_eq, cachedRecords_eq]
      unfold recordCache
      rw [if_neg h₀, if_neg h₀]
      rfl
    rw [hcached] at hrec
    exact h.mask msg φ records h₀ hrec

theorem CacheInv.new (masks : Masks) : CacheInv masks [] SpectrumMonitor.new := by
  refine ⟨fun f => Iff.rfl, ?_, ?_⟩ <;>
  · intro msg φ records _ hrec
    have hnone : SpectrumMonitor.new.cachedRecords msg φ = none := by
      rw [cachedRecords_eq]
      apply lookupIn_of_empty
      unfold recordCache SpectrumMonitor.new
      split <;> simp
    rw [hnone] at hrec
    exact absurd hrec (by simp)

theorem initializeFilter_sameNoise {m m' : SpectrumMonitor}
    {index frequencyHz bandwidthHz bandwidthBinSizeHz : ℕ} {criterion : Criterion}
    (h : m.initializeFilter index frequencyHz bandwidthHz bandwidthBinSizeHz criterion = some m') :
    m.SameNoise m' := by
  unfold initializeFilter at h
  split at h
  · exact absurd h (by simp)
  · rw [← Option.some.inj h]
    exact ⟨rfl, rfl, rfl, rfl⟩

theorem removeFilter_sameNoise (m : SpectrumMonitor) (index : ℕ) :
    m.SameNoise (m.removeFilter index) := by
  unfold removeFilter
  split
  · exact ⟨rfl, rfl, rfl, rfl⟩
  · exact SameNoise.refl m

theorem CacheInv.sameNoise {masks : Masks} {past : List Lookup} {m m' : SpectrumMonitor}
    (h : CacheInv masks past m) (hs : m.SameNoise m') : CacheInv masks past m' :=
  h.of_sameNoise hs.config_eq (fun f => by rw [hs.map_eq]) hs.bandwidthCache_eq hs.maskCache_eq

/-- **One operation**: compatible lookups use fresh records and keep the invariant. -/
theorem opStep_fresh {masks : Masks} {past : List Lookup} {m : SpectrumMonitor} (op : Op)
    (h : CacheInv masks past m)
    (hpast : ∀ e ∈ past, ∀ l ∈ opLookups m.config op, Compatible e l)
    (hpair : (opLookups m.config op).Pairwise Compatible) :
    m.UsesFresh masks op ∧ ∀ m', opStep masks m op = some m' →
      m'.config = opConfig m.config op ∧
        CacheInv masks ((opLookups m.config op).reverse ++ past) m' := by
  cases op with
  | init config =>
      refine ⟨trivial, ?_⟩
      intro m' hm'
      rw [← Option.some.inj hm']
      exact ⟨rfl, h.init config⟩
  | addFilter index frequencyHz bandwidthHz bandwidthBinSizeHz criterion =>
      refine ⟨trivial, ?_⟩
      intro m' hm'
      have hs := initializeFilter_sameNoise hm'
      exact ⟨hs.config_eq, h.sameNoise hs⟩
  | removeFilter index =>
      refine ⟨trivial, ?_⟩
      intro m' hm'
      rw [← Option.some.inj hm']
      have hs := removeFilter_sameNoise m index
      exact ⟨hs.config_eq, h.sameNoise hs⟩
  | update msg =>
      have hstart : CacheInv masks past (m.startLoop msg).monitor :=
        h.of_sameNoise rfl (fun _ => Iff.rfl) rfl rfl
      cases htimed : timed m.config msg with
      | none =>
          have hnil : opLookups m.config (.update msg) = [] := by
            simp [opLookups, messageLookups, htimed]
          refine ⟨by simp [UsesFresh, AtSegments, htimed], ?_⟩
          intro m' hm'
          obtain ⟨⟨m₁, report⟩, hupd, rfl⟩ := Option.map_eq_some_iff.mp hm'
          rcases update_spec hupd with ⟨-, flag, rfl⟩ | ⟨t, l, ht, -, -⟩
          · rw [hnil]
            exact ⟨rfl, h.sameNoise (withClampError_sameNoise m flag)⟩
          · rw [htimed] at ht
            exact absurd ht (by simp)
      | some t =>
          obtain rfl : t.message = msg := timed_message htimed
          -- what a completed update leaves behind
          have hrun : ∀ m', opStep masks m (.update t.message) = some m' → ∃ l,
              runSteps (segmentStep masks t) (m.startLoop t.message)
                (messageSegments m.config t.message) = some l ∧ l.monitor.SameNoise m' := by
            intro m' hm'
            obtain ⟨⟨m₁, report⟩, hupd, rfl⟩ := Option.map_eq_some_iff.mp hm'
            rcases update_spec hupd with ⟨hnone, -⟩ | ⟨t', l, ht', hl, flag, rfl⟩
            · rw [htimed] at hnone
              exact absurd hnone (by simp)
            · rw [htimed, Option.some.injEq] at ht'
              subst ht'
              exact ⟨l, hl, withClampError_sameNoise l.monitor flag⟩
          cases hmode : simpleMode m.config t.message with
          | true =>
              have hnil : opLookups m.config (.update t.message) = [] := by
                simp [opLookups, messageLookups, hmode]
              obtain ⟨hmeets, hmon⟩ := segments_simple masks t
                (messageSegments m.config t.message) (m.startLoop t.message) hmode
              refine ⟨by simpa [UsesFresh, AtSegments, htimed] using hmeets, ?_⟩
              intro m' hm'
              obtain ⟨l, hl, hs⟩ := hrun m' hm'
              rw [hnil]
              have hl' := hmon l hl
              refine ⟨?_, (hl' ▸ hstart : CacheInv masks past l.monitor).sameNoise hs⟩
              rw [hs.config_eq, hl']
              rfl
          | false =>
              have hlook : opLookups m.config (.update t.message)
                  = (messageSegments m.config t.message).map (lookupOf m.config t.message) := by
                simp [opLookups, messageLookups, htimed, hmode, lookupOf]
              rw [hlook] at hpast hpair ⊢
              obtain ⟨hmeets, hfinal⟩ := segments_fresh hmode
                (messageSegments m.config t.message) (m.startLoop t.message) past rfl hstart
                (fun e he s hs => hpast e he _ (List.mem_map.mpr ⟨s, hs, rfl⟩)) hpair
              refine ⟨by simpa [UsesFresh, AtSegments, htimed] using hmeets, ?_⟩
              intro m' hm'
              obtain ⟨l, hl, hs⟩ := hrun m' hm'
              obtain ⟨hc, hi⟩ := hfinal l hl
              exact ⟨hs.config_eq.trans hc, hi.sameNoise hs⟩

theorem run_fresh {masks : Masks} :
    ∀ (ops : List Op) (m : SpectrumMonitor) (past : List Lookup), CacheInv masks past m →
      (∀ e ∈ past, ∀ l ∈ runLookups m.config ops, Compatible e l) →
      (runLookups m.config ops).Pairwise Compatible →
      RunMeets (opStep masks) (UsesFresh masks) m ops := by
  intro ops
  induction ops with
  | nil =>
      intro m past _ _ _
      trivial
  | cons op ops ih =>
      intro m past hinv hpast hpair
      rw [runLookups, List.pairwise_append] at hpair
      obtain ⟨hop, hops, hcross⟩ := hpair
      obtain ⟨hfresh, hnext⟩ := opStep_fresh op hinv
        (fun e he l hl => hpast e he l (by rw [runLookups]; simp [hl])) hop
      refine ⟨hfresh, ?_⟩
      intro m' hm'
      obtain ⟨hconfig, hinv'⟩ := hnext m' hm'
      refine ih m' _ hinv' ?_ (by rw [hconfig]; exact hops)
      intro e he l hl
      rw [hconfig] at hl
      rcases List.mem_append.mp he with he | he
      · exact hcross e (List.mem_reverse.mp he) l hl
      · exact hpast e he l (by rw [runLookups]; simp [hl])

end SpectrumMonitor

open SpectrumMonitor

/-- **The overlap caches are transparent** in every run in which a segment with a spectral mask is
looked up under the frequencies of interest and the bandwidth of every earlier lookup of its mask and
frequency: every segment of every update is given the records a fresh computation gives for the
current recorders. -/
theorem overlap_caches_transparent (masks : Masks) (ops : List Op)
    (h : (runLookups SpectrumMonitor.new.config ops).Pairwise Compatible) :
    RunMeets (opStep masks) (UsesFresh masks) SpectrumMonitor.new ops :=
  run_fresh ops SpectrumMonitor.new [] (CacheInv.new masks) (by simp) h

/-! ## A stale entry -/

/-- A recording configuration with a receiver bandwidth of `100` Hz. -/
def recordingConfig (foi : List ℕ) : Config :=
  { subId := 1, foi := foi, bandwidthHz := 100, receiverSensitivityMilliWatt := 1 / 1000
    mode := .all, binSize := 10, maxOffset := 10, maxPropagation := 10, maxDuration := 100
    timeSyncThreshold := 1000, maxClamp := false, excludeSameSubIdFromFilter := false }

/-- A message of one segment of `20` microseconds with power `1`, sent and received at `now`. -/
def messageAt (now : ℤ) (frequencyHz bandwidthHz maskIndex : ℕ) : Message :=
  { now := now, txTime := now, propagationDelay := 0, dopplerFactor := 0
    segments := [⟨frequencyHz, 20, 0⟩], segmentBandwidthHz := bandwidthHz, rxPowersMilliWatt := [1]
    inBand := false, transmitters := [7], subId := 2, txAntennaIndex := 0
    spectralMaskIndex := maskIndex, filterData := [] }

/-- One mask, `1`, of a single band of `100` Hz. -/
def oneMask : Masks := fun id => if id = 1 then some [⟨0, 100, [(100, 1)]⟩] else none

/-- Changing the frequencies of interest is harmless for a frequency not looked up before. -/
theorem overlap_caches_transparent_other_frequency :
    RunMeets (opStep oneMask) (UsesFresh oneMask) SpectrumMonitor.new
      [.init (recordingConfig [1000]), .update (messageAt 1000 1000 100 1),
        .init (recordingConfig [1000, 1050]), .update (messageAt 1100 1020 100 1),
        .update (messageAt 1200 1000 100 0)] :=
  overlap_caches_transparent oneMask _ (by decide +kernel)

/-- With a frequency of interest added by a second initialization, a segment whose mask and frequency
were seen before is still given the records of the first one. -/
theorem mask_cache_stale :
    ¬ RunMeets (opStep oneMask) (UsesFresh oneMask) SpectrumMonitor.new
      [.init (recordingConfig [1000]), .update (messageAt 1000 1000 100 1),
        .init (recordingConfig [1000, 1050]), .update (messageAt 1100 1000 100 1)] := by
  decide +kernel

end Emane.Spectrum
