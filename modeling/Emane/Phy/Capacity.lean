import Emane.Phy.Reconfigure
import Emane.Spectrum.Capacity

set_option autoImplicit false

/-! # The wheels of a configured layer

A configuration that is accepted gives the monitors of the layer sizes that are in order
(`Reached.wellTimed`), so messages whose calls fit are recorded without a failure. It says nothing about
the clocks: a transmit time may be off by the time sync threshold, which can be any number, and messages
that are too late or too early for the wheel do not fit.
-/

namespace Emane.Phy

open Std Emane.Lib Emane.PluginApi Emane.Noise Emane.Spectrum Emane.Spectrum.SpectrumMonitor

/-! ## Accepted parameters -/

/-- The ranges the items of a request keep. -/
structure InRange (s : PhyState) : Prop where
  bin : 1 ≤ s.noiseBinSize
  offset : 0 ≤ s.maxSegmentOffset
  propagation : 0 ≤ s.maxMessagePropagation
  duration : 0 ≤ s.maxSegmentDuration
  threshold : 0 ≤ s.timeSyncThreshold ∧ s.timeSyncThreshold ≤ i64Max

theorem inRange_new : InRange PhyState.new := by
  constructor <;> decide

theorem i64Config_bounds {p : Parsers} {value : String} {v : ℤ} (h : p.i64Config value = some v) :
    0 ≤ v ∧ v ≤ i64Max := by
  unfold Parsers.i64Config at h
  obtain ⟨n, -, h⟩ := Option.bind_eq_some_iff.mp h
  split at h
  · next hn =>
      cases h
      exact ⟨Int.natCast_nonneg n, hn⟩
  · cases h

theorem applySpectrumParameter_inRange {p : Parsers} {s s' : PhyState} {parameter : Parameter}
    {value : String} {values : List String} (hs : InRange s)
    (h : s.applySpectrumParameter p parameter value values = some s') : InRange s' := by
  have hmap : ∀ {α : Type} {x : Option α} {f : α → PhyState}, x.map f = some s' →
      (∀ a, x = some a → InRange (f a)) → InRange s' := by
    intro α x f hx hf
    obtain ⟨a, ha, rfl⟩ := Option.map_eq_some_iff.mp hx
    exact hf a ha
  obtain ⟨hbin, hoffset, hpropagation, hduration, hthreshold⟩ := hs
  unfold PhyState.applySpectrumParameter at h
  cases parameter
  all_goals simp only at h
  case noiseBinSize =>
      refine hmap h fun v hv => ⟨?_, hoffset, hpropagation, hduration, hthreshold⟩
      obtain ⟨hv, hne⟩ := Option.filter_eq_some_iff.mp hv
      have hpos := (i64Config_bounds hv).1
      have hne : v ≠ 0 := by simpa using hne
      show 1 ≤ v
      omega
  case noiseMaxSegmentOffset =>
      exact hmap h fun v hv => ⟨hbin, (i64Config_bounds hv).1, hpropagation, hduration, hthreshold⟩
  case noiseMaxMessagePropagation =>
      exact hmap h fun v hv => ⟨hbin, hoffset, (i64Config_bounds hv).1, hduration, hthreshold⟩
  case noiseMaxSegmentDuration =>
      exact hmap h fun v hv => ⟨hbin, hoffset, hpropagation, (i64Config_bounds hv).1, hthreshold⟩
  case timeSyncThreshold =>
      exact hmap h fun v hv => ⟨hbin, hoffset, hpropagation, hduration, i64Config_bounds hv⟩
  case frequencyOfInterest =>
      obtain ⟨frequencies, -, h⟩ := Option.bind_eq_some_iff.mp h
      split at h
      · cases h
      · cases h
        exact ⟨hbin, hoffset, hpropagation, hduration, hthreshold⟩
  case noiseMode =>
      split at h
      all_goals cases h
      all_goals exact ⟨hbin, hoffset, hpropagation, hduration, hthreshold⟩
  case propagationModel =>
      split at h
      all_goals cases h
      all_goals exact ⟨hbin, hoffset, hpropagation, hduration, hthreshold⟩
  all_goals first
    | cases h
    | exact hmap h fun _ _ => ⟨hbin, hoffset, hpropagation, hduration, hthreshold⟩

/-- A parameter of a running layer is no size of the monitors. -/
theorem applyRunningParameter_inRange {p : Parsers} {s s' : PhyState} {parameter : Parameter}
    {value : String} (hs : InRange s) (h : s.applyRunningParameter p parameter value = some s') :
    InRange s' := by
  obtain ⟨hbin, hoffset, hpropagation, hduration, hthreshold⟩ := hs
  have hlayout : SameLayout (fun _ _ => 0) s s' := (applyRunningParameter_frame h).1
  have hconfig := hlayout.config [] 0
  have h₁ : s'.noiseBinSize = s.noiseBinSize := congrArg Config.binSize hconfig
  have h₂ : s'.maxSegmentOffset = s.maxSegmentOffset := congrArg Config.maxOffset hconfig
  have h₃ : s'.maxMessagePropagation = s.maxMessagePropagation :=
    congrArg Config.maxPropagation hconfig
  have h₄ : s'.maxSegmentDuration = s.maxSegmentDuration := congrArg Config.maxDuration hconfig
  have h₅ : s'.timeSyncThreshold = s.timeSyncThreshold := congrArg Config.timeSyncThreshold hconfig
  refine ⟨?_, ?_, ?_, ?_, ?_⟩
  · rw [h₁]
    exact hbin
  · rw [h₂]
    exact hoffset
  · rw [h₃]
    exact hpropagation
  · rw [h₄]
    exact hduration
  · rw [h₅]
    exact hthreshold

theorem applyItems_inRange {p : Parsers} {items : List Item} {s : PhyState} (hs : InRange s) :
    InRange (s.applyItems p items).1 := by
  induction items generalizing s with
  | nil => exact hs
  | cons item items ih =>
      unfold PhyState.applyItems
      cases hitem : s.applyItem p item with
      | none => exact hs
      | some s₁ =>
          refine ih ?_
          unfold PhyState.applyItem at hitem
          obtain ⟨value, -, hitem⟩ := Option.bind_eq_some_iff.mp hitem
          obtain ⟨parameter, -, hitem⟩ := Option.bind_eq_some_iff.mp hitem
          split at hitem
          · exact applyRunningParameter_inRange hs hitem
          · exact applySpectrumParameter_inRange hs hitem

/-- The last check makes the sizes fit together. -/
theorem wellTimed_of_coherent {s : PhyState} (hs : InRange s) (h : s.coherent = true)
    (sensitivity : ℕ → F64 → ℚ) (frequenciesHz : List ℕ) (bandwidthHz : ℕ) :
    WellTimed (s.monitorConfig sensitivity frequenciesHz bandwidthHz) := by
  obtain ⟨hbin, hoffset, hpropagation, hduration, hthreshold⟩ := hs
  unfold PhyState.coherent at h
  simp only [Bool.not_or, Bool.and_eq_true, Bool.not_eq_true', decide_eq_false_iff_not,
    ne_eq, not_not] at h
  obtain ⟨⟨⟨⟨hle, hmod⟩, -⟩, -⟩, -⟩ := h
  refine ⟨hbin, hoffset, hpropagation, Int.not_lt.mp hle, ?_, hthreshold.1, hthreshold.2⟩
  by_cases hbig : i64Max < s.maxSegmentOffset + s.maxMessagePropagation + s.maxSegmentDuration * 2
  · exact Or.inr hbig
  · left
    -- none of the additions saturates
    have hsum : PhyState.saturatingAdd
        (PhyState.saturatingAdd s.maxSegmentOffset s.maxMessagePropagation)
        (PhyState.saturatingAdd s.maxSegmentDuration s.maxSegmentDuration) =
        s.maxSegmentOffset + s.maxMessagePropagation + s.maxSegmentDuration * 2 := by
      unfold PhyState.saturatingAdd i64Max i64Min at *
      omega
    rw [hsum, Int.tmod_eq_emod_of_nonneg (by omega)] at hmod
    exact Int.dvd_of_emod_eq_zero hmod

section

variable {p : Parsers} {sensitivity : ℕ → F64 → ℚ} {masks : Masks}

theorem handleControl_config (s : PhyState) (message : ControlMessage) (fs : List ℕ) (bw : ℕ) :
    (handleControl sensitivity s message).monitorConfig sensitivity fs bw =
      s.monitorConfig sensitivity fs bw := by
  unfold handleControl
  simp only
  split
  · split
    · rfl
    · rfl
  · split
    · split
      · rfl
      · rfl
    · rfl

/-- Controls and receptions leave the sizes of new monitors alone. -/
theorem step_config {s s' : PhyState} {event : Event} (h : step sensitivity masks s event = some s')
    (fs : List ℕ) (bw : ℕ) :
    s'.monitorConfig sensitivity fs bw = s.monitorConfig sensitivity fs bw := by
  have hfoldl : ∀ (messages : List ControlMessage) (s : PhyState),
      (messages.foldl (handleControl sensitivity) s).monitorConfig sensitivity fs bw =
        s.monitorConfig sensitivity fs bw := by
    intro messages
    induction messages with
    | nil => exact fun s => rfl
    | cons message messages ih =>
        exact fun s => (ih _).trans (handleControl_config s message fs bw)
  cases event with
  | downstream messages =>
      cases h
      unfold builtinDownstream
      split
      · rfl
      · rw [hfoldl]
        split
        · rfl
        · rfl
  | receive antenna msg =>
      unfold step PhyState.record at h
      cases antenna with
      | none =>
          obtain ⟨x, -, rfl⟩ := Option.map_eq_some_iff.mp h
          rfl
      | some index =>
          simp only at h
          split at h
          · cases h
            rfl
          · obtain ⟨x, -, rfl⟩ := Option.map_eq_some_iff.mp h
            rfl

/-- **The sizes of the monitors of a layer are in order.** -/
theorem Reached.wellTimed {s : PhyState} (h : Reached p sensitivity masks s) (fs : List ℕ) (bw : ℕ) :
    WellTimed (s.monitorConfig sensitivity fs bw) := by
  induction h with
  | @configured request s h =>
      by_cases hrefused : Refused p PhyState.new request
      · obtain ⟨s', hs', -⟩ := builtinConfigure_of_refused hrefused sensitivity
        rw [hs'] at h
        cases h
      · obtain ⟨items, -, hcoherent, hs'⟩ := builtinConfigure_of_not_refused hrefused sensitivity
        rw [hs'] at h
        cases h
        exact wellTimed_of_coherent (applyItems_inRange inRange_new) hcoherent sensitivity fs bw
  | event _ h ih =>
      rw [step_config h]
      exact ih
  | @reconfigured s request _ h ih =>
      obtain ⟨s₁, hlayout, -, ⟨-, hs₁⟩ | hs₁⟩ := builtinConfigure_running p sensitivity h s
      · rw [hs₁]
        show WellTimed (s₁.monitorConfig sensitivity fs bw)
        rw [hlayout.config]
        exact ih
      · rw [hs₁]
        show WellTimed (s₁.monitorConfig sensitivity fs bw)
        rw [hlayout.config]
        exact ih

/-! ## Runs of a monitor -/

/-- What the wheel of a recorder is for, at time `now`: every bin recorded is positive, so no index
wraps, no query fails, and the live bins are at most as many as the slots and have different slots. -/
structure WheelSafe (now : ℤ) (r : NoiseRecorder) : Prop where
  positive : r.maxEndOfReceptionBin = 0 ∨ 0 < r.minStartOfReceptionBin
  queries : ∀ now' duration startTime, (r.tryGet now' duration startTime).isSome = true
  live : r.maxEndOfReceptionBin - r.oldestServed now + 1 ≤ r.totalWheelBins
  slots : ∀ k k', 0 ≤ k → 0 ≤ k' → r.oldestServed now ≤ k → r.oldestServed now ≤ k' →
    k ≤ r.maxEndOfReceptionBin → k' ≤ r.maxEndOfReceptionBin → r.wheelIndex k = r.wheelIndex k' →
    k = k'

/-- **The wheels are large enough** in every run of a monitor of the layer whose messages all fit: no
message fails, and after each of them the recorders are safe from then on. -/
theorem wheels_large_enough {s : PhyState} (hs : Reached p sensitivity masks s)
    (frequenciesHz : List ℕ) (bandwidthHz : ℕ) {m₀ : SpectrumMonitor}
    (hfilters : m₀.filterNoiseRecorderMap = ∅) {msgs : List Message}
    (hnow : msgs.Pairwise fun a b => a.now ≤ b.now)
    (hfits : RunMeets (messageStep masks) (MessageFits masks)
      (m₀.initializeMonitor (s.monitorConfig sensitivity frequenciesHz bandwidthHz)) msgs) :
    ∀ past rest, msgs = past ++ rest → ∃ m, runSteps (messageStep masks)
        (m₀.initializeMonitor (s.monitorConfig sensitivity frequenciesHz bandwidthHz)) past = some m ∧
      ∀ now, (∀ msg ∈ past, msg.now ≤ now) → ∀ (f : ℕ) (r : NoiseRecorder),
        m.noiseRecorderMap[f]? = some r → WheelSafe now r := by
  rintro past rest rfl
  obtain ⟨m, hrun, hroom⟩ := Roomy.run (roomy_initializeMonitor (hs.wellTimed _ _) hfilters)
    (List.pairwise_append.mp hnow).1 hfits.of_append
  refine ⟨m, hrun, ?_⟩
  intro now hle f r hr
  obtain ⟨htidy, -, -, hwithin⟩ := (hroom now hle).recorders f r hr
  refine ⟨?_, htidy.tryGet_isSome, hwithin, ?_⟩
  · rcases htidy.range with hblank | hlive
    · exact Or.inl hblank.1
    · exact Or.inr hlive.1
  · intro k k' hk₀ hk₀' hk hk' hkM hkM' heq
    exact hwithin.wheelIndex_inj htidy hk₀ hk₀' hk hk' hkM hkM' heq

end

/-! ## A layer with one frequency -/

/-- A reception of `20` microseconds from the transmitter `nem`, stamped `txTime`. -/
def stampedMessage (nem : ℕ) (now txTime : ℤ) : Message :=
  { messageAt now 1000 100 0 with txTime := txTime, transmitters := [nem] }

/-- Receptions of two transmitters with clocks that agree, and one that is `10` microseconds late. -/
def closeMessages : List Message :=
  [stampedMessage 1 1000 1000, stampedMessage 2 1100 1100, stampedMessage 3 1110 1100]

theorem wheels_large_enough_smallLayer :
    ∃ m, runSteps (messageStep oneMask) (SpectrumMonitor.new.initializeMonitor
        (smallLayer.monitorConfig flatSensitivity [1000] 100)) closeMessages = some m ∧
      ∀ now, (∀ msg ∈ closeMessages, msg.now ≤ now) → ∀ (f : ℕ) (r : NoiseRecorder),
        m.noiseRecorderMap[f]? = some r → WheelSafe now r :=
  wheels_large_enough reached_smallLayer [1000] 100 rfl (by decide) (by decide +kernel) _ []
    (List.append_nil _).symm

/-- The threshold of the layer is `10000`. A reception stamped `4000` before one that is recorded asks
for a gap of more slots than the wheel has, and a reception stamped `8000` ahead leaves more live bins
than the wheel has slots. -/
theorem wheels_too_small :
    Reached decimalParsers flatSensitivity oneMask smallLayer ∧
      runSteps (messageStep oneMask) smallLayer.monitor
        [stampedMessage 1 5000 5000, stampedMessage 2 5000 1000] = none ∧
      ∃ m r, runSteps (messageStep oneMask) smallLayer.monitor [stampedMessage 1 1000 9000] = some m ∧
        m.noiseRecorderMap[1000]? = some r ∧ ¬ WheelSafe 1000 r := by
  have hlate : (runSteps (messageStep oneMask) smallLayer.monitor
      [stampedMessage 1 5000 5000, stampedMessage 2 5000 1000]).isNone = true := by
    decide +kernel
  have hahead : ((runSteps (messageStep oneMask) smallLayer.monitor [stampedMessage 1 1000 9000]).bind
      fun m => m.noiseRecorderMap[1000]?).any (fun r => !decide (r.WithinWheel 1000)) = true := by
    decide +kernel
  refine ⟨reached_smallLayer, Option.isNone_iff_eq_none.mp hlate, ?_⟩
  obtain ⟨r, hr, hfar⟩ := (Option.any_eq_true _ _).mp hahead
  obtain ⟨m, hm, hr⟩ := Option.bind_eq_some_iff.mp hr
  refine ⟨m, r, hm, hr, ?_⟩
  intro hsafe
  have hnot : ¬ r.WithinWheel 1000 := by simpa using hfar
  exact hnot hsafe.live

end Emane.Phy
