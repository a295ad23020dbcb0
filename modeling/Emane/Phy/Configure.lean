import Emane.Phy.State

set_option autoImplicit false

/-! # Configuring the physical layer

`builtin_configure` applies the items of a request one after the other, checks the parameters against
each other and initializes the main monitor. An item that is refused ends the request; what the items
before it changed stays changed, the monitor is left alone.

The number parsers are parameters (`Parsers`). `runningState` are the parameters that have nothing to
do with the spectrum: items with such names change nothing the monitors are made from (`SameLayout`).
Whether an item is refused does not depend on the state (`applyItem_isSome`), so a request is refused
exactly when it is malformed, has a refused item or leaves parameters that do not fit together
(`Refused`).
-/

namespace Emane.Phy

open Std Emane.Lib Emane.PluginApi Emane.Spectrum Emane.Spectrum.SpectrumMonitor

/-! ## Parameters -/

/-- The parameters of the physical layer. -/
inductive Parameter where
  | frequency
  | frequencyOfInterest
  | bandwidth
  | txPower
  | fixedAntennaGain
  | fixedAntennaGainEnable
  | subId
  | noiseMode
  | noiseBinSize
  | noiseMaxSegmentOffset
  | noiseMaxMessagePropagation
  | noiseMaxSegmentDuration
  | timeSyncThreshold
  | noiseMaxClampEnable
  | systemNoiseFigure
  | propagationModel
  | excludeSameSubIdFromFilterEnable
  | compatibilityMode
  | processingPoolSize
  | receivePowerTableEnable
  | observedPowerTableEnable
  | rxSensitivityPromiscuousModeEnable
  | dopplerShiftEnable
  | spectralMaskIndex
  | radioSilenceEnable
  | fadingModel
  | nakagamiM0
  | nakagamiM1
  | nakagamiM2
  | nakagamiDistance0
  | nakagamiDistance1
  | lognormalDmu
  | lognormalDsigma
  | lognormalDlthresh
  | lognormalDuthresh
  | lognormalMaxpathloss
  | lognormalMinpathloss
  | lognormalLmean
  | lognormalLstddev
deriving DecidableEq

/-- The names `valid_for_kind` admits for the physical layer. -/
def Parameter.ofName : String → Option Parameter
  | "frequency" => some .frequency
  | "frequencyofinterest" => some .frequencyOfInterest
  | "bandwidth" => some .bandwidth
  | "txpower" => some .txPower
  | "fixedantennagain" => some .fixedAntennaGain
  | "fixedantennagainenable" => some .fixedAntennaGainEnable
  | "subid" => some .subId
  | "noisemode" => some .noiseMode
  | "noisebinsize" => some .noiseBinSize
  | "noisemaxsegmentoffset" => some .noiseMaxSegmentOffset
  | "noisemaxmessagepropagation" => some .noiseMaxMessagePropagation
  | "noisemaxsegmentduration" => some .noiseMaxSegmentDuration
  | "timesyncthreshold" => some .timeSyncThreshold
  | "noisemaxclampenable" => some .noiseMaxClampEnable
  | "systemnoisefigure" => some .systemNoiseFigure
  | "propagationmodel" => some .propagationModel
  | "excludesamesubidfromfilterenable" => some .excludeSameSubIdFromFilterEnable
  | "compatibilitymode" => some .compatibilityMode
  | "processingpoolsize" => some .processingPoolSize
  | "stats.receivepowertableenable" => some .receivePowerTableEnable
  | "stats.observedpowertableenable" => some .observedPowerTableEnable
  | "rxsensitivitypromiscuousmodeenable" => some .rxSensitivityPromiscuousModeEnable
  | "dopplershiftenable" => some .dopplerShiftEnable
  | "spectralmaskindex" => some .spectralMaskIndex
  | "radiosilenceenable" => some .radioSilenceEnable
  | "fading.model" => some .fadingModel
  | "fading.nakagami.m0" => some .nakagamiM0
  | "fading.nakagami.m1" => some .nakagamiM1
  | "fading.nakagami.m2" => some .nakagamiM2
  | "fading.nakagami.distance0" => some .nakagamiDistance0
  | "fading.nakagami.distance1" => some .nakagamiDistance1
  | "fading.lognormal.dmu" => some .lognormalDmu
  | "fading.lognormal.dsigma" => some .lognormalDsigma
  | "fading.lognormal.dlthresh" => some .lognormalDlthresh
  | "fading.lognormal.duthresh" => some .lognormalDuthresh
  | "fading.lognormal.maxpathloss" => some .lognormalMaxpathloss
  | "fading.lognormal.minpathloss" => some .lognormalMinpathloss
  | "fading.lognormal.lmean" => some .lognormalLmean
  | "fading.lognormal.lstddev" => some .lognormalLstddev
  | _ => none

/-- The parsers of numbers: `f64` and, with a largest value, the unsigned types of `str::parse`, and
`parse_scaled_u64`. -/
structure Parsers where
  f64 : String → Option F64
  unsigned : ℕ → String → Option ℕ
  scaledU64 : String → Option ℕ

/-- `str::to_ascii_lowercase` -/
def toAsciiLowercase (value : String) : String := value.map Char.toLower

/-- `parse_bool` -/
def parseBool (value : String) : Option Bool :=
  match toAsciiLowercase value with
  | "true" | "1" | "yes" | "on" => some true
  | "false" | "0" | "no" | "off" => some false
  | _ => none

namespace Parsers

variable (p : Parsers)

/-- `parse_i64_config`: an unsigned number that fits a signed one. -/
def i64Config (value : String) : Option ℤ :=
  (p.unsigned 18446744073709551615 value).bind fun n => if (n : ℤ) ≤ i64Max then some n else none

/-- A finite double. -/
def finite (value : String) : Option F64 := (p.f64 value).filter F64.isFinite

/-- A frequency or a bandwidth: not zero. -/
def nonzeroScaled (value : String) : Option ℕ := (p.scaledU64 value).filter (· ≠ 0)

/-- A finite double that is at least `least`. -/
def finiteFrom (least : F64) (value : String) : Option F64 := (p.finite value).filter least.le

end Parsers

/-! ## Items -/

/-- An item of a request: a name and its values. -/
structure Item where
  name : String
  values : List String

namespace PhyState

/-- A lognormal parameter is set; every change counts. -/
def setLognormal (s : PhyState) (parameters : LognormalFadingParameters) : PhyState :=
  { s with lognormalParameters := { parameters with counter := parameters.counter + 1 } }

def setNakagami (s : PhyState) (parameters : NakagamiParameters) : PhyState :=
  { s with nakagamiParameters := parameters }

/-- The `match` of `builtin_configure` for the parameters of the spectrum and of the tables: `none`
refuses the item. -/
def applySpectrumParameter (p : Parsers) (s : PhyState) (parameter : Parameter) (value : String)
    (values : List String) : Option PhyState :=
  match parameter with
  | .frequency => (p.nonzeroScaled value).map fun v => { s with frequencyHz := v }
  | .frequencyOfInterest => do
      let frequencies ← values.mapM p.nonzeroScaled
      if frequencies.isEmpty then none else some { s with frequenciesOfInterest := frequencies }
  | .bandwidth => (p.nonzeroScaled value).map fun v => { s with bandwidthHz := v }
  | .subId => ((p.unsigned 65535 value).filter (· ≠ 0)).map fun v => { s with subId := v }
  | .noiseMode =>
      match value with
      | "none" => some { s with noiseMode := .none }
      | "all" => some { s with noiseMode := .all }
      | "outofband" => some { s with noiseMode := .outOfBand }
      | "passthrough" => some { s with noiseMode := .passThrough }
      | _ => none
  | .noiseBinSize => ((p.i64Config value).filter (· ≠ 0)).map fun v => { s with noiseBinSize := v }
  | .noiseMaxSegmentOffset => (p.i64Config value).map fun v => { s with maxSegmentOffset := v }
  | .noiseMaxMessagePropagation =>
      (p.i64Config value).map fun v => { s with maxMessagePropagation := v }
  | .noiseMaxSegmentDuration => (p.i64Config value).map fun v => { s with maxSegmentDuration := v }
  | .timeSyncThreshold => (p.i64Config value).map fun v => { s with timeSyncThreshold := v }
  | .noiseMaxClampEnable => (parseBool value).map fun v => { s with noiseMaxClamp := v }
  | .systemNoiseFigure => (p.finite value).map fun v => { s with systemNoiseFigureDb := v }
  | .propagationModel =>
      match value with
      | "precomputed" => some { s with propagationModel := .precomputed }
      | "freespace" => some { s with propagationModel := .freeSpace }
      | "2ray" => some { s with propagationModel := .twoRay }
      | _ => none
  | .excludeSameSubIdFromFilterEnable =>
      (parseBool value).map fun v => { s with excludeSameSubIdFromFilter := v }
  | .compatibilityMode =>
      ((p.unsigned 255 value).filter fun v => v = 1 ∨ v = 2).map fun v =>
        { s with compatibilityMode := v }
  | .processingPoolSize =>
      ((p.unsigned 65535 value).filter fun v => v = 0 ∨ 2 ≤ v).map fun v =>
        { s with processingPoolSize := v }
  | .receivePowerTableEnable => (parseBool value).map fun v => { s with receivePowerTableEnabled := v }
  | .observedPowerTableEnable =>
      (parseBool value).map fun v => { s with observedPowerTableEnabled := v }
  | .rxSensitivityPromiscuousModeEnable =>
      (parseBool value).map fun v => { s with rxSensitivityPromiscuousModeEnabled := v }
  | .dopplerShiftEnable => (parseBool value).map fun v => { s with dopplerShiftEnabled := v }
  | .spectralMaskIndex =>
      (p.unsigned 65535 value).map fun v => { s with spectralMaskIndex := v }
  | _ => none

/-- The `match` of `builtin_configure` for the other parameters. -/
def applyRunningParameter (p : Parsers) (s : PhyState) (parameter : Parameter) (value : String) :
    Option PhyState :=
  match parameter with
  | .txPower => (p.finite value).map fun v => { s with txPowerDbm := v }
  | .fixedAntennaGain => (p.finite value).map fun v => { s with fixedAntennaGainDb := v }
  | .fixedAntennaGainEnable => (parseBool value).map fun v => { s with fixedAntennaGainEnabled := v }
  | .radioSilenceEnable => (parseBool value).map fun v => { s with radioSilenceEnabled := v }
  | .fadingModel =>
      match value with
      | "none" => some { s with fadingMode := .none }
      | "event" => some { s with fadingMode := .event }
      | "nakagami" => some { s with fadingMode := .nakagami }
      | "lognormal" => some { s with fadingMode := .lognormal }
      | _ => none
  -- the shapes are at least 0.5, the distances at least 0.0
  | .nakagamiM0 => (p.finiteFrom ⟨0x3fe0000000000000⟩ value).map fun v =>
      s.setNakagami { s.nakagamiParameters with m0 := v }
  | .nakagamiM1 => (p.finiteFrom ⟨0x3fe0000000000000⟩ value).map fun v =>
      s.setNakagami { s.nakagamiParameters with m1 := v }
  | .nakagamiM2 => (p.finiteFrom ⟨0x3fe0000000000000⟩ value).map fun v =>
      s.setNakagami { s.nakagamiParameters with m2 := v }
  | .nakagamiDistance0 => (p.finiteFrom ⟨0⟩ value).map fun v =>
      s.setNakagami { s.nakagamiParameters with distance0Meters := v }
  | .nakagamiDistance1 => (p.finiteFrom ⟨0⟩ value).map fun v =>
      s.setNakagami { s.nakagamiParameters with distance1Meters := v }
  | .lognormalDmu => (p.finite value).map fun v =>
      s.setLognormal { s.lognormalParameters with dmu := v }
  | .lognormalDsigma => (p.finiteFrom ⟨0⟩ value).map fun v =>
      s.setLognormal { s.lognormalParameters with dsigma := v }
  | .lognormalDlthresh => (p.finite value).map fun v =>
      s.setLognormal { s.lognormalParameters with dlthresh := v }
  | .lognormalDuthresh => (p.finite value).map fun v =>
      s.setLognormal { s.lognormalParameters with duthresh := v }
  | .lognormalMaxpathloss => (p.finite value).map fun v =>
      s.setLognormal { s.lognormalParameters with maxpathloss := v }
  | .lognormalMinpathloss => (p.finite value).map fun v =>
      s.setLognormal { s.lognormalParameters with minpathloss := v }
  | .lognormalLmean => (p.finiteFrom ⟨0⟩ value).map fun v =>
      s.setLognormal { s.lognormalParameters with lmean := v }
  | .lognormalLstddev => (p.finiteFrom ⟨0⟩ value).map fun v =>
      s.setLognormal { s.lognormalParameters with lstddev := v }
  | _ => none

end PhyState

/-- Transmit power, antenna gain, radio silence and fading: the parameters that have no part in the
spectrum monitors and that a running layer may change. -/
def Parameter.runningState : Parameter → Bool
  | .txPower | .fixedAntennaGain | .fixedAntennaGainEnable | .radioSilenceEnable | .fadingModel
  | .nakagamiM0 | .nakagamiM1 | .nakagamiM2 | .nakagamiDistance0 | .nakagamiDistance1
  | .lognormalDmu | .lognormalDsigma | .lognormalDlthresh | .lognormalDuthresh
  | .lognormalMaxpathloss | .lognormalMinpathloss | .lognormalLmean | .lognormalLstddev => true
  | _ => false

namespace PhyState

/-- One iteration of `for (name, values) in items`. -/
def applyItem (p : Parsers) (s : PhyState) (item : Item) : Option PhyState := do
  let value ← item.values.head?
  let parameter ← Parameter.ofName item.name
  if parameter.runningState then s.applyRunningParameter p parameter value
  else s.applySpectrumParameter p parameter value item.values

/-- The loop over the items: the state it leaves, and whether no item was refused. -/
def applyItems (p : Parsers) : PhyState → List Item → PhyState × Bool
  | s, [] => (s, true)
  | s, item :: items =>
      match s.applyItem p item with
      | none => (s, false)
      | some s => applyItems p s items

/-- Addition of sizes that stops at the largest 64-bit number. -/
def saturatingAdd (x y : ℤ) : ℤ := max i64Min (min i64Max (x + y))

/-- The last check: the parameters fit together. -/
def coherent (s : PhyState) : Bool :=
  !(decide (s.maxSegmentDuration < s.noiseBinSize) ||
    decide ((saturatingAdd (saturatingAdd s.maxSegmentOffset s.maxMessagePropagation)
      (saturatingAdd s.maxSegmentDuration s.maxSegmentDuration)).tmod s.noiseBinSize ≠ 0) ||
    !s.nakagamiParameters.distance0Meters.lt s.nakagamiParameters.distance1Meters ||
    s.lognormalParameters.duthresh.lt s.lognormalParameters.dlthresh ||
    !s.lognormalParameters.minpathloss.lt s.lognormalParameters.maxpathloss)

end PhyState

/-- `config_items`; a request of `none` has a null pointer or text that is not UTF-8. -/
def configItems : Option (List Item) → Option (List Item)
  | none => none
  | some items =>
      if items.length > 4096 ∨ ∃ item ∈ items, item.values.length > 4096 then none else some items

/-- `builtin_configure` of the physical layer. -/
def builtinConfigure (p : Parsers) (sensitivity : ℕ → F64 → ℚ) (s : PhyState)
    (request : Option (List Item)) : PhyState × Bool :=
  match configItems request with
  | none => (s, false)
  | some items =>
      match s.applyItems p items with
      | (s, false) => (s, false)
      | (s, true) => if s.coherent then (s.initializeMonitor sensitivity, true) else (s, false)


/-! ## Requests that are refused -/

namespace PhyState

/-- Whether an item is refused does not depend on the state. -/
theorem applyItem_eq_none_iff (p : Parsers) (s s' : PhyState) (item : Item) :
    s.applyItem p item = none ↔ s'.applyItem p item = none := by
  unfold applyItem
  cases item.values.head? with
  | none => rfl
  | some value =>
      cases Parameter.ofName item.name with
      | none => rfl
      | some parameter =>
          simp only [Option.bind_eq_bind, Option.bind_some]
          cases parameter <;>
            simp only [Parameter.runningState, applyRunningParameter, applySpectrumParameter,
              Option.map_eq_none_iff, if_true, if_false, Bool.false_eq_true]
          case frequencyOfInterest =>
              cases item.values.mapM p.nonzeroScaled with
              | none => rfl
              | some frequencies =>
                  simp only [Option.bind_eq_bind, Option.bind_some, ite_eq_left_iff, reduceCtorEq]
          all_goals
            split <;> simp only [reduceCtorEq]

/-- The loop ends early exactly when an item is refused. -/
theorem applyItems_refused_iff (p : Parsers) (s : PhyState) (items : List Item) :
    (s.applyItems p items).2 = false ↔ ∃ item ∈ items, s.applyItem p item = none := by
  induction items generalizing s with
  | nil => simp [applyItems]
  | cons item items ih =>
      unfold applyItems
      cases hitem : s.applyItem p item with
      | none => simp [hitem]
      | some s₁ => simp [ih, hitem, applyItem_eq_none_iff p s₁ s]

end PhyState

theorem configItems_eq_some {request : Option (List Item)} {items : List Item}
    (h : configItems request = some items) : request = some items := by
  cases request with
  | none => cases h
  | some all =>
      unfold configItems at h
      simp only at h
      split at h
      · cases h
      · exact h

/-- The request is malformed, or the layer refuses one of its items, or the parameters the items leave
do not fit together. -/
def Refused (p : Parsers) (s : PhyState) (request : Option (List Item)) : Prop :=
  match configItems request with
  | none => True
  | some items =>
      (∃ item ∈ items, s.applyItem p item = none) ∨ (s.applyItems p items).1.coherent = false

theorem builtinConfigure_of_refused {p : Parsers} {s : PhyState} {request : Option (List Item)}
    (h : Refused p s request) (sensitivity : ℕ → F64 → ℚ) :
    ∃ s', builtinConfigure p sensitivity s request = (s', false) ∧
      (s' = s ∨ ∃ items, configItems request = some items ∧ s' = (s.applyItems p items).1) := by
  unfold Refused at h
  unfold builtinConfigure
  cases hitems : configItems request with
  | none => exact ⟨s, rfl, .inl rfl⟩
  | some items =>
      rw [hitems] at h
      simp only [← PhyState.applyItems_refused_iff] at h
      rcases hrun : s.applyItems p items with ⟨s', flag⟩
      rw [hrun] at h
      refine ⟨s', ?_, .inr ⟨items, rfl, by rw [hrun]⟩⟩
      simp only [hrun]
      cases flag with
      | false => rfl
      | true =>
          rcases h with h | h
          · cases h
          · have hnot : ¬ s'.coherent = true := ne_true_of_eq_false h
            exact if_neg hnot

theorem builtinConfigure_of_not_refused {p : Parsers} {s : PhyState} {request : Option (List Item)}
    (h : ¬ Refused p s request) (sensitivity : ℕ → F64 → ℚ) :
    ∃ items, configItems request = some items ∧ (s.applyItems p items).1.coherent = true ∧
      builtinConfigure p sensitivity s request =
        ((s.applyItems p items).1.initializeMonitor sensitivity, true) := by
  unfold Refused at h
  unfold builtinConfigure
  cases hitems : configItems request with
  | none => rw [hitems] at h; exact absurd trivial h
  | some items =>
      rw [hitems] at h
      simp only [← PhyState.applyItems_refused_iff, not_or, Bool.not_eq_false] at h
      rcases hrun : s.applyItems p items with ⟨s', flag⟩
      rw [hrun] at h
      obtain ⟨rfl, hcoherent⟩ := h
      exact ⟨items, rfl, by rw [hrun]; exact hcoherent, by simp only [hcoherent, hrun, if_true]⟩

/-! ## Parameters of a running layer -/

/-- Every item that has a known name is about a parameter of `runningState`. -/
def RunningOnly : Option (List Item) → Prop
  | none => True
  | some items => ∀ item ∈ items, (Parameter.ofName item.name).all Parameter.runningState = true

/-- The states have the same antennas with the same monitors, and a monitor made in one of them is
made with the same arguments in the other. -/
structure SameLayout (sensitivity : ℕ → F64 → ℚ) (s s' : PhyState) : Prop where
  config : ∀ frequenciesHz bandwidthHz, s'.monitorConfig sensitivity frequenciesHz bandwidthHz =
    s.monitorConfig sensitivity frequenciesHz bandwidthHz
  foi : s'.frequenciesOfInterest = s.frequenciesOfInterest
  bandwidth : s'.bandwidthHz = s.bandwidthHz
  antennas : s'.receiveAntennas = s.receiveAntennas

section

variable {p : Parsers} {sensitivity : ℕ → F64 → ℚ}

theorem SameLayout.refl (s : PhyState) : SameLayout sensitivity s s :=
  ⟨fun _ _ => rfl, rfl, rfl, rfl⟩

theorem SameLayout.trans {s₁ s₂ s₃ : PhyState} (h : SameLayout sensitivity s₁ s₂)
    (h' : SameLayout sensitivity s₂ s₃) : SameLayout sensitivity s₁ s₃ :=
  ⟨fun fs bw => (h'.config fs bw).trans (h.config fs bw), h'.foi.trans h.foi,
    h'.bandwidth.trans h.bandwidth, h'.antennas.trans h.antennas⟩

/-- What setting a parameter of a running layer leaves alone. -/
theorem applyRunningParameter_frame {s s' : PhyState} {parameter : Parameter} {value : String}
    (h : s.applyRunningParameter p parameter value = some s') :
    SameLayout sensitivity s s' ∧ s'.monitor = s.monitor := by
  -- every arm sets fields of the transmitter or of the fading models from one parsed value
  have hmap : ∀ {α : Type} {x : Option α} {f : α → PhyState}, x.map f = some s' →
      (∀ a, SameLayout sensitivity s (f a) ∧ (f a).monitor = s.monitor) →
      SameLayout sensitivity s s' ∧ s'.monitor = s.monitor := by
    intro α x f hx hf
    obtain ⟨a, -, rfl⟩ := Option.map_eq_some_iff.mp hx
    exact hf a
  unfold PhyState.applyRunningParameter at h
  cases parameter
  case fadingModel =>
      simp only at h
      split at h
      all_goals cases h
      all_goals exact ⟨⟨fun _ _ => rfl, rfl, rfl, rfl⟩, rfl⟩
  all_goals simp only at h
  all_goals first
    | cases h
    | exact hmap h fun _ => ⟨⟨fun _ _ => rfl, rfl, rfl, rfl⟩, rfl⟩

theorem applyItem_frame {s s' : PhyState} {item : Item}
    (hrunning : (Parameter.ofName item.name).all Parameter.runningState = true)
    (h : s.applyItem p item = some s') :
    SameLayout sensitivity s s' ∧ s'.monitor = s.monitor := by
  unfold PhyState.applyItem at h
  obtain ⟨value, -, h⟩ := Option.bind_eq_some_iff.mp h
  obtain ⟨parameter, hname, h⟩ := Option.bind_eq_some_iff.mp h
  rw [hname] at hrunning
  rw [if_pos (show parameter.runningState = true from hrunning)] at h
  exact applyRunningParameter_frame h

/-- **Items for a running layer** leave the monitors alone, and what monitors are made from. -/
theorem applyItems_frame {items : List Item} (hrunning : RunningOnly (some items)) (s : PhyState) :
    SameLayout sensitivity s (s.applyItems p items).1 ∧
      (s.applyItems p items).1.monitor = s.monitor := by
  induction items generalizing s with
  | nil => exact ⟨SameLayout.refl s, rfl⟩
  | cons item items ih =>
      unfold PhyState.applyItems
      cases hitem : s.applyItem p item with
      | none => exact ⟨SameLayout.refl s, rfl⟩
      | some s₁ =>
          obtain ⟨hlayout, hmonitor⟩ : SameLayout sensitivity s s₁ ∧ s₁.monitor = s.monitor :=
            applyItem_frame (hrunning item List.mem_cons_self) hitem
          obtain ⟨hlayout', hmonitor'⟩ :=
            ih (fun other hother => hrunning other (List.mem_cons_of_mem item hother)) s₁
          exact ⟨hlayout.trans hlayout', hmonitor'.trans hmonitor⟩

end

end Emane.Phy
