import Emane.Phy.Configure
import Emane.Phy.ReceiveAntennas
import Emane.Spectrum.Request
import Emane.Spectrum.Twin

set_option autoImplicit false

/-! # Configuring a running layer

A request for a running layer changes nothing the spectrum depends on, but an accepted one ends with
`initialize_monitor` like every other, and the main monitor starts again with empty recorders. `Alike`
relates the states with and without the request: same antennas, main monitors that are twins. It is
kept by everything that happens afterwards, and alike states answer every query in the same way
(`Undisturbed`). A refused request leads to an alike state; an accepted one does as long as nothing is
recorded in the main monitor.
-/

namespace Emane.Phy

open Std Emane.Lib Emane.PluginApi Emane.Spectrum Emane.Spectrum.SpectrumMonitor

/-! ## Runs of the layer -/

/-- The states of a layer: it is configured once, then there are controls, receptions and requests for
a running layer in any order. -/
inductive Reached (p : Parsers) (sensitivity : ℕ → F64 → ℚ) (masks : Masks) : PhyState → Prop
  | configured {request : Option (List Item)} {s : PhyState}
      (h : builtinConfigure p sensitivity PhyState.new request = (s, true)) :
      Reached p sensitivity masks s
  | event {s s' : PhyState} {event : Event} (hs : Reached p sensitivity masks s)
      (h : step sensitivity masks s event = some s') : Reached p sensitivity masks s'
  | reconfigured {s : PhyState} {request : Option (List Item)} (hs : Reached p sensitivity masks s)
      (h : RunningOnly request) : Reached p sensitivity masks (builtinConfigure p sensitivity s request).1

/-- The monitors answer every query in the same way. -/
structure SameWindows (m m' : SpectrumMonitor) : Prop where
  request : ∀ now frequencyHz duration timepoint,
    m'.requestI now frequencyHz duration timepoint = m.requestI now frequencyHz duration timepoint
  filter : ∀ now index duration timepoint,
    m'.requestFilterI now index duration timepoint = m.requestFilterI now index duration timepoint
  noise : ∀ now frequencyHz duration startTime signal,
    m'.receptionNoise now frequencyHz duration startTime signal =
      m.receptionNoise now frequencyHz duration startTime signal

/-- So do the main monitors and the monitors of all antennas. -/
structure SameAnswers (s s' : PhyState) : Prop where
  main : SameWindows s.monitor s'.monitor
  antennas : ∀ i : UInt16, Option.Rel
    (fun entry entry' : ReceiveAntennaState => SameWindows entry.monitor entry'.monitor)
    s.receiveAntennas[i]? s'.receiveAntennas[i]?

/-- Whatever happens afterwards, it happens in both states or fails in both, and ends with monitors
that give the same answers. -/
def Undisturbed (sensitivity : ℕ → F64 → ℚ) (masks : Masks) (s s' : PhyState) : Prop :=
  ∀ events : List Event, Option.Rel SameAnswers (runSteps (step sensitivity masks) s events)
    (runSteps (step sensitivity masks) s' events)

/-- The main monitor has the arguments the state gives it, and its caches are right. -/
structure InTune (sensitivity : ℕ → F64 → ℚ) (masks : Masks) (s : PhyState) : Prop where
  config : s.monitor.config = s.monitorConfig sensitivity s.frequenciesOfInterest s.bandwidthHz
  sane : s.monitor.Sane masks

/-- The states differ in parameters that have no part in the spectrum, and in the bandwidth cache of
the main monitor. -/
structure Alike (sensitivity : ℕ → F64 → ℚ) (masks : Masks) (s s' : PhyState) : Prop where
  layout : SameLayout sensitivity s s'
  twin : Twin masks s.monitor s'.monitor

section

variable {p : Parsers} {sensitivity : ℕ → F64 → ℚ} {masks : Masks}

/-! ## Alike states -/

theorem SameWindows.refl (m : SpectrumMonitor) : SameWindows m m :=
  ⟨fun _ _ _ _ => rfl, fun _ _ _ _ => rfl, fun _ _ _ _ _ => rfl⟩

theorem Alike.sameAnswers {s s' : PhyState} (h : Alike sensitivity masks s s') : SameAnswers s s' := by
  refine ⟨?_, ?_⟩
  · obtain ⟨cache, hcache⟩ := h.twin.eq
    rw [hcache]
    exact ⟨fun _ _ _ _ => rfl, fun _ _ _ _ => rfl, fun _ _ _ _ _ => rfl⟩
  · intro i
    rw [h.layout.antennas]
    cases s.receiveAntennas[i]? with
    | none => exact .none
    | some entry => exact .some (SameWindows.refl entry.monitor)

/-- Starting the main monitors of alike states again makes them equal. -/
theorem Alike.initializeMonitor {s s' : PhyState} (h : Alike sensitivity masks s s') :
    Alike sensitivity masks (s.initializeMonitor sensitivity) (s'.initializeMonitor sensitivity) := by
  obtain ⟨⟨hconfig, hfoi, hbandwidth, hantennas⟩, ⟨cache, hcache⟩, -, -⟩ := h
  refine ⟨⟨hconfig, hfoi, hbandwidth, hantennas⟩, ?_⟩
  have hsame : (s'.initializeMonitor sensitivity).monitor =
      (s.initializeMonitor sensitivity).monitor := by
    unfold PhyState.initializeMonitor
    simp only [hconfig, hfoi, hbandwidth, hcache]
    rfl
  rw [hsame]
  exact ⟨⟨_, rfl⟩, sane_initializeMonitor masks _ _, sane_initializeMonitor masks _ _⟩

theorem Alike.record {s s' : PhyState} (h : Alike sensitivity masks s s') (antenna : Option UInt16)
    (msg : Message) :
    Option.Rel (Alike sensitivity masks) (s.record masks antenna msg)
      (s'.record masks antenna msg) := by
  obtain ⟨⟨hconfig, hfoi, hbandwidth, hantennas⟩, htwin⟩ := h
  unfold PhyState.record
  cases antenna with
  | none =>
      have hrel := htwin.update_rel msg
      simp only
      generalize s.monitor.update masks msg = x, s'.monitor.update masks msg = x' at hrel
      cases hrel with
      | none => exact .none
      | some htwin₁ => exact .some ⟨⟨hconfig, hfoi, hbandwidth, hantennas⟩, htwin₁⟩
  | some index =>
      simp only [hantennas]
      cases s.receiveAntennas[index]? with
      | none => exact .some ⟨⟨hconfig, hfoi, hbandwidth, hantennas⟩, htwin⟩
      | some entry =>
          simp only
          cases entry.monitor.update masks msg with
          | none => exact .none
          | some x => exact .some ⟨⟨hconfig, hfoi, hbandwidth, rfl⟩, htwin⟩

theorem Alike.handleControl {s s' : PhyState} (h : Alike sensitivity masks s s')
    (message : ControlMessage) :
    Alike sensitivity masks (handleControl sensitivity s message)
      (handleControl sensitivity s' message) := by
  unfold Phy.handleControl
  simp only
  split
  · split
    · exact h
    · next add _ =>
        unfold addAntenna
        obtain ⟨⟨hconfig, hfoi, hbandwidth, hantennas⟩, htwin⟩ := h
        have hmonitor : ∀ fs bw, s'.makeMonitor sensitivity fs bw = s.makeMonitor sensitivity fs bw := by
          intro fs bw
          unfold PhyState.makeMonitor
          rw [hconfig]
        apply Alike.initializeMonitor
        simp only [hmonitor, hantennas]
        exact ⟨⟨hconfig, rfl, rfl, rfl⟩, htwin⟩
  · split
    · split
      · exact h
      · obtain ⟨⟨hconfig, hfoi, hbandwidth, hantennas⟩, htwin⟩ := h
        refine ⟨⟨hconfig, hfoi, hbandwidth, ?_⟩, htwin⟩
        simp only [removeAntenna, hantennas]
    · exact h

theorem Alike.foldl {messages : List ControlMessage} {s s' : PhyState}
    (h : Alike sensitivity masks s s') :
    Alike sensitivity masks (messages.foldl (Phy.handleControl sensitivity) s)
      (messages.foldl (Phy.handleControl sensitivity) s') := by
  induction messages generalizing s s' with
  | nil => exact h
  | cons message messages ih => exact ih (h.handleControl message)

/-- **One event** happens in both of two alike states and leaves them alike. -/
theorem Alike.step {s s' : PhyState} (h : Alike sensitivity masks s s') (event : Event) :
    Option.Rel (Alike sensitivity masks) (step sensitivity masks s event)
      (Phy.step sensitivity masks s' event) := by
  cases event with
  | receive antenna msg => exact h.record antenna msg
  | downstream messages =>
      refine .some ?_
      unfold builtinDownstream
      split
      · exact h
      · apply Alike.foldl
        split
        · exact h
        · obtain ⟨⟨hconfig, hfoi, hbandwidth, hantennas⟩, htwin⟩ := h
          exact Alike.initializeMonitor ⟨⟨hconfig, rfl, rfl, hantennas⟩, htwin⟩

/-- **Alike states cannot be told apart.** -/
theorem Alike.undisturbed {s s' : PhyState} (h : Alike sensitivity masks s s') :
    Undisturbed sensitivity masks s s' := by
  intro events
  have hrun := runSteps_rel (fun s s' event h => Alike.step h event) events h
  generalize runSteps (Phy.step sensitivity masks) s events = x,
    runSteps (Phy.step sensitivity masks) s' events = x' at hrun ⊢
  cases hrun with
  | none => exact .none
  | some h₁ => exact .some h₁.sameAnswers

/-! ## Reached states -/

theorem inTune_initializeMonitor (s : PhyState) :
    InTune sensitivity masks (s.initializeMonitor sensitivity) :=
  ⟨rfl, sane_initializeMonitor masks _ _⟩

theorem InTune.of_layout {s s' : PhyState} (h : InTune sensitivity masks s)
    (hlayout : SameLayout sensitivity s s') (hmonitor : s'.monitor = s.monitor) :
    InTune sensitivity masks s' := by
  refine ⟨?_, ?_⟩
  · rw [hmonitor, hlayout.config, hlayout.foi, hlayout.bandwidth]
    exact h.config
  · rw [hmonitor]
    exact h.sane

theorem InTune.record {s s' : PhyState} (h : InTune sensitivity masks s) {antenna : Option UInt16}
    {msg : Message} (hs : s.record masks antenna msg = some s') : InTune sensitivity masks s' := by
  unfold PhyState.record at hs
  cases antenna with
  | none =>
      obtain ⟨⟨monitor, report⟩, hupdate, rfl⟩ := Option.map_eq_some_iff.mp hs
      exact ⟨(update_frame hupdate).1.trans h.config, h.sane.update hupdate⟩
  | some index =>
      simp only at hs
      split at hs
      · cases hs
        exact h
      · obtain ⟨x, -, rfl⟩ := Option.map_eq_some_iff.mp hs
        exact ⟨h.config, h.sane⟩

theorem InTune.handleControl {s : PhyState} (h : InTune sensitivity masks s)
    (message : ControlMessage) : InTune sensitivity masks (handleControl sensitivity s message) := by
  unfold Phy.handleControl
  simp only
  split
  · split
    · exact h
    · exact inTune_initializeMonitor _
  · split
    · split
      · exact h
      · exact ⟨h.config, h.sane⟩
    · exact h

theorem InTune.step {s s' : PhyState} (h : InTune sensitivity masks s) {event : Event}
    (hs : step sensitivity masks s event = some s') : InTune sensitivity masks s' := by
  cases event with
  | receive antenna msg => exact h.record hs
  | downstream messages =>
      cases hs
      unfold builtinDownstream
      split
      · exact h
      · next incoming _ =>
          have hfoldl : ∀ {messages : List ControlMessage} {s : PhyState},
              InTune sensitivity masks s →
              InTune sensitivity masks (messages.foldl (Phy.handleControl sensitivity) s) := by
            intro messages
            induction messages with
            | nil => exact fun h => h
            | cons message messages ih => exact fun h => ih (h.handleControl message)
          apply hfoldl
          split
          · exact h
          · exact inTune_initializeMonitor _

/-- A request for a running layer leaves the state as it is but for parameters without a part in the
spectrum; if it is accepted, the main monitor is then started again. -/
theorem builtinConfigure_running (p : Parsers) (sensitivity : ℕ → F64 → ℚ)
    {request : Option (List Item)} (hrunning : RunningOnly request) (s : PhyState) :
    ∃ s₁, SameLayout sensitivity s s₁ ∧ s₁.monitor = s.monitor ∧
      ((Refused p s request ∧ builtinConfigure p sensitivity s request = (s₁, false)) ∨
        builtinConfigure p sensitivity s request = (s₁.initializeMonitor sensitivity, true)) := by
  have hrunning' : ∀ items, configItems request = some items → RunningOnly (some items) := by
    intro items hitems
    rw [← configItems_eq_some hitems]
    exact hrunning
  by_cases hrefused : Refused p s request
  · obtain ⟨s₁, hs₁, rfl | ⟨items, hitems, rfl⟩⟩ := builtinConfigure_of_refused hrefused sensitivity
    · exact ⟨s₁, SameLayout.refl s₁, rfl, .inl ⟨hrefused, hs₁⟩⟩
    · obtain ⟨hlayout, hmonitor⟩ := applyItems_frame (hrunning' items hitems) s
      exact ⟨_, hlayout, hmonitor, .inl ⟨hrefused, hs₁⟩⟩
  · obtain ⟨items, hitems, -, hs₁⟩ := builtinConfigure_of_not_refused hrefused sensitivity
    obtain ⟨hlayout, hmonitor⟩ := applyItems_frame (hrunning' items hitems) s
    exact ⟨_, hlayout, hmonitor, .inr hs₁⟩

theorem Reached.inTune {s : PhyState} (h : Reached p sensitivity masks s) :
    InTune sensitivity masks s := by
  induction h with
  | @configured request s h =>
      by_cases hrefused : Refused p PhyState.new request
      · obtain ⟨s', hs', -⟩ := builtinConfigure_of_refused hrefused sensitivity
        rw [hs'] at h
        cases h
      · obtain ⟨items, -, -, hs'⟩ := builtinConfigure_of_not_refused hrefused sensitivity
        rw [hs'] at h
        cases h
        exact inTune_initializeMonitor _
  | event _ h ih => exact ih.step h
  | @reconfigured s request _ h ih =>
      obtain ⟨s₁, hlayout, hmonitor, ⟨-, hs₁⟩ | hs₁⟩ :=
        builtinConfigure_running p sensitivity h s
      · rw [hs₁]
        exact ih.of_layout hlayout hmonitor
      · rw [hs₁]
        exact inTune_initializeMonitor _

/-- **A request for a running layer** cannot be noticed in the spectrum if it is refused or if the
recorders of the main monitor are as its last initialization left them. -/
theorem reconfiguration_undisturbed {s : PhyState} (hs : Reached p sensitivity masks s)
    {request : Option (List Item)} (hrunning : RunningOnly request)
    (h : Refused p s request ∨ s.monitor.noiseRecorderMap = initialRecorders s.monitor.config) :
    Undisturbed sensitivity masks s (builtinConfigure p sensitivity s request).1 := by
  apply Alike.undisturbed
  have htune := hs.inTune
  obtain ⟨s₁, hlayout, hmonitor, ⟨-, hs₁⟩ | hs₁⟩ :=
    builtinConfigure_running p sensitivity hrunning s
  · rw [hs₁]
    refine ⟨hlayout, ?_⟩
    rw [hmonitor]
    exact ⟨⟨_, rfl⟩, htune.sane, htune.sane⟩
  · have hempty : s.monitor.noiseRecorderMap = initialRecorders s.monitor.config := by
      rcases h with hrefused | hempty
      · obtain ⟨s', hs', -⟩ := builtinConfigure_of_refused hrefused sensitivity
        rw [hs'] at hs₁
        cases hs₁
      · exact hempty
    rw [hs₁]
    refine ⟨⟨hlayout.config, hlayout.foi, hlayout.bandwidth, hlayout.antennas⟩, ?_⟩
    -- the arguments are those of the last initialization
    have hagain : (s₁.initializeMonitor sensitivity).monitor =
        s.monitor.initializeMonitor s.monitor.config := by
      unfold PhyState.initializeMonitor
      rw [hmonitor, hlayout.config, hlayout.foi, hlayout.bandwidth, htune.config]
    rw [hagain]
    exact htune.sane.reinitialize hempty

end

/-! ## A layer with one frequency -/

/-- The numbers of the requests below. -/
def decimals : String → Option ℕ
  | "10" => some 10
  | "100" => some 100
  | "1000" => some 1000
  | _ => none

def decimalParsers : Parsers :=
  { f64 := fun _ => none
    unsigned := fun _ => decimals
    scaledU64 := decimals }

/-- A sensitivity that does not depend on the receiver. -/
def flatSensitivity : ℕ → F64 → ℚ := fun _ _ => 1 / 1000

/-- A layer with bins of `10` microseconds for segments of at most `100`. -/
def smallRequest : Option (List Item) :=
  some [⟨"frequencyofinterest", ["1000"]⟩, ⟨"bandwidth", ["100"]⟩, ⟨"noisebinsize", ["10"]⟩,
    ⟨"noisemaxsegmentoffset", ["10"]⟩, ⟨"noisemaxmessagepropagation", ["10"]⟩,
    ⟨"noisemaxsegmentduration", ["100"]⟩]

def smallLayer : PhyState :=
  (builtinConfigure decimalParsers flatSensitivity PhyState.new smallRequest).1

/-- The layer after a reception of one milliwatt from `1000` to `1020`. -/
def noisyLayer : PhyState :=
  (smallLayer.record oneMask none (messageAt 1000 1000 100 0)).getD smallLayer

/-- A request that turns the transmitter off. -/
def silenceRequest : Option (List Item) := some [⟨"radiosilenceenable", ["true"]⟩]

theorem reached_smallLayer : Reached decimalParsers flatSensitivity oneMask smallLayer := by
  have haccepted : (builtinConfigure decimalParsers flatSensitivity PhyState.new smallRequest).2 = true := by
    decide +kernel
  exact .configured (Prod.ext rfl haccepted)

theorem reached_noisyLayer : Reached decimalParsers flatSensitivity oneMask noisyLayer := by
  have hrecorded : (smallLayer.record oneMask none (messageAt 1000 1000 100 0)).isSome = true := by
    decide +kernel
  obtain ⟨s, hs⟩ := Option.isSome_iff_exists.mp hrecorded
  have hnoisy : noisyLayer = s := by
    unfold noisyLayer
    rw [hs]
    rfl
  have hstep : step flatSensitivity oneMask smallLayer
      (.receive none (messageAt 1000 1000 100 0)) = some noisyLayer := by
    rw [hnoisy]
    exact hs
  exact .event reached_smallLayer hstep

theorem runningOnly_silenceRequest : RunningOnly silenceRequest := by
  unfold RunningOnly silenceRequest
  decide +kernel

/-- Before the first reception the transmitter can be turned off without a trace. -/
theorem reconfiguration_undisturbed_smallLayer :
    Undisturbed flatSensitivity oneMask smallLayer
      (builtinConfigure decimalParsers flatSensitivity smallLayer silenceRequest).1 :=
  reconfiguration_undisturbed reached_smallLayer runningOnly_silenceRequest (.inr rfl)

/-- After it, turning the transmitter off empties the window of the reception. -/
theorem reconfiguration_forgets_reception :
    Reached decimalParsers flatSensitivity oneMask noisyLayer ∧ RunningOnly silenceRequest ∧
      ¬ Undisturbed flatSensitivity oneMask noisyLayer
        (builtinConfigure decimalParsers flatSensitivity noisyLayer silenceRequest).1 := by
  refine ⟨reached_noisyLayer, runningOnly_silenceRequest, ?_⟩
  intro h
  cases h [] with
  | some hanswers =>
      have hwindow := hanswers.main.request 1030 1000 20 1000
      revert hwindow
      decide +kernel

end Emane.Phy
