import Mathlib
import Emane.BentPipe.Drive

set_option autoImplicit false

/-! # Configuration, start and stop of the BentPipe layer

`configure` applies its items in order and stops at the first one it refuses; what was applied before
stays. While the layer runs, the framework passes only updates of parameters that are declared
modifiable, and `configure` neither adds a transponder nor an antenna.

A `Mac.run` is what the layer does from then on: callbacks in any order, with wakeups that may be out
of date, updates of the configuration, stops and starts.
-/

namespace Emane.BentPipe

open Emane.Lib
open Std (ExtTreeMap)

/-! ## Parameters -/

/-- A parsed value of a transponder parameter. `none` is the value `na`, which leaves the field as it
is; the parameters of fields that are not modelled carry no value. -/
inductive Setting
  | receiveFrequency
  | receiveBandwidth
  | receiveAntenna (index : UInt16)
  | receiveAction (action : ReceiveAction)
  | receiveEnable (enable : Bool)
  | pcrCurveIndex (index : ℕ)
  | transmitFrequency
  | transmitBandwidth
  | dataRate (rate : UInt64)
  | mtu (bytes : Option ℕ)
  | transmitAntenna (index : UInt16)
  | power
  | ubendDelay (delay : Option ℕ)
  | slotPerFrame (slots : Option ℕ)
  | slotSize (size : Option ℕ)
  | txSlots (slots : List ℕ)
  | tosMap (tos : Option (List UInt8))
  | transmitEnable (enable : Bool)

namespace Setting

def apply (t : FullTransponder) : Setting → FullTransponder
  | receiveFrequency | receiveBandwidth | transmitFrequency | transmitBandwidth | power => t
  | receiveAntenna index => { t with receiveAntennaIndex := index }
  | receiveAction action => { t with receiveAction := action }
  | receiveEnable enable => { t with receiveEnable := enable }
  | pcrCurveIndex index => { t with curveIndex := index }
  | dataRate rate => { t with transmitDataRateBps := rate.toNat, rate_lt := rate.toNat_lt }
  | mtu bytes => { t with transmitMtuBytes := bytes.getD t.transmitMtuBytes }
  | transmitAntenna index => { t with transmitAntennaIndex := index }
  | ubendDelay delay => { t with transmitDelayUs := delay.getD t.transmitDelayUs }
  | slotPerFrame slots => { t with transmitSlotsPerFrame := slots.getD t.transmitSlotsPerFrame }
  | slotSize size => { t with transmitSlotSizeUs := size.getD t.transmitSlotSizeUs }
  | txSlots slots => { t with transmitSlots := slots }
  | tosMap none => { t with allTos := true }
  | tosMap (some tos) => { t with tos := tos }
  | transmitEnable enable => { t with transmitEnable := enable }

/-- The transponder parameters of `component_modifiable_parameters`. -/
def modifiable : Setting → Bool
  | receiveFrequency | receiveEnable _ | pcrCurveIndex _ | transmitFrequency | ubendDelay _ | dataRate _
  | power | slotPerFrame _ | slotSize _ | txSlots _ | mtu _ | transmitEnable _ => true
  | receiveBandwidth | receiveAntenna _ | receiveAction _ | transmitBandwidth | transmitAntenna _
  | tosMap _ => false

end Setting

/-- A value of a transponder parameter: `none` has no index, `some (i, none)` does not parse. -/
abbrev Entry := Option (UInt16 × Option Setting)

/-- A parameter of a request with its values, `none` where a value is missing or does not parse. -/
inductive Item
  | pcrCurveUri (given : Bool)
  | queueDepth (depth : Option ℕ)
  | fragmentationEnable (enable : Option Bool)
  | aggregationEnable (enable : Option Bool)
  | antennaDefines (indices : List (Option UInt16))
  | fragmentCheckThreshold (seconds : Option ℕ)
  | fragmentTimeoutThreshold (seconds : Option ℕ)
  | transponder (entries : List Entry)

/-- What the framework lets through while the layer runs. -/
def Item.modifiable : Item → Bool
  | antennaDefines _ => true
  | transponder entries => entries.all fun entry =>
      entry.all fun value => value.2.all Setting.modifiable
  | _ => false

/-! ## Configure -/

/-- The antennas after the definitions of a request. While the layer runs, only antennas it `known`
before can be redefined; before that no antenna can be defined twice. -/
def defineAntennas (started : Bool) (known : List UInt16) :
    List UInt16 → List (Option UInt16) → Option (List UInt16)
  | antennas, [] => some antennas
  | _, none :: _ => none
  | antennas, some index :: rest =>
      if started && !known.contains index then none
      else if !started && antennas.contains index then none
      else defineAntennas started known (antennas.insert index) rest

namespace Mac

/-- The loop over the values of a transponder parameter. -/
def configureEntries : Mac → List Entry → Mac × Bool
  | mac, [] => (mac, true)
  | mac, none :: _ => (mac, false)
  | mac, some (index, value) :: rest =>
      if mac.started && !mac.transponders.contains index then (mac, false)
      else
        let t := mac.transponders.getD index default
        match value with
        | none => ({ mac with transponders := mac.transponders.insert index t }, false)
        | some setting =>
            configureEntries
              { mac with transponders := mac.transponders.insert index (setting.apply t) } rest

def configureItem (mac : Mac) : Item → Mac × Bool
  | .pcrCurveUri given => (mac, given)
  | .queueDepth (some depth) =>
      if depth > 65535 then (mac, false) else ({ mac with queueDepth := depth }, true)
  | .queueDepth none => (mac, false)
  | .fragmentationEnable (some enable) => ({ mac with fragmentationEnable := enable }, true)
  | .fragmentationEnable none => (mac, false)
  | .aggregationEnable (some enable) => ({ mac with aggregationEnable := enable }, true)
  | .aggregationEnable none => (mac, false)
  | .antennaDefines indices =>
      match defineAntennas mac.started mac.antennas (if mac.started then mac.antennas else [])
          indices with
      | some antennas => ({ mac with antennas := antennas }, true)
      | none => (mac, false)
  | .fragmentCheckThreshold seconds => (mac, seconds.isSome)
  | .fragmentTimeoutThreshold (some seconds) =>
      ({ mac with fragmentTimeoutUs := seconds * 1000000 }, true)
  | .fragmentTimeoutThreshold none => (mac, false)
  | .transponder entries => mac.configureEntries entries

def configureItems : Mac → List Item → Mac × Bool
  | mac, [] => (mac, true)
  | mac, item :: rest =>
      let r := mac.configureItem item
      if r.2 then configureItems r.1 rest else (r.1, false)

end Mac

/-- The check of a transponder in `start`, and in `configure` while the layer runs. -/
def FullTransponder.acceptable (t : FullTransponder) (antennas : List UInt16) : Bool :=
  t.receiveAction ≠ .unknown && t.transmitDataRateBps ≠ 0 && effectiveMtu t.toTransponder ≠ 0 &&
    antennas.contains t.receiveAntennaIndex && antennas.contains t.transmitAntennaIndex &&
    (!(t.transmitSlotsPerFrame ≠ 0 || t.transmitSlotSizeUs ≠ 0 || !t.transmitSlots.isEmpty) ||
      t.slotted) &&
    t.transmitSlots.all fun slot => slot < t.transmitSlotsPerFrame

namespace Mac

/-- Every transponder passes the check. -/
def acceptable (mac : Mac) : Bool :=
  mac.transponders.toList.all fun entry => entry.2.acceptable mac.antennas

/-- `configure`; `receiveSide` is the outcome of the checks of fields that are not modelled. -/
def configure (mac : Mac) (receiveSide : Bool) (items : List Item) : Mac × Bool :=
  let r := mac.configureItems items
  (r.1, r.2 && (!r.1.started || receiveSide && r.1.acceptable))

/-! ## Start and stop -/

/-- `start` -/
def start (mac : Mac) (receiveSide : Bool) : Mac × Bool :=
  if mac.antennas.isEmpty || mac.transponders.isEmpty || !receiveSide || !mac.acceptable then
    (mac, false)
  else ({ mac with started := true }, true)

/-- `stop`: the timers are cancelled; the end of the last transmissions stays. -/
def stop (mac : Mac) : Mac :=
  { mac with
    started := false, queues := fun _ => [], reassembly := fun _ => none, receiveEnd := fun _ => none
    wakeups := .idle }

/-- A layer that was not started, or that was stopped, before anything was sent. -/
structure Stopped (mac : Mac) : Prop where
  started : mac.started = false
  queues : ∀ index, mac.queues index = []
  wakeups : mac.wakeups = .idle
  sent : mac.sent = []

end Mac

/-! ## Runs -/

/-- What can happen to the layer, with the readings of the clock that are made. -/
inductive Event
  | downstream (priority : UInt8) (info : FfiPacketInfo) (payload : Bytes)
      (now startOfTransmission : ℤ)
  | upstream (reception : Reception)
  | timed (index : UInt16) (expected now startOfTransmission : ℤ)
  | check (now : ℤ)
  | configure (receiveSide : Bool) (items : List Item)
  | start (receiveSide : Bool)
  | stop

namespace Mac

variable (encodedLen : BentPipeMessage → ℕ)

def step (mac : Mac) : Event → Mac
  | .downstream priority info payload now startOfTransmission =>
      mac.downstream encodedLen priority info payload now startOfTransmission
  | .upstream reception => mac.upstream encodedLen reception
  | .timed index expected now startOfTransmission =>
      mac.timed encodedLen index expected now startOfTransmission
  | .check now => mac.check now
  | .configure receiveSide items =>
      if items.all Item.modifiable then (mac.configure receiveSide items).1 else mac
  | .start receiveSide => (mac.start receiveSide).1
  | .stop => mac.stop

def run (mac : Mac) (events : List Event) : Mac := events.foldl (step encodedLen) mac

end Mac

/-! ## What an accepted configuration gives -/

section

variable {mac : Mac} {receiveSide : Bool}

theorem Mac.start_eq (h : (mac.start receiveSide).2 = true) :
    (mac.start receiveSide).1 = { mac with started := true } ∧ mac.acceptable = true := by
  unfold Mac.start at h ⊢
  split at h
  · cases h
  · next hcond =>
      rw [if_neg hcond]
      refine ⟨rfl, ?_⟩
      by_contra hnot
      exact hcond (by simp [hnot])

theorem Mac.acceptable_of_getElem? (h : mac.acceptable = true) {index : UInt16} {t : FullTransponder}
    (ht : mac.transponders[index]? = some t) : t.acceptable mac.antennas = true := by
  have hmem := ExtTreeMap.mem_toList_iff_getElem?_eq_some.mpr ht
  exact List.all_eq_true.mp h _ hmem

variable {t : FullTransponder} {antennas : List UInt16}

theorem FullTransponder.acceptable_antenna (h : t.acceptable antennas = true) :
    t.transmitAntennaIndex ∈ antennas := by
  simp only [acceptable, Bool.and_eq_true, List.contains_iff_mem] at h
  exact h.1.1.2

theorem FullTransponder.acceptable_rate (h : t.acceptable antennas = true) :
    t.transmitDataRateBps ≠ 0 := by
  simp only [acceptable, Bool.and_eq_true, decide_eq_true_eq] at h
  exact h.1.1.1.1.1.2

end

/-! ## A layer with one transponder -/

/-- Two slots of 10 microseconds in a frame, and a byte in a microsecond. -/
def slotTransponder (action : ReceiveAction) (slots : List ℕ) : FullTransponder where
  transmitEnable := true
  transmitMtuBytes := 0
  transmitSlotSizeUs := 10
  transmitDataRateBps := 8000000
  receiveAntennaIndex := 0
  receiveAction := action
  receiveEnable := true
  curveIndex := 1
  transmitAntennaIndex := 0
  transmitDelayUs := 0
  transmitSlotsPerFrame := 2
  transmitSlots := slots
  tos := []
  allTos := true
  rate_lt := by decide

/-- The transponder has index 3. -/
def slotMac (action : ReceiveAction) (slots : List ℕ) : Mac where
  id := 1
  transponders := (∅ : ExtTreeMap UInt16 FullTransponder).insert 3 (slotTransponder action slots)
  antennas := [0]
  queueDepth := 256
  aggregationEnable := true
  fragmentationEnable := true
  fragmentTimeoutUs := 5000000
  packetSequence := 0
  queues := fun _ => []
  frameSequence := 0
  currentEot := fun _ => none
  receiveEnd := fun _ => none
  wakeups := .idle
  reassembly := fun _ => none
  started := false
  sent := []

theorem slotMac_transponder (action : ReceiveAction) (slots : List ℕ) :
    (slotMac action slots).transponders[(3 : UInt16)]? = some (slotTransponder action slots) :=
  ExtTreeMap.getElem?_insert_self

theorem slotMac_stopped (action : ReceiveAction) (slots : List ℕ) : (slotMac action slots).Stopped :=
  ⟨rfl, fun _ => rfl, rfl, rfl⟩

end Emane.BentPipe
