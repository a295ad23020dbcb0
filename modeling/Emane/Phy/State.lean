import Emane.PluginApi.MimoTx
import Emane.Spectrum.OverlapCache

set_option autoImplicit false

/-! # The state of the physical layer

`PhyState` of `nem_manager.rs` with its monitors: the main one, which covers the frequencies of
interest, and one for each receive antenna, which covers the frequencies of that antenna. Numbers the
monitors compute with are kept as the monitor model has them; all other doubles are kept by their
bits. The tables and counters of the statistics, the pathloss table and the fading algorithms'
states are left out.

The sensitivity of a receiver is `10^((-174 + 10 log10 bandwidth + noise figure) / 10)` milliwatt in
double arithmetic; it enters as a function `sensitivity` of the bandwidth and the noise figure.
-/

namespace Emane.Phy

open Std Emane.Lib Emane.PluginApi Emane.Spectrum

inductive PropagationModel where
  | precomputed
  | freeSpace
  | twoRay
deriving DecidableEq

inductive FadingMode where
  | none
  | event
  | nakagami
  | lognormal
deriving DecidableEq

structure NakagamiParameters where
  distance0Meters : F64
  distance1Meters : F64
  m0 : F64
  m1 : F64
  m2 : F64
deriving DecidableEq

structure LognormalFadingParameters where
  dmu : F64
  dsigma : F64
  dlthresh : F64
  maxpathloss : F64
  duthresh : F64
  minpathloss : F64
  lmean : F64
  lstddev : F64
  counter : UInt32
deriving DecidableEq

structure Velocity where
  azimuthDegrees : F64
  elevationDegrees : F64
  magnitudeMetersPerSecond : F64
deriving DecidableEq

structure Orientation where
  rollDegrees : F64
  pitchDegrees : F64
  yawDegrees : F64
deriving DecidableEq

/-- `Orientation::default` -/
def Orientation.default : Orientation := ⟨⟨0⟩, ⟨0⟩, ⟨0⟩⟩

structure Location where
  latitudeDegrees : F64
  longitudeDegrees : F64
  altitudeMeters : F64
  velocity : Option Velocity
  orientation : Orientation
deriving DecidableEq

structure AntennaProfileSelection where
  profileId : UInt16
  azimuthDegrees : F64
  elevationDegrees : F64
deriving DecidableEq

structure ReceiveAntennaState where
  antenna : MimoTxAntenna
  frequenciesHz : List ℕ
  monitor : SpectrumMonitor

/-- `PhyState` -/
structure PhyState where
  compatibilityMode : ℕ
  processingPoolSize : ℕ
  receivePowerTableEnabled : Bool
  observedPowerTableEnabled : Bool
  rxSensitivityPromiscuousModeEnabled : Bool
  gainCache : ExtTreeMap (List UInt64) (F64 × F64)
  frequencyHz : ℕ
  frequenciesOfInterest : List ℕ
  bandwidthHz : ℕ
  txPowerDbm : F64
  fixedAntennaGainDb : F64
  fixedAntennaGainEnabled : Bool
  propagationModel : PropagationModel
  locations : ExtTreeMap UInt16 Location
  antennaProfiles : ExtTreeMap UInt16 AntennaProfileSelection
  fadingMode : FadingMode
  nakagamiParameters : NakagamiParameters
  lognormalParameters : LognormalFadingParameters
  dopplerShiftEnabled : Bool
  spectralMaskIndex : ℕ
  radioSilenceEnabled : Bool
  excludeSameSubIdFromFilter : Bool
  subId : ℕ
  noiseMode : NoiseMode
  noiseBinSize : ℤ
  maxSegmentOffset : ℤ
  maxMessagePropagation : ℤ
  maxSegmentDuration : ℤ
  timeSyncThreshold : ℤ
  noiseMaxClamp : Bool
  systemNoiseFigureDb : F64
  monitor : SpectrumMonitor
  receiveAntennas : ExtTreeMap UInt16 ReceiveAntennaState

namespace PhyState

/-- `PhyState::new` -/
def new : PhyState :=
  { compatibilityMode := 1
    processingPoolSize := 0
    receivePowerTableEnabled := true
    observedPowerTableEnabled := true
    rxSensitivityPromiscuousModeEnabled := false
    gainCache := ∅
    frequencyHz := 2347000000
    frequenciesOfInterest := [2347000000]
    bandwidthHz := 1000000
    txPowerDbm := ⟨0⟩
    fixedAntennaGainDb := ⟨0⟩
    fixedAntennaGainEnabled := true
    propagationModel := .precomputed
    locations := ∅
    antennaProfiles := ∅
    fadingMode := .none
    -- 100.0, 250.0, 0.75, 1.0, 200.0
    nakagamiParameters := ⟨⟨0x4059000000000000⟩, ⟨0x406f400000000000⟩, ⟨0x3fe8000000000000⟩,
      ⟨0x3ff0000000000000⟩, ⟨0x4069000000000000⟩⟩
    -- 5.0, 1.0, 0.25, 100.0, 0.75, 0.0, 0.005, 0.001
    lognormalParameters := ⟨⟨0x4014000000000000⟩, ⟨0x3ff0000000000000⟩, ⟨0x3fd0000000000000⟩,
      ⟨0x4059000000000000⟩, ⟨0x3fe8000000000000⟩, ⟨0⟩, ⟨0x3f747ae147ae147b⟩,
      ⟨0x3f50624dd2f1a9fc⟩, 1⟩
    dopplerShiftEnabled := true
    spectralMaskIndex := 0
    radioSilenceEnabled := false
    excludeSameSubIdFromFilter := true
    subId := 1
    noiseMode := .all
    noiseBinSize := 20
    maxSegmentOffset := 300000
    maxMessagePropagation := 200000
    maxSegmentDuration := 1000000
    timeSyncThreshold := 10000
    noiseMaxClamp := false
    -- 4.0
    systemNoiseFigureDb := ⟨0x4010000000000000⟩
    monitor := SpectrumMonitor.new
    receiveAntennas := ∅ }

/-! ## The monitors -/

section

variable (sensitivity : ℕ → F64 → ℚ)

/-- The arguments of `SpectrumMonitor::initialize` for a list of frequencies and a bandwidth; the
others come from the state. -/
def monitorConfig (s : PhyState) (frequenciesHz : List ℕ) (bandwidthHz : ℕ) : Config :=
  { subId := s.subId
    foi := frequenciesHz
    bandwidthHz := bandwidthHz
    receiverSensitivityMilliWatt := sensitivity bandwidthHz s.systemNoiseFigureDb
    mode := s.noiseMode
    binSize := s.noiseBinSize
    maxOffset := s.maxSegmentOffset
    maxPropagation := s.maxMessagePropagation
    maxDuration := s.maxSegmentDuration
    timeSyncThreshold := s.timeSyncThreshold
    maxClamp := s.noiseMaxClamp
    excludeSameSubIdFromFilter := s.excludeSameSubIdFromFilter }

/-- `initialize_monitor`: the main monitor starts again with the frequencies of interest. -/
def initializeMonitor (s : PhyState) : PhyState :=
  { s with
    monitor := s.monitor.initializeMonitor
      (s.monitorConfig sensitivity s.frequenciesOfInterest s.bandwidthHz) }

/-- `make_monitor` -/
def makeMonitor (s : PhyState) (frequenciesHz : List ℕ) (bandwidthHz : ℕ) : SpectrumMonitor :=
  SpectrumMonitor.new.initializeMonitor (s.monitorConfig sensitivity frequenciesHz bandwidthHz)

end

/-- The update of one monitor during a reception: the main monitor's, or the one of a receive
antenna. A reception makes one such call for the main monitor and one for each receive antenna and
transmit antenna. `none` is a panic of the monitor. -/
def record (masks : Masks) (s : PhyState) (antenna : Option UInt16) (msg : Message) :
    Option PhyState :=
  match antenna with
  | none => (s.monitor.update masks msg).map fun (monitor, _) => { s with monitor }
  | some index =>
      match s.receiveAntennas[index]? with
      | none => some s
      | some entry => (entry.monitor.update masks msg).map fun (monitor, _) =>
          { s with receiveAntennas := s.receiveAntennas.insert index { entry with monitor } }

end PhyState

end Emane.Phy
