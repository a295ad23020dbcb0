import Emane.Spectrum.Monitor

set_option autoImplicit false

/-! # Requests to the spectrum monitor

`request_i` and `request_filter_i` read a window of a recorder; they end the program when the duration
exceeds the configured maximum and is not clamped, when the recorder has no window for the times
asked for, or inside the recorder. `reception_noise` answers a query of another layer and returns
nothing instead of the first two. Its noise is left in milliwatt.
-/

namespace Emane.Spectrum

open Std Emane.Noise

/-- How a request ends the program. -/
inductive RequestPanic where
  /-- `duration > max_duration` -/
  | durationTooLong
  /-- `invalid spectrum window` -/
  | invalidWindow
  /-- `Unknown filter id` -/
  | unknownFilter
  /-- a panic of the recorder -/
  | recorder
deriving DecidableEq

/-- The answer of `request_i` and `request_filter_i`; the last field of the former says whether the
signal is part of the noise, the one of the latter is the number of sub-bands. -/
structure Window (α : Type) where
  bins : List ℚ
  startTime : ℤ
  binSize : ℤ
  sensitivityMilliWatt : ℚ
  extra : α
deriving DecidableEq

/-- `NoiseRecorder::get` -/
def recorderGet (recorder : NoiseRecorder) (now duration startTime : ℤ) :
    Except RequestPanic (List ℚ × ℤ) :=
  match recorder.tryGet now duration startTime with
  | none => .error .recorder
  | some none => .error .invalidWindow
  | some (some window) => .ok window

namespace SpectrumMonitor

/-- The duration a request asks its recorder for. -/
def validDuration (m : SpectrumMonitor) (duration : ℤ) : Except RequestPanic ℤ :=
  if duration > m.config.maxDuration then
    if m.config.maxClamp then .ok m.config.maxDuration else .error .durationTooLong
  else .ok duration

/-- `SpectrumMonitor::request_i` -/
def requestI (m : SpectrumMonitor) (now : ℤ) (frequencyHz : ℕ) (duration timepoint : ℤ) :
    Except RequestPanic (Window Bool) := do
  let duration ← m.validDuration duration
  match m.noiseRecorderMap[frequencyHz]? with
  | some recorder => do
      let (bins, start) ← recorderGet recorder now duration timepoint
      return ⟨bins, start, m.config.binSize, m.config.receiverSensitivityMilliWatt,
        m.config.mode == .all⟩
  | none => return ⟨[], 0, m.config.binSize, m.config.receiverSensitivityMilliWatt, false⟩

/-- `SpectrumMonitor::request_filter_i` -/
def requestFilterI (m : SpectrumMonitor) (now : ℤ) (filterIndex : ℕ) (duration timepoint : ℤ) :
    Except RequestPanic (Window ℕ) := do
  let duration ← m.validDuration duration
  match m.filterNoiseRecorderMap[filterIndex]? with
  | some filter => do
      let (bins, start) ← recorderGet filter.recorder now duration timepoint
      return ⟨bins, start, m.config.binSize, m.config.receiverSensitivityMilliWatt,
        filter.recorder.totalSubBandBins⟩
  | none => throw .unknownFilter

/-- `SpectrumMonitor::reception_noise` for a signal of `signalMilliWatt` (`none` when its power is not
finite): the noise and whether the signal is part of it. -/
def receptionNoise (m : SpectrumMonitor) (now : ℤ) (frequencyHz : ℕ) (duration startTime : ℤ)
    (signalMilliWatt : Option ℚ) : Except RequestPanic (Option (ℚ × Bool)) :=
  match signalMilliWatt, m.noiseRecorderMap[frequencyHz]? with
  | some signal, some recorder =>
      if duration ≤ 0 ∨ duration > m.config.maxDuration then .ok none
      else
        match recorder.tryGet now duration startTime with
        | none => .error .recorder
        | some none => .ok none
        | some (some (bins, _)) =>
            let sensitivity := m.config.receiverSensitivityMilliWatt
            let maximum := bins.foldl max sensitivity
            let signalInNoise := m.config.mode == .all
            .ok (some (max (if signalInNoise then maximum - signal else maximum) sensitivity,
              signalInNoise))
  | _, _ => .ok none

end SpectrumMonitor

end Emane.Spectrum
