import Mathlib
import Emane.PluginApi.Antenna
import Emane.PluginApi.Widening

set_option autoImplicit false

/-! # The profiles of the comm effect layer

An event has effects for packets from single NEMs. The layer takes all of them or none: an effect that is
out of range makes it leave the event alone. After the first event that it takes, packets without an effect
are dropped.

A time in seconds is a single-precision number; times 1000000 it is a double-precision number, exactly, as
1000000 is 15625 times 64 and 15625 has 14 bits.
-/

namespace Emane.CommEffect

open Emane.PluginApi (F32 F64 u16TryFrom)
open Std (ExtTreeMap)

/-- `CommEffectMessage` -/
structure CommEffectMessage where
  nemId : ℕ
  latencySeconds : F32
  jitterSeconds : F32
  probabilityLoss : F32
  probabilityDuplicate : F32
  unicastBitRateBps : UInt64
  broadcastBitRateBps : UInt64
  deriving DecidableEq

/-- `Effect`, with the probabilities. -/
structure Profile where
  latencyMicroseconds : UInt64
  jitterMicroseconds : UInt64
  probabilityLoss : F32
  probabilityDuplicate : F32
  unicastBitRateBps : UInt64
  broadcastBitRateBps : UInt64
  deriving DecidableEq

/-- A number without a sign is `mantissa * 2 ^ exponent / 2 ^ 149`. -/
def mantissaExponent (x : F32) : ℕ × ℕ :=
  let exponent := x.bits.toNat / 2 ^ 23 % 2 ^ 8
  let fraction := x.bits.toNat % 2 ^ 23
  if exponent = 0 then (fraction, 0) else (2 ^ 23 + fraction, exponent - 1)

/-- `value.round() as u64` for `value = seconds * 1_000_000.0`, with halves away from zero. -/
def roundMicroseconds (seconds : F32) : ℕ :=
  let (mantissa, exponent) := mantissaExponent seconds
  (mantissa * 2 ^ exponent * 1000000 * 2 + 2 ^ 149) / 2 ^ 150

/-- `seconds_to_microseconds`; the largest number of microseconds is `u64::MAX as f64`, which is `2 ^ 64`. -/
def secondsToMicroseconds (seconds : F32) : Option UInt64 :=
  let (mantissa, exponent) := mantissaExponent seconds
  if seconds.isFinite ∧ F64.le ⟨0⟩ seconds.toF64 ∧ mantissa * 2 ^ exponent * 1000000 ≤ 2 ^ 64 * 2 ^ 149 then
    some (UInt64.ofNat (min (roundMicroseconds seconds) (2 ^ 64 - 1)))
  else none

/-- `Effect::from_message` -/
def Profile.fromMessage (message : CommEffectMessage) : Option Profile := do
  let latency ← secondsToMicroseconds message.latencySeconds
  let jitter ← secondsToMicroseconds message.jitterSeconds
  -- 0.0..=100.0 and 0.0..=65535.0
  if message.nemId ≤ 65535 ∧ message.probabilityLoss.isFinite ∧
      F64.inRange ⟨0⟩ ⟨0x4059000000000000⟩ message.probabilityLoss.toF64 ∧
      message.probabilityDuplicate.isFinite ∧
      F64.inRange ⟨0⟩ ⟨0x40efffe000000000⟩ message.probabilityDuplicate.toF64 then
    some
      { latencyMicroseconds := latency
        jitterMicroseconds := jitter
        probabilityLoss := message.probabilityLoss
        probabilityDuplicate := message.probabilityDuplicate
        unicastBitRateBps := message.unicastBitRateBps
        broadcastBitRateBps := message.broadcastBitRateBps }
  else none

/-- What the layer knows about the other NEMs. -/
structure Profiles where
  defaultConnectivity : Bool
  profiles : ExtTreeMap UInt16 Profile

namespace Profiles

/-- The body of the loop over the effects. -/
def insertEffect (profiles : ExtTreeMap UInt16 Profile) (message : CommEffectMessage) :
    ExtTreeMap UInt16 Profile :=
  if message.nemId = 0 then profiles
  else
    match Profile.fromMessage message with
    | some profile => profiles.insert (UInt16.ofNat message.nemId) profile
    | none => profiles

/-- `event` -/
def event (p : Profiles) (effects : List CommEffectMessage) : Profiles :=
  if effects.any fun message => (Profile.fromMessage message).isNone then p
  else ⟨false, effects.foldl insertEffect p.profiles⟩

end Profiles

/-- 1.5 seconds, and a little more than half a microsecond. -/
example : (secondsToMicroseconds ⟨0x3fc00000⟩, secondsToMicroseconds ⟨0x350637be⟩) =
    (some 1500000, some 1) := by decide +kernel

end Emane.CommEffect
