import Mathlib
import Emane.Lib.Bytes
import Emane.Lib.Saturating

set_option autoImplicit false

/-! # Times of the IEEE 802.11 layer

What the layer computes from its mode, its rates and the length of a packet. All times are in
microseconds. The duration of a packet is positive and fits in 63 bits (`packetDuration_pos`,
`packetDuration_lt`), so that its conversion to a signed number changes nothing.
-/

namespace Emane.Ieee80211

open Emane.Lib

/-- `DATA_RATES_KBPS` -/
def dataRatesKbps : Vector ℕ 13 :=
  #v[0, 1000, 2000, 5500, 11000, 6000, 9000, 12000, 18000, 24000, 36000, 48000, 54000]

/-- The index of a data rate; `configure` refuses 0 and what is not in the table. -/
structure RateIndex where
  index : Fin 13
  ne_zero : index ≠ 0
  deriving DecidableEq

theorem RateIndex.ne_zero_of_pos {index : ℕ} (h : 0 < index ∧ index < 13) : (⟨index, h.2⟩ : Fin 13) ≠ 0 :=
  Fin.ne_of_val_ne h.1.ne'

/-- The rate with the number `index`. -/
def RateIndex.ofIndex (index : ℕ) (h : 0 < index ∧ index < 13) : RateIndex := ⟨⟨index, h.2⟩, ne_zero_of_pos h⟩

def RateIndex.kbps (rate : RateIndex) : ℕ := dataRatesKbps[rate.index]

theorem RateIndex.kbps_ge (rate : RateIndex) : 1000 ≤ rate.kbps := by
  obtain ⟨index, hne⟩ := rate
  revert index
  decide

/-- `mode_parameters`: the slot, the interframe space and the preamble. -/
def modeParameters (mode : UInt8) : ℕ × ℕ × ℕ :=
  if mode = 1 then (9, 16, 20)
  else if mode = 2 then (20, 10, 192)
  else if mode = 3 then (20, 16, 192)
  else (9, 10, 192)

/-- `slot_size_microseconds` -/
def slotSizeMicroseconds (mode : UInt8) (distanceMeters : UInt32) : ℕ :=
  U64.saturatingAdd (modeParameters mode).1
    (U64.saturatingMul distanceMeters.toNat 1000000 / 299792458)

/-- `cts_duration` -/
def ctsDuration (mode : UInt8) (rate : RateIndex) : ℕ :=
  U64.saturatingAdd (modeParameters mode).2.2 (160000 / rate.kbps)

/-- `packet_duration` -/
def packetDuration (mode : UInt8) (length : ℕ) (rate : RateIndex) (broadcast rtsCts : Bool) : ℕ :=
  let (_, sifs, preamble) := modeParameters mode
  let acknowledgementBits := if broadcast then 0 else 112
  let data := U64.saturatingMul
    (U64.saturatingAdd (U64.saturatingMul length 8) (272 + acknowledgementBits)) 1000 / rate.kbps
  let duration :=
    if broadcast then U64.saturatingAdd preamble data
    else U64.saturatingAdd (U64.saturatingAdd (U64.saturatingMul 2 preamble) sifs) data
  let duration := if rtsCts then U64.saturatingAdd duration (2 * ctsDuration mode rate) else duration
  Max.max duration 1

/-- `dscp_to_category` -/
def dscpToCategory (dscp : UInt8) (wmm : Bool) : Fin 4 :=
  if ¬ wmm then 0
  else if 8 ≤ dscp ∧ dscp ≤ 23 then 1
  else if 32 ≤ dscp ∧ dscp ≤ 47 then 2
  else if 48 ≤ dscp ∧ dscp ≤ 63 then 3
  else 0

/-- `txop_expired` -/
def txopExpired (acquiredAt : ℤ) (txopMicroseconds : ℕ) (now : ℤ) : Bool :=
  txopMicroseconds ≠ 0 ∧ I64.saturatingAdd acquiredAt (I64.clamp txopMicroseconds) < now

/-! ## The duration of a packet -/

theorem modeParameters_le (mode : UInt8) :
    (modeParameters mode).1 ≤ 20 ∧ (modeParameters mode).2.1 ≤ 16 ∧
      (modeParameters mode).2.2 ≤ 192 := by
  unfold modeParameters
  split_ifs <;> decide

theorem ctsDuration_le (mode : UInt8) (rate : RateIndex) : ctsDuration mode rate ≤ 352 := by
  have hpreamble := (modeParameters_le mode).2.2
  have hdata : 160000 / rate.kbps ≤ 160000 / 1000 := Nat.div_le_div_left rate.kbps_ge (by decide)
  have hsum := U64.saturatingAdd_le (modeParameters mode).2.2 (160000 / rate.kbps)
  unfold ctsDuration
  omega

section

variable (mode : UInt8) (length : ℕ) (rate : RateIndex) (broadcast rtsCts : Bool)

theorem packetDuration_pos : 0 < packetDuration mode length rate broadcast rtsCts :=
  lt_max_of_lt_right Nat.one_pos

/-- The time for the bits of a packet. -/
theorem data_le (acknowledgementBits : ℕ) (hack : acknowledgementBits ≤ 112) :
    U64.saturatingMul (U64.saturatingAdd (U64.saturatingMul length 8) (272 + acknowledgementBits))
      1000 / rate.kbps ≤ length * 8 + 384 := by
  set bits := U64.saturatingAdd (U64.saturatingMul length 8) (272 + acknowledgementBits) with hbits
  have hlength := U64.saturatingMul_le length 8
  have hle : bits ≤ length * 8 + 384 := by
    have := U64.saturatingAdd_le (U64.saturatingMul length 8) (272 + acknowledgementBits)
    omega
  calc U64.saturatingMul bits 1000 / rate.kbps
      ≤ bits * 1000 / rate.kbps := Nat.div_le_div_right (U64.saturatingMul_le bits 1000)
    _ ≤ bits * 1000 / 1000 := Nat.div_le_div_left rate.kbps_ge (by decide)
    _ = bits := Nat.mul_div_cancel bits (by decide)
    _ ≤ length * 8 + 384 := hle

theorem packetDuration_le :
    packetDuration mode length rate broadcast rtsCts ≤ length * 8 + 1488 := by
  obtain ⟨-, hsifs, hpreamble⟩ := modeParameters_le mode
  have hcts := ctsDuration_le mode rate
  have hdata := data_le length rate (if broadcast then 0 else 112) (by split <;> decide)
  unfold packetDuration
  dsimp only
  generalize U64.saturatingMul (U64.saturatingAdd (U64.saturatingMul length 8)
    (272 + if broadcast then 0 else 112)) 1000 / rate.kbps = data at hdata ⊢
  generalize modeParameters mode = parameters at hsifs hpreamble ⊢
  have hair : (if broadcast then U64.saturatingAdd parameters.2.2 data
      else U64.saturatingAdd (U64.saturatingAdd (U64.saturatingMul 2 parameters.2.2) parameters.2.1)
        data) ≤ data + 400 := by
    have hone := U64.saturatingAdd_le parameters.2.2 data
    have htwice := U64.saturatingMul_le 2 parameters.2.2
    have hspace := U64.saturatingAdd_le (U64.saturatingMul 2 parameters.2.2) parameters.2.1
    have hall := U64.saturatingAdd_le
      (U64.saturatingAdd (U64.saturatingMul 2 parameters.2.2) parameters.2.1) data
    split <;> omega
  generalize (if broadcast then U64.saturatingAdd parameters.2.2 data
      else U64.saturatingAdd (U64.saturatingAdd (U64.saturatingMul 2 parameters.2.2) parameters.2.1)
        data) = duration at hair ⊢
  have hboth := U64.saturatingAdd_le duration (2 * ctsDuration mode rate)
  split <;> omega

/-- The duration of a packet that the layer accepts is a signed number. -/
theorem packetDuration_lt (hlength : length ≤ 64 * 2 ^ 20) :
    packetDuration mode length rate broadcast rtsCts < 2 ^ 63 := by
  have := packetDuration_le mode length rate broadcast rtsCts
  omega

end

end Emane.Ieee80211
