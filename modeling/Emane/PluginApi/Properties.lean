import Emane.PluginApi.Tables

/-!
# Packets, headers and transmit properties of the plugin interface

Controls of one fixed length: a version byte and numbers at fixed offsets. The decoder of a model header
also takes a longer payload and ignores what it has behind the header.
-/

set_option autoImplicit false

namespace Emane.PluginApi

open Emane.Lib

/-! ## Packets -/

/-- The addresses and the priority of a packet. The time at which it was created is only passed on. -/
structure FfiPacketInfo where
  source : UInt16
  destination : UInt16
  priority : UInt8
  deriving DecidableEq

/-! ## Model headers -/

structure ModelHeader where
  registrationId : UInt16
  sequence : UInt64
  dataRateBps : UInt64
  category : UInt8
  messageType : UInt8
  flags : UInt16
  deriving DecidableEq

/-- `ModelHeader::encode`; the last byte is not used. -/
def ModelHeader.encode (self : ModelHeader) : Bytes :=
  [propertiesVersion] ++ toBeBytes self.registrationId ++ toBeBytes self.sequence ++
    toBeBytes self.dataRateBps ++ [self.category] ++ [self.messageType] ++ toBeBytes self.flags ++ [0]

/-- `ModelHeader::decode` -/
def ModelHeader.decode (data : Bytes) : Except Fault ModelHeader := do
  if data.length < 24 then .error .rejected else
  if (← indexByte data 0) ≠ propertiesVersion then .error .rejected else
  return {
    registrationId := ← getU16 data 1
    sequence := ← getU64 data 3
    dataRateBps := ← getU64 data 11
    category := ← indexByte data 19
    messageType := ← indexByte data 20
    flags := ← getU16 data 21 }

/-- `ModelHeader::ENCODED_LEN` -/
@[simp]
theorem ModelHeader.length_encode (self : ModelHeader) : self.encode.length = 24 := rfl

theorem ModelHeader.decode_encode (self : ModelHeader) : decode self.encode = .ok self := by
  have hstands := standsAt_self self.encode
  nth_rewrite 2 [encode] at hstands
  simp only [standsAt_append, List.length_append, List.length_singleton, BigEndian.length_toBeBytes,
    width_uint16, width_uint64, Nat.zero_add, Nat.reduceAdd] at hstands
  obtain ⟨⟨⟨⟨⟨⟨⟨hversion, hid⟩, hsequence⟩, hrate⟩, hcategory⟩, htype⟩, hflags⟩, -⟩ := hstands
  unfold decode getU16 getU64
  rw [if_neg (by rw [length_encode]; decide), indexByte_eq hversion, ok_bind, if_neg (by simp),
    getBe_eq hid, getBe_eq hsequence, getBe_eq hrate, indexByte_eq hcategory, indexByte_eq htype,
    getBe_eq hflags]
  rfl

theorem ModelHeader.meets_decode (data : Bytes) : Meets (decode data) (fun _ => True) := by
  unfold decode getU16 getU64
  refine meets_guard fun hlength => ?_
  refine meets_bind (meets_indexByte (by omega)) fun _ _ => ?_
  refine meets_guard fun _ => ?_
  repeat
    refine meets_getBe_bind ?_ fun _ => ?_
    · simp only [width_uint16, width_uint64]
      omega
  refine meets_bind (meets_indexByte (by omega)) fun _ _ => ?_
  refine meets_bind (meets_indexByte (by omega)) fun _ _ => ?_
  refine meets_getBe_bind ?_ fun _ => trivial
  rw [width_uint16]
  omega

/-! ## Transmit properties -/

structure TxProperties where
  frequencyHz : UInt64
  bandwidthHz : UInt64
  txPowerDbm : F64
  durationMicroseconds : UInt64
  offsetMicroseconds : UInt64
  txTimeMicroseconds : Int64
  antennaIndex : UInt16
  spectralMaskIndex : UInt16
  subId : UInt16
  deriving DecidableEq

/-- `TxProperties::encode` -/
def TxProperties.encode (self : TxProperties) : Bytes :=
  [propertiesVersion] ++ toBeBytes self.frequencyHz ++ toBeBytes self.bandwidthHz ++
    toBeBytes self.txPowerDbm.bits ++ toBeBytes self.durationMicroseconds ++
    toBeBytes self.offsetMicroseconds ++ toBeBytes self.txTimeMicroseconds.toUInt64 ++
    toBeBytes self.antennaIndex ++ toBeBytes self.spectralMaskIndex ++ toBeBytes self.subId

/-- `TxProperties::decode` -/
def TxProperties.decode (data : Bytes) : Except Fault TxProperties := do
  if data.length ≠ 55 then .error .rejected else
  if (← indexByte data 0) ≠ propertiesVersion then .error .rejected else
  return {
    frequencyHz := ← getU64 data 1
    bandwidthHz := ← getU64 data 9
    txPowerDbm := ⟨← getU64 data 17⟩
    durationMicroseconds := ← getU64 data 25
    offsetMicroseconds := ← getU64 data 33
    txTimeMicroseconds := (← getU64 data 41).toInt64
    antennaIndex := ← getU16 data 49
    spectralMaskIndex := ← getU16 data 51
    subId := ← getU16 data 53 }

/-- `TxProperties::ENCODED_LEN` -/
@[simp]
theorem TxProperties.length_encode (self : TxProperties) : self.encode.length = 55 := rfl

theorem TxProperties.decode_encode (self : TxProperties) : decode self.encode = .ok self := by
  have hstands := standsAt_self self.encode
  nth_rewrite 2 [encode] at hstands
  simp only [standsAt_append, List.length_append, List.length_singleton, BigEndian.length_toBeBytes,
    width_uint16, width_uint64, Nat.zero_add, Nat.reduceAdd] at hstands
  obtain ⟨⟨⟨⟨⟨⟨⟨⟨⟨hversion, hfrequency⟩, hbandwidth⟩, hpower⟩, hduration⟩, hoffset⟩, htime⟩, hantenna⟩,
    hmask⟩, hsub⟩ := hstands
  unfold decode getU16 getU64
  rw [if_neg (by rw [length_encode]; decide), indexByte_eq hversion, ok_bind, if_neg (by simp),
    getBe_eq hfrequency, getBe_eq hbandwidth, getBe_eq hpower, getBe_eq hduration, getBe_eq hoffset,
    getBe_eq htime, getBe_eq hantenna, getBe_eq hmask, getBe_eq hsub]
  simp only [ok_bind, Int64.toInt64_toUInt64]
  rfl

theorem TxProperties.meets_decode (data : Bytes) : Meets (decode data) (fun _ => True) := by
  unfold decode getU16 getU64
  refine meets_guard fun hlength => ?_
  refine meets_bind (meets_indexByte (by omega)) fun _ _ => ?_
  refine meets_guard fun _ => ?_
  repeat
    refine meets_getBe_bind ?_ fun _ => ?_
    · simp only [width_uint16, width_uint64]
      omega
  trivial

/-! ## Headers of the effects shim -/

structure CommEffectHeader where
  groupId : UInt32
  sequence : UInt32
  txTimeMicroseconds : Int64
  deriving DecidableEq

/-- `CommEffectHeader::encode` -/
def CommEffectHeader.encode (self : CommEffectHeader) : Bytes :=
  [propertiesVersion] ++ toBeBytes self.groupId ++ toBeBytes self.sequence ++
    toBeBytes self.txTimeMicroseconds.toUInt64

/-- `CommEffectHeader::decode` -/
def CommEffectHeader.decode (data : Bytes) : Except Fault CommEffectHeader := do
  if data.length ≠ 17 then .error .rejected else
  if (← indexByte data 0) ≠ propertiesVersion then .error .rejected else
  return {
    groupId := ← getU32 data 1
    sequence := ← getU32 data 5
    txTimeMicroseconds := (← getU64 data 9).toInt64 }

/-- `CommEffectHeader::ENCODED_LEN` -/
@[simp]
theorem CommEffectHeader.length_encode (self : CommEffectHeader) : self.encode.length = 17 := rfl

theorem CommEffectHeader.decode_encode (self : CommEffectHeader) :
    decode self.encode = .ok self := by
  have hstands := standsAt_self self.encode
  nth_rewrite 2 [encode] at hstands
  simp only [standsAt_append, List.length_append, List.length_singleton, BigEndian.length_toBeBytes,
    width_uint32, Nat.zero_add, Nat.reduceAdd] at hstands
  obtain ⟨⟨⟨hversion, hgroup⟩, hsequence⟩, htime⟩ := hstands
  unfold decode getU32 getU64
  rw [if_neg (by rw [length_encode]; decide), indexByte_eq hversion, ok_bind, if_neg (by simp),
    getBe_eq hgroup, getBe_eq hsequence, getBe_eq htime]
  simp only [ok_bind, Int64.toInt64_toUInt64]
  rfl

theorem CommEffectHeader.meets_decode (data : Bytes) : Meets (decode data) (fun _ => True) := by
  unfold decode getU32 getU64
  refine meets_guard fun hlength => ?_
  refine meets_bind (meets_indexByte (by omega)) fun _ _ => ?_
  refine meets_guard fun _ => ?_
  repeat
    refine meets_getBe_bind ?_ fun _ => ?_
    · simp only [width_uint32, width_uint64]
      omega
  trivial

end Emane.PluginApi
