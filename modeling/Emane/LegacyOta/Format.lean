import Mathlib
import Emane.LegacyOta.Controls
import Emane.Lib.Saturating

set_option autoImplicit false

/-! # Packets over the air in the legacy form

A packet of a radio model is sent as a PHY header, a MAC header and the payload, each header behind its
16-bit length; a packet of the effects shim has the header of the shim in the place of the MAC header.
The controls of the packet are not sent. The sender writes what it needs of them into the headers, and
the receiver builds controls from these.

The serialization of the headers is not part of the repository; it is a parameter (`Prost`).
-/

namespace Emane.LegacyOta

open Emane.Lib Emane.PluginApi

/-! ## Headers -/

namespace CommonPhyHeader

structure Transmitter where
  nemId : UInt32
  powerdBm : F64
  deriving DecidableEq

structure FrequencySegment where
  frequencyHz : UInt64
  offsetMicroseconds : UInt64
  durationMicroseconds : UInt64
  powerdBm : Option F64
  deriving DecidableEq

structure FrequencyGroup where
  frequencySegments : List FrequencySegment
  deriving DecidableEq

structure Pointing where
  profileId : UInt32
  azimuthDegrees : F64
  elevationDegrees : F64
  deriving DecidableEq

structure TransmitAntenna where
  antennaIndex : UInt32
  frequencyGroupIndex : UInt32
  bandwidthHz : UInt64
  fixedGaindBi : Option F64
  pointing : Option Pointing
  spectralMaskIndex : Option UInt32
  deriving DecidableEq

end CommonPhyHeader

open CommonPhyHeader in
structure CommonPhyHeader where
  registrationId : UInt32
  subId : UInt32
  sequenceNumber : UInt32
  txTimeMicroseconds : UInt64
  transmitters : List Transmitter
  frequencyGroups : List FrequencyGroup
  transmitAntennas : List TransmitAntenna
  filterData : Option Bytes
  deriving DecidableEq

structure CommonMacHeader where
  registrationId : UInt32
  sequenceNumber : UInt64
  deriving DecidableEq

structure CommEffectShimHeader where
  groupId : UInt32
  sequenceNumber : UInt32
  txTimeMicroseconds : UInt64
  deriving DecidableEq

/-- `encode_to_vec` and `decode` of a kind of messages. -/
structure Serialization (α : Type) where
  encode : α → Bytes
  decode : Bytes → Option α

/-- What is written is read back. -/
def Serialization.RoundTrips {α : Type} (s : Serialization α) : Prop :=
  ∀ a, s.decode (s.encode a) = some a

/-- The serializations of the headers. -/
structure Prost where
  phy : Serialization CommonPhyHeader
  mac : Serialization CommonMacHeader
  shim : Serialization CommEffectShimHeader

/-- `PHY_FRAMEWORK_REGISTRATION` -/
def phyFrameworkRegistration : UInt32 := 7

/-- `PHY_COMM_EFFECT_REGISTRATION` -/
def phyCommEffectRegistration : UInt32 := 5

/-- `MAC_REGISTRATION_BENTPIPE` -/
def macRegistrationBentpipe : UInt16 := 6

/-- The part of a packet that is used. -/
structure FfiPacket where
  source : UInt16
  payload : FfiSlice UInt8
  deriving DecidableEq

/-! ## The sender -/

/-- The transmitters of a packet: those of its control, or its source. -/
def sentTransmitters (packet : FfiPacket) (messages : List FfiControlMessage) (tx : TxProperties) :
    TxTransmitters :=
  (findTxTransmitters messages).getD
    { transmitters := [{ nemId := packet.source, txPowerDbm := tx.txPowerDbm }] }

/-- The frequency segments of a packet without MIMO control. -/
def singleSegments (messages : List FfiControlMessage) (tx : TxProperties) :
    List MimoTxFrequencySegment :=
  match findTxFrequencySegments messages with
  | none =>
      [{ frequencyHz := tx.frequencyHz
         txPowerDbm := tx.txPowerDbm
         durationMicroseconds := tx.durationMicroseconds
         offsetMicroseconds := tx.offsetMicroseconds }]
  | some segments =>
      segments.segments.map fun segment =>
        { frequencyHz := segment.frequencyHz
          txPowerDbm := tx.txPowerDbm
          durationMicroseconds := segment.durationMicroseconds
          offsetMicroseconds := segment.offsetMicroseconds }

/-- The MIMO properties of a packet without MIMO control: a single antenna. -/
def singleAntenna (messages : List FfiControlMessage) (tx : TxProperties) : MimoTxProperties where
  frequencyGroups := [singleSegments messages tx]
  transmitAntennas :=
    [{ frequencyGroupIndex := 0
       antennaIndex := tx.antennaIndex
       bandwidthHz := tx.bandwidthHz
       spectralMaskIndex := tx.spectralMaskIndex
       pattern := .default }]

/-- The MIMO properties of a packet. -/
def sentMimo (messages : List FfiControlMessage) (tx : TxProperties) : MimoTxProperties :=
  (findMimoTxProperties messages).getD (singleAntenna messages tx)

/-- A frequency group of the PHY header. -/
def phyGroup (group : List MimoTxFrequencySegment) : CommonPhyHeader.FrequencyGroup where
  frequencySegments := group.map fun segment =>
    { frequencyHz := segment.frequencyHz
      offsetMicroseconds := segment.offsetMicroseconds
      durationMicroseconds := segment.durationMicroseconds
      powerdBm := some segment.txPowerDbm }

/-- The gain and the pointing of a pattern. -/
def phyPattern : AntennaPattern → Option F64 × Option CommonPhyHeader.Pointing
  | .default => (none, none)
  | .idealOmni gainDb => (some gainDb, none)
  | .profile profile =>
      (none, some {
        profileId := profile.profileId.toUInt32
        azimuthDegrees := profile.azimuthDegrees
        elevationDegrees := profile.elevationDegrees })

/-- An antenna of the PHY header. -/
def phyAntenna (antenna : MimoTxAntenna) : CommonPhyHeader.TransmitAntenna :=
  let (fixedGaindBi, pointing) := phyPattern antenna.pattern
  { antennaIndex := antenna.antennaIndex.toUInt32
    frequencyGroupIndex := antenna.frequencyGroupIndex.toUInt32
    bandwidthHz := if antenna.spectralMaskIndex = 0 then antenna.bandwidthHz else 0
    fixedGaindBi
    pointing
    spectralMaskIndex :=
      if antenna.spectralMaskIndex ≠ 0 then some antenna.spectralMaskIndex.toUInt32 else none }

/-- The PHY header of a packet of a radio model. -/
def phyHeader (tx : TxProperties) (transmitters : TxTransmitters) (mimo : MimoTxProperties)
    (phySequence : UInt16) : CommonPhyHeader where
  registrationId := phyFrameworkRegistration
  subId := tx.subId.toUInt32
  sequenceNumber := phySequence.toUInt32
  txTimeMicroseconds := (max tx.txTimeMicroseconds 0).toUInt64
  transmitters := transmitters.transmitters.map fun transmitter =>
    { nemId := transmitter.nemId.toUInt32, powerdBm := transmitter.txPowerDbm }
  frequencyGroups := mimo.frequencyGroups.map phyGroup
  transmitAntennas := mimo.transmitAntennas.map phyAntenna
  filterData := none

/-- The end of both encoders: the headers behind their lengths, and the payload. -/
def frame (phy header : Bytes) (payload : FfiSlice UInt8) : Option Bytes := do
  let payload ← payload.get
  let phyLength ← u16TryFrom phy.length
  let headerLength ← u16TryFrom header.length
  some (toBeBytes phyLength ++ phy ++ toBeBytes headerLength ++ header ++ payload)

/-- `encode_legacy_commeffect_payload` -/
def encodeLegacyCommeffectPayload (prost : Prost) (packet : FfiPacket)
    (messages : List FfiControlMessage) : Option Bytes := do
  let header ← findCommEffectHeader messages
  let time := (max header.txTimeMicroseconds 0).toUInt64
  let phy := prost.phy.encode
    { registrationId := phyCommEffectRegistration
      subId := header.sequence
      sequenceNumber := 0
      txTimeMicroseconds := time
      transmitters := [{ nemId := packet.source.toUInt32, powerdBm := ⟨0⟩ }]
      frequencyGroups :=
        [{ frequencySegments :=
            [{ frequencyHz := 0
               offsetMicroseconds := 0
               durationMicroseconds := 0
               powerdBm := none }] }]
      transmitAntennas := []
      filterData := none }
  let shim := prost.shim.encode
    { groupId := header.groupId, sequenceNumber := header.sequence, txTimeMicroseconds := time }
  frame phy shim packet.payload

/-- `encode_legacy_ota_payload` -/
def encodeLegacyOtaPayload (prost : Prost) (packet : FfiPacket)
    (messages : FfiSlice FfiControlMessage) (phySequence : UInt16) : Option Bytes := do
  let messages ← ffiControlMessages messages
  match findModelHeader messages with
  | none => encodeLegacyCommeffectPayload prost packet messages
  | some model => do
      let tx ← findTxProperties messages
      let transmitters := sentTransmitters packet messages tx
      let mimo := sentMimo messages tx
      let phy := prost.phy.encode (phyHeader tx transmitters mimo phySequence)
      let mac := prost.mac.encode
        { registrationId := model.registrationId.toUInt32, sequenceNumber := model.sequence }
      frame phy mac packet.payload

/-! ## The receiver -/

/-- `i64::try_from` of a time, cut off at the largest value. -/
def signedTime (time : UInt64) : Int64 := if time.toNat < 2 ^ 63 then time.toInt64 else Int64.maxValue

/-- `u16::try_from` on a 32-bit number. -/
def narrow (x : UInt32) : Option UInt16 := u16TryFrom x.toNat

structure DecodedLegacyOta where
  payload : Bytes
  messages : List FfiControlMessage
  deriving DecidableEq

/-- A control with the bytes that were built for it. -/
def control (msgType : UInt32) (payload : Bytes) : FfiControlMessage where
  msgType
  payload := .data payload

/-- The bytes behind their 16-bit length from `offset` on, and where they end. -/
def decodeSection (data : Bytes) (offset : ℕ) : Option (Bytes × ℕ) := do
  let start ← checkedAdd offset 2
  let lengthBytes ← getRange data offset start
  let stop ← checkedAdd start (fromBeBytes lengthBytes : UInt16).toNat
  let bytes ← getRange data start stop
  some (bytes, stop)

/-- The MAC header behind the PHY header, and where the payload begins. The header may be missing; what
is no header is payload. -/
def decodeMac (prost : Prost) (data : Bytes) (phyEnd : ℕ) : Option (Option CommonMacHeader × ℕ) := do
  let start ← checkedAdd phyEnd 2
  match getRange data phyEnd start with
  | none => some (none, phyEnd)
  | some lengthBytes => do
      let macEnd ← checkedAdd start (fromBeBytes lengthBytes : UInt16).toNat
      let bytes ← getRange data start macEnd
      match prost.mac.decode bytes with
      | some mac => some (some mac, macEnd)
      | none => some (none, phyEnd)

/-- The transmit properties that are built from the PHY header. -/
def receivedTx (phy : CommonPhyHeader) (antenna : CommonPhyHeader.TransmitAntenna)
    (group : CommonPhyHeader.FrequencyGroup) (txPowerDbm : F64) : Option TxProperties := do
  let segment ← group.frequencySegments.head?
  let start ← (group.frequencySegments.map fun segment => segment.offsetMicroseconds.toNat).min?
  let stop ← (group.frequencySegments.map fun segment =>
    U64.saturatingAdd segment.offsetMicroseconds.toNat segment.durationMicroseconds.toNat).max?
  some {
    frequencyHz := segment.frequencyHz
    bandwidthHz := antenna.bandwidthHz
    txPowerDbm := segment.powerdBm.getD txPowerDbm
    durationMicroseconds := UInt64.ofNat (max (stop - start) 1)
    offsetMicroseconds := UInt64.ofNat start
    txTimeMicroseconds := signedTime phy.txTimeMicroseconds
    antennaIndex := ← narrow antenna.antennaIndex
    spectralMaskIndex := ← narrow (antenna.spectralMaskIndex.getD 0)
    subId := ← narrow phy.subId }

/-- The segments that are built from a frequency group. -/
def receivedSegments (group : CommonPhyHeader.FrequencyGroup) : TxFrequencySegments where
  segments := group.frequencySegments.map fun segment =>
    { frequencyHz := segment.frequencyHz
      durationMicroseconds := segment.durationMicroseconds
      offsetMicroseconds := segment.offsetMicroseconds }

/-- The transmitters that are built from the PHY header. -/
def receivedTransmitters (phy : CommonPhyHeader) : TxTransmitters where
  transmitters := phy.transmitters.filterMap fun transmitter => do
    some { nemId := ← narrow transmitter.nemId, txPowerDbm := transmitter.powerdBm }

/-- The pattern of an antenna of the PHY header. -/
def receivedPattern (antenna : CommonPhyHeader.TransmitAntenna) : Option AntennaPattern :=
  match antenna.fixedGaindBi with
  | some gainDb => some (.idealOmni gainDb)
  | none =>
      match antenna.pointing with
      | some pointing => do
          some (.profile {
            profileId := ← narrow pointing.profileId
            azimuthDegrees := pointing.azimuthDegrees
            elevationDegrees := pointing.elevationDegrees })
      | none => some .default

/-- The antenna that is built from one of the PHY header. -/
def receivedAntenna (antenna : CommonPhyHeader.TransmitAntenna) : Option MimoTxAntenna := do
  let pattern ← receivedPattern antenna
  some {
    frequencyGroupIndex := ← narrow antenna.frequencyGroupIndex
    antennaIndex := ← narrow antenna.antennaIndex
    bandwidthHz := antenna.bandwidthHz
    spectralMaskIndex := ← narrow (antenna.spectralMaskIndex.getD 0)
    pattern }

/-- The MIMO properties that are built from the PHY header. -/
def receivedMimo (phy : CommonPhyHeader) (txPowerDbm : F64) : MimoTxProperties where
  frequencyGroups := phy.frequencyGroups.map fun group =>
    group.frequencySegments.map fun segment =>
      { frequencyHz := segment.frequencyHz
        txPowerDbm := segment.powerdBm.getD txPowerDbm
        durationMicroseconds := segment.durationMicroseconds
        offsetMicroseconds := segment.offsetMicroseconds }
  transmitAntennas := phy.transmitAntennas.filterMap receivedAntenna

/-- The controls that are built from the PHY header. -/
def phyControls (phy : CommonPhyHeader) (source : UInt16) : Option (List FfiControlMessage) := do
  let transmitter ← phy.transmitters.find? fun transmitter => transmitter.nemId = source.toUInt32
  let txPowerDbm := transmitter.powerdBm
  let antenna ← phy.transmitAntennas.head?
  let group ← phy.frequencyGroups[antenna.frequencyGroupIndex.toNat]?
  let tx ← receivedTx phy antenna group txPowerDbm
  let segments ← (receivedSegments group).encode
  let transmitters ← (receivedTransmitters phy).encode
  let mimo ← (receivedMimo phy txPowerDbm).encode
  some [control controlTxProperties tx.encode, control controlTxFrequencySegments segments,
    control controlTxTransmitters transmitters, control controlMimoTxProperties mimo]

/-- The model header that is built from the MAC header. -/
def receivedModel (mac : CommonMacHeader) : Option ModelHeader := do
  some {
    registrationId := ← narrow mac.registrationId
    sequence := mac.sequenceNumber
    dataRateBps := 0
    category := 0
    messageType := if mac.registrationId = macRegistrationBentpipe.toUInt32 then 1 else 0
    flags := 0 }

/-- The control that is built from the MAC header, if there is one. -/
def modelControls : Option CommonMacHeader → Option (List FfiControlMessage)
  | some mac => (receivedModel mac).map fun model => [control controlModelHeader model.encode]
  | none => some []

/-- The rest of `decode_legacy_ota_payload` for a packet of the effects shim. -/
def decodeCommEffect (prost : Prost) (data : Bytes) (phyEnd : ℕ) : Option DecodedLegacyOta := do
  let (bytes, shimEnd) ← decodeSection data phyEnd
  let shim ← prost.shim.decode bytes
  let header : CommEffectHeader :=
    { groupId := shim.groupId
      sequence := shim.sequenceNumber
      txTimeMicroseconds := signedTime shim.txTimeMicroseconds }
  let payload ← getRange data shimEnd data.length
  some { payload, messages := [control controlCommEffectHeader header.encode] }

/-- The rest of it for a packet of a radio model. -/
def decodeRadio (prost : Prost) (data : Bytes) (phyEnd : ℕ) (phy : CommonPhyHeader)
    (source : UInt16) : Option DecodedLegacyOta := do
  let (mac, macEnd) ← decodeMac prost data phyEnd
  let controls ← phyControls phy source
  let model ← modelControls mac
  let payload ← getRange data macEnd data.length
  some { payload, messages := model ++ controls }

/-- `decode_legacy_ota_payload` -/
def decodeLegacyOtaPayload (prost : Prost) (data : Bytes) (source : UInt16) :
    Option DecodedLegacyOta := do
  let (bytes, phyEnd) ← decodeSection data 0
  let phy ← prost.phy.decode bytes
  if phy.registrationId = phyCommEffectRegistration then decodeCommEffect prost data phyEnd
  else if phy.registrationId ≠ phyFrameworkRegistration then none
  else decodeRadio prost data phyEnd phy source

end Emane.LegacyOta
