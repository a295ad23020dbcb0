import Mathlib
import Emane.LegacyOta.Grammar
import Emane.Ota.RoundTrip

set_option autoImplicit false

/-! # Which of the two forms a packet has

A packet that has no legacy form is sent in a private one: its payload as it is, and its controls as a
list. Nothing on the wire tells the two forms from each other. The receiver takes for a packet in the
legacy form whatever it can decode as one, and hands up the others with the controls that came with them.

So a packet in the private form arrives exactly when it has a payload and the payload does not happen to
have the legacy form (`LegacyForm`); and a packet in the legacy form does exactly when the headers that its
sender has filled in can be turned into controls again (`Readable`). `format_selection_iff` says both.
-/

namespace Emane.LegacyOta

open Emane.Lib Emane.PluginApi

/-! ## The sender and the receiver -/

/-- The part of `route_downstream` that sends a packet over the air: what is sent as data and as
controls. -/
def routeDownstream (prost : Prost) (packet : FfiPacket) (messages : FfiSlice FfiControlMessage)
    (phySequence : UInt16) : Option (Bytes × Bytes) :=
  match encodeLegacyOtaPayload prost packet messages phySequence with
  | some legacy => some (legacy, toBeBytes (0 : UInt16))
  | none => do
      let controls ← encodeControls messages
      let payload ← packet.payload.get
      some (payload, controls)

/-- The transmission names the NEM as one of its transmitters. -/
def namesTransmitter (messages : List FfiControlMessage) (nemId : UInt16) : Bool :=
  match findTxTransmitters messages with
  | some transmitters => transmitters.transmitters.any fun transmitter => transmitter.nemId == nemId
  | none => false

/-- What `ota_packet` hands up to the PHY of a NEM: the payload and the controls. -/
def otaPacket (prost : Prost) (nemId source : UInt16) (data controls : FfiSlice UInt8) :
    Option (Bytes × List FfiControlMessage) := do
  let data ← data.get
  let controls ← controls.get
  let decodedControls :=
    accepted (decodeControls controls) (meets_iff.mp (meets_decodeControls controls)).1
  let (payload, decoded) ←
    match decodeLegacyOtaPayload prost data source with
    | some legacy => some (legacy.payload, legacy.messages)
    | none => decodedControls.map fun messages => (data, messages)
  if namesTransmitter decoded nemId then none else some (payload, decoded)

/-- What a NEM's PHY gets of a message of the OTA manager. A message without data is not handed up. -/
def handUp (prost : Prost) (nemId : UInt16) (call : Ota.Call) :
    Option (Bytes × List FfiControlMessage) :=
  match Ota.handleOtaMessage call with
  | .ok delivery => delivery.data.bind fun data =>
      otaPacket prost nemId call.source (.data data) ((delivery.controls.map FfiSlice.data).getD (.null 0))
  | .error _ => none

/-! ## The conditions -/

/-- The headers of a packet of a radio model that `source` has sent can be turned into controls, and the
NEM does not take part in the transmission: the source is one of the transmitters, the first antenna has
its frequency group, and the values that stand in for missing controls can be written. -/
structure Readable (packet : FfiPacket) (messages : List FfiControlMessage) (tx : TxProperties)
    (source nemId : UInt16) : Prop where
  source : source ∈ (sentTransmitters packet messages tx).transmitters.map TxTransmitter.nemId
  other : nemId ∉ (sentTransmitters packet messages tx).transmitters.map TxTransmitter.nemId
  antenna : ∀ antenna ∈ (sentMimo messages tx).transmitAntennas.head?,
    antenna.frequencyGroupIndex.toNat < (sentMimo messages tx).frequencyGroups.length
  transmitters : (findTxTransmitters messages).isSome = true ∨
    packet.source ≠ 0 ∧ tx.txPowerDbm.isFinite = true
  mimo : (findMimoTxProperties messages).isSome = true ∨ tx.txPowerDbm.isFinite = true

section

variable {prost : Prost} {packet : FfiPacket} {messages : FfiSlice FfiControlMessage}
  {phySequence nemId source : UInt16} {data controls : Bytes}

/-! ## The private form -/

theorem decodeSection_stop {o stop : ℕ} {bytes : Bytes}
    (h : decodeSection data o = some (bytes, stop)) : o + 2 ≤ stop := by
  obtain ⟨start, hstart, h⟩ := Option.bind_eq_some_iff.mp h
  obtain ⟨lengthBytes, -, h⟩ := Option.bind_eq_some_iff.mp h
  obtain ⟨stop', hstop, h⟩ := Option.bind_eq_some_iff.mp h
  obtain ⟨bytes', -, h⟩ := Option.bind_eq_some_iff.mp h
  obtain ⟨-, rfl⟩ := Prod.mk.inj (Option.some.inj h)
  have hstart := (checkedAdd_eq_some hstart).1
  have hstop := (checkedAdd_eq_some hstop).1
  omega

theorem decodeMac_stop {o stop : ℕ} {mac : Option CommonMacHeader}
    (h : decodeMac prost data o = some (mac, stop)) : o ≤ stop := by
  obtain ⟨start, hstart, h⟩ := Option.bind_eq_some_iff.mp h
  have hstart := (checkedAdd_eq_some hstart).1
  split at h
  · obtain ⟨-, rfl⟩ := Prod.mk.inj (Option.some.inj h)
    exact le_rfl
  · obtain ⟨stop', hstop, h⟩ := Option.bind_eq_some_iff.mp h
    obtain ⟨bytes, -, h⟩ := Option.bind_eq_some_iff.mp h
    have hstop := (checkedAdd_eq_some hstop).1
    split at h
    · obtain ⟨-, rfl⟩ := Prod.mk.inj (Option.some.inj h)
      omega
    · obtain ⟨-, rfl⟩ := Prod.mk.inj (Option.some.inj h)
      exact le_rfl

/-- The payload of a packet in the legacy form is shorter than the packet. -/
theorem payload_length_lt {legacy : DecodedLegacyOta}
    (h : decodeLegacyOtaPayload prost data source = some legacy) :
    legacy.payload.length < data.length := by
  obtain ⟨⟨bytes, phyEnd⟩, hsection, h⟩ := Option.bind_eq_some_iff.mp h
  obtain ⟨phy, -, h⟩ := Option.bind_eq_some_iff.mp h
  have hphyEnd := decodeSection_stop hsection
  split at h
  case isTrue =>
    obtain ⟨⟨shimBytes, shimEnd⟩, hshim, h⟩ := Option.bind_eq_some_iff.mp h
    obtain ⟨shim, -, h⟩ := Option.bind_eq_some_iff.mp h
    obtain ⟨payload, hpayload, h⟩ := Option.bind_eq_some_iff.mp h
    have hshimEnd := decodeSection_stop hshim
    obtain ⟨hle, -, -, hlength⟩ := getRange_some hpayload
    obtain rfl := Option.some.inj h
    dsimp only at hle hlength ⊢
    omega
  case isFalse =>
    split at h
    · cases h
    obtain ⟨⟨mac, macEnd⟩, hmac, h⟩ := Option.bind_eq_some_iff.mp h
    obtain ⟨controls, -, h⟩ := Option.bind_eq_some_iff.mp h
    obtain ⟨model, -, h⟩ := Option.bind_eq_some_iff.mp h
    obtain ⟨payload, hpayload, h⟩ := Option.bind_eq_some_iff.mp h
    have hmacEnd := decodeMac_stop hmac
    obtain ⟨hle, -, -, hlength⟩ := getRange_some hpayload
    obtain rfl := Option.some.inj h
    dsimp only at hle hlength hmacEnd ⊢
    omega

/-- What is sent in the private form. -/
theorem routeDownstream_private (hlegacy : encodeLegacyOtaPayload prost packet messages phySequence = none)
    (hsent : routeDownstream prost packet messages phySequence = some (data, controls)) :
    encodeControls messages = some controls ∧ packet.payload.get = some data := by
  rw [routeDownstream, hlegacy] at hsent
  obtain ⟨controls', hcontrols, hsent⟩ := Option.bind_eq_some_iff.mp hsent
  obtain ⟨payload, hpayload, hsent⟩ := Option.bind_eq_some_iff.mp hsent
  obtain ⟨rfl, rfl⟩ := Prod.mk.inj (Option.some.inj hsent)
  exact ⟨hcontrols, hpayload⟩

/-- The receiver hands up a packet that does not decode with its own controls. -/
theorem otaPacket_private (hnone : decodeLegacyOtaPayload prost data source = none)
    (hcontrols : encodeControls messages = some controls) :
    otaPacket prost nemId source (.data data) (.data controls) =
      if namesTransmitter (receivedControls messages) nemId then none
      else some (data, receivedControls messages) := by
  have haccepted : accepted (decodeControls controls) (meets_iff.mp (meets_decodeControls controls)).1 =
      some (receivedControls messages) :=
    accepted_eq_some.mpr (decodeControls_encodeControls hcontrols)
  unfold otaPacket
  simp only [FfiSlice.get, Option.bind_eq_bind, Option.bind_some, hnone, haccepted, Option.map_some]

/-- The receiver takes a packet that decodes for one in the legacy form. -/
theorem otaPacket_legacy {legacy : DecodedLegacyOta}
    (hsome : decodeLegacyOtaPayload prost data source = some legacy) :
    otaPacket prost nemId source (.data data) (.data controls) =
      if namesTransmitter legacy.messages nemId then none
      else some (legacy.payload, legacy.messages) := by
  unfold otaPacket
  simp only [FfiSlice.get, Option.bind_eq_bind, Option.bind_some, hsome]

/-- What arrives of a message is handed up unless it is empty. -/
theorem handUp_call {out : Ota.Outgoing} (hmax : out.message.totalSize ≤ Ota.maxOtaPayload)
    (hcontrols : out.message.controls ≠ []) :
    handUp prost nemId out.call =
      if out.message.packet = [] then none
      else otaPacket prost nemId out.message.source (.data out.message.packet)
        (.data out.message.controls) := by
  have hhanded : Ota.handedOn out.message.controls = some out.message.controls :=
    if_pos (List.length_pos_iff.mpr hcontrols)
  unfold handUp
  rw [Ota.handleOtaMessage_call hmax]
  dsimp only
  rw [hhanded, Option.map_some, Option.getD_some]
  unfold Ota.handedOn
  split
  · next hpos =>
      rw [if_neg (List.length_pos_iff.mp hpos)]
      rfl
  · next hzero =>
      rw [if_pos (List.length_eq_zero_iff.mp (by omega))]
      rfl

theorem encodeControls_ne_nil (h : encodeControls messages = some controls) : controls ≠ [] := by
  have hdecoded := decodeControls_encodeControls h
  rintro rfl
  cases hdecoded

end

/-! ## The legacy form -/

section

variable {prost : Prost} {packet : FfiPacket} {list : List FfiControlMessage} {tx : TxProperties}
  {model : ModelHeader} {messages : FfiSlice FfiControlMessage}
  {phySequence nemId source : UInt16} {data controls payload : Bytes}

theorem namesTransmitter_eq_false_iff {transmitters : TxTransmitters}
    (hfind : findTxTransmitters list = some transmitters) :
    namesTransmitter list nemId = false ↔ nemId ∉ transmitters.transmitters.map TxTransmitter.nemId := by
  unfold namesTransmitter
  rw [hfind]
  simp only [List.any_eq_false, beq_iff_eq, List.mem_map, not_exists, not_and]

/-- The sender has framed two headers. -/
theorem frame_eq_framed {phy header : Bytes} {slice : FfiSlice UInt8}
    (h : frame phy header slice = some data) :
    ∃ payload, slice.get = some payload ∧ phy.length < 65536 ∧ header.length < 65536 ∧
      data = framed phy ++ (framed header ++ payload) := by
  obtain ⟨payload, phyLength, headerLength, hpayload, hphy, hheader, rfl⟩ := frame_eq_some h
  refine ⟨payload, hpayload, hphy ▸ phyLength.toNat_lt, hheader ▸ headerLength.toNat_lt, ?_⟩
  rw [framed, framed, ← hphy, ← hheader, UInt16.ofNat_toNat, UInt16.ofNat_toNat]
  simp only [List.append_assoc]

/-- **A packet of the effects shim is read back.** -/
theorem decode_commEffect (hphy : prost.phy.RoundTrips) (hshim : prost.shim.RoundTrips)
    (hencode : encodeLegacyCommeffectPayload prost packet list = some data) :
    ∃ header decoded, decodeLegacyOtaPayload prost data source = some decoded ∧
      packet.payload.get = some decoded.payload ∧
      decoded.messages = [control controlCommEffectHeader header] := by
  obtain ⟨header, -, hframe⟩ := Option.bind_eq_some_iff.mp hencode
  obtain ⟨payload, hpayload, hphyLt, hshimLt, rfl⟩ := frame_eq_framed hframe
  generalize hphyBytes : prost.phy.encode _ = phyBytes at hphyLt ⊢
  generalize hshimBytes : prost.shim.encode _ = shimBytes at hshimLt ⊢
  have hphyDecode := hphyBytes ▸ hphy _
  have hshimDecode := hshimBytes ▸ hshim _
  have hsection : decodeSection (framed phyBytes ++ (framed shimBytes ++ payload)) 0 =
      some (phyBytes, (framed phyBytes).length) :=
    decodeSection_zero_eq_some_iff.mpr ⟨hphyLt, ⟨_, rfl⟩, rfl⟩
  have hbound : (framed phyBytes).length < 2 ^ 32 := by
    rw [length_framed]
    omega
  have hshimSection := (decodeSection_eq_some_iff hbound).mpr
    ⟨hshimLt, ⟨payload, rfl⟩, rfl⟩
  have hrest := getRange_append (framed phyBytes ++ framed shimBytes) payload []
  rw [List.append_nil, List.append_assoc, ← List.length_append, List.append_assoc] at hrest
  unfold decodeLegacyOtaPayload decodeCommEffect
  simp only [hsection, hphyDecode, Option.bind_eq_bind, Option.bind_some, if_true, hshimSection,
    hshimDecode, ← List.length_append, hrest]
  exact ⟨_, _, rfl, hpayload, rfl⟩

/-- What the receiver looks for in the PHY header of a sender. -/
theorem found_of_phyControls {transmitters : TxTransmitters} {mimo : MimoTxProperties}
    {built : List FfiControlMessage}
    (h : phyControls (phyHeader tx transmitters mimo phySequence) source = some built) :
    source ∈ transmitters.transmitters.map TxTransmitter.nemId ∧
      ∃ antenna group, mimo.transmitAntennas.head? = some antenna ∧
        mimo.frequencyGroups[antenna.frequencyGroupIndex.toNat]? = some group := by
  obtain ⟨transmitter, htransmitter, h⟩ := Option.bind_eq_some_iff.mp h
  obtain ⟨antenna, hantenna, h⟩ := Option.bind_eq_some_iff.mp h
  obtain ⟨group, hgroup, -⟩ := Option.bind_eq_some_iff.mp h
  constructor
  · obtain ⟨sent, hsent, rfl⟩ := List.mem_map.mp (List.mem_of_find?_eq_some htransmitter)
    have heq : sent.nemId.toUInt32 = source.toUInt32 := by simpa using List.find?_some htransmitter
    exact List.mem_map.mpr ⟨sent, hsent, UInt16.toUInt32_inj.mp heq⟩
  · unfold phyHeader at hantenna hgroup
    rw [List.head?_map] at hantenna
    obtain ⟨antenna, hhead, rfl⟩ := Option.map_eq_some_iff.mp hantenna
    change (mimo.frequencyGroups.map phyGroup)[antenna.frequencyGroupIndex.toUInt32.toNat]? = _ at hgroup
    rw [UInt16.toNat_toUInt32, List.getElem?_map] at hgroup
    obtain ⟨group, hgroup, -⟩ := Option.map_eq_some_iff.mp hgroup
    exact ⟨antenna, group, hhead, hgroup⟩

/-- **A packet of a radio model is read back by the NEMs that can read it.** -/
theorem decode_radio_iff (source nemId : UInt16) (hphy : prost.phy.RoundTrips)
    (hmac : prost.mac.RoundTrips)
    (hencode : encodeLegacyOtaPayload prost packet messages phySequence = some data)
    (hlist : ffiControlMessages messages = some list) (hmodel : findModelHeader list = some model)
    (htx : findTxProperties list = some tx) :
    (∃ decoded, decodeLegacyOtaPayload prost data source = some decoded ∧
        packet.payload.get = some decoded.payload ∧ namesTransmitter decoded.messages nemId = false) ↔
      Readable packet list tx source nemId := by
  have hframe : frame (prost.phy.encode (phyHeader tx (sentTransmitters packet list tx)
      (sentMimo list tx) phySequence)) (prost.mac.encode
        { registrationId := model.registrationId.toUInt32, sequenceNumber := model.sequence })
      packet.payload = some data := by
    rw [encodeLegacyOtaPayload, hlist, Option.bind_eq_bind, Option.bind_some] at hencode
    simp only [hmodel, htx, Option.bind_eq_bind, Option.bind_some] at hencode
    exact hencode
  obtain ⟨payload, hpayload, -⟩ := frame_eq_framed hframe
  obtain ⟨received, hreceived, -⟩ := receivedModel_eq model
  rw [decode_frame hphy hmac hframe hpayload rfl hreceived]
  constructor
  · rintro ⟨decoded, hdecoded, -, hnames⟩
    obtain ⟨built, hbuilt, rfl⟩ := Option.map_eq_some_iff.mp hdecoded
    obtain ⟨hsource, antenna, group, hantenna, hgroup⟩ := found_of_phyControls hbuilt
    obtain ⟨hne, hlt⟩ := sentMimo_group (List.mem_of_getElem? hgroup)
    obtain ⟨receivedTx, segments, -, -, hcontrols⟩ :=
      phyControls_phyHeader hsource hantenna hgroup hne hlt
    rw [hcontrols] at hbuilt
    obtain ⟨c, hc, hbuilt⟩ := Option.bind_eq_some_iff.mp hbuilt
    obtain ⟨d, hd, hbuilt⟩ := Option.bind_eq_some_iff.mp hbuilt
    obtain rfl := Option.some.inj hbuilt
    have hfind := findTxTransmitters_controls received.encode receivedTx.encode segments d hc
    refine ⟨hsource, (namesTransmitter_eq_false_iff hfind).mp hnames, ?_, ?_, ?_⟩
    · intro antenna' hantenna'
      obtain rfl := Option.some.inj (hantenna.symm.trans hantenna')
      exact (List.getElem?_eq_some_iff.mp hgroup).1
    · exact sentTransmitters_encode_iff.mp (Option.isSome_iff_exists.mpr ⟨c, hc⟩)
    · exact sentMimo_encodable_iff.mp (arrivingMimo_encodable.mp (MimoTxProperties.encode_eq_some.mp hd).1)
  · intro h
    have hencodable : (sentMimo list tx).Encodable := sentMimo_encodable_iff.mpr h.mimo
    obtain ⟨antenna, antennas, hcons⟩ := List.exists_cons_of_ne_nil hencodable.antennas_ne
    have hantenna : (sentMimo list tx).transmitAntennas.head? = some antenna := by
      rw [hcons]
      rfl
    have hgroup := List.getElem?_eq_getElem (h.antenna antenna hantenna)
    obtain ⟨hne, hlt⟩ := sentMimo_group (List.mem_of_getElem? hgroup)
    obtain ⟨receivedTx, segments, -, -, hcontrols⟩ :=
      phyControls_phyHeader h.source hantenna hgroup hne hlt
    obtain ⟨c, hc⟩ := Option.isSome_iff_exists.mp (sentTransmitters_encode_iff.mpr h.transmitters)
    have hd := MimoTxProperties.encode_eq_some.mpr ⟨arrivingMimo_encodable.mpr hencodable, rfl⟩
    have hfind := findTxTransmitters_controls received.encode receivedTx.encode segments
      (arrivingMimo (sentMimo list tx)).bytes hc
    rw [hcontrols, hc, hd]
    exact ⟨_, rfl, hpayload, (namesTransmitter_eq_false_iff hfind).mpr h.other⟩

end

section

variable {prost : Prost} {encode : Ota.OtaHeader → Bytes} {sendTo : Bytes → Bool} {packet : FfiPacket}
  {messages : FfiSlice FfiControlMessage} {phySequence nemId : UInt16} {out : Ota.Outgoing}

/-- **The private form.** The receiver takes a payload for what it is unless it reads it in the legacy form. -/
theorem handUp_private_iff
    (hsent : routeDownstream prost packet messages phySequence =
      some (out.message.packet, out.message.controls))
    (hemitted : out.Succeeds encode sendTo)
    (hlegacy : encodeLegacyOtaPayload prost packet messages phySequence = none) {payload : Bytes}
    (hpayload : packet.payload.get = some payload) :
    handUp prost nemId out.call = some (payload, receivedControls messages) ↔
      payload ≠ [] ∧ ¬ LegacyForm prost out.message.source payload ∧
        namesTransmitter (receivedControls messages) nemId = false := by
  obtain ⟨hcontrols, hdata⟩ := routeDownstream_private hlegacy hsent
  obtain rfl := Option.some.inj (hdata.symm.trans hpayload)
  rw [handUp_call (Ota.send_ok hemitted).1 (encodeControls_ne_nil hcontrols),
    ← decodeLegacyOtaPayload_isSome_iff, Bool.not_eq_true, Option.isSome_eq_false_iff,
    Option.isNone_iff_eq_none]
  split
  · next hempty => exact iff_of_false (Option.some_ne_none _).symm fun h => h.1 hempty
  next hne =>
  rw [and_iff_right hne]
  cases hdecode : decodeLegacyOtaPayload prost out.message.packet out.message.source with
  | some decoded =>
      -- what is handed up is shorter than what was sent
      rw [otaPacket_legacy hdecode]
      refine ⟨fun hup => ?_, fun h => absurd h.1 (Option.some_ne_none decoded)⟩
      split at hup
      · cases hup
      · have hlt := payload_length_lt hdecode
        have heq := congrArg (fun r => r.1.length) (Option.some.inj hup)
        exact absurd heq hlt.ne
  | none =>
      rw [otaPacket_private hdecode hcontrols]
      cases namesTransmitter (receivedControls messages) nemId <;> simp

/-- What the receiver reads in the legacy form is handed up unless the NEM is one of the transmitters. -/
theorem handUp_legacy_iff
    (hsent : routeDownstream prost packet messages phySequence =
      some (out.message.packet, out.message.controls))
    (hemitted : out.Succeeds encode sendTo) {legacy : Bytes}
    (hlegacy : encodeLegacyOtaPayload prost packet messages phySequence = some legacy)
    {decoded : DecodedLegacyOta}
    (hdecode : decodeLegacyOtaPayload prost legacy out.message.source = some decoded) :
    (handUp prost nemId out.call).map Prod.fst = some decoded.payload ↔
      namesTransmitter decoded.messages nemId = false := by
  obtain ⟨rfl, hcontrols⟩ : legacy = out.message.packet ∧
      toBeBytes (0 : UInt16) = out.message.controls := by
    rw [routeDownstream, hlegacy] at hsent
    exact Prod.mk.inj (Option.some.inj hsent)
  have hne : out.message.packet ≠ [] :=
    List.ne_nil_of_length_pos (Nat.zero_lt_of_lt (payload_length_lt hdecode))
  rw [handUp_call (Ota.send_ok hemitted).1 (hcontrols ▸ toBeBytes_ne_nil (0 : UInt16)), if_neg hne,
    otaPacket_legacy hdecode]
  cases namesTransmitter decoded.messages nemId <;> simp

/-- **The legacy form.** A packet of the effects shim is always read, one of a radio model when its headers
are readable. -/
theorem legacy_read_iff (hphy : prost.phy.RoundTrips) (hmac : prost.mac.RoundTrips)
    (hshim : prost.shim.RoundTrips) {legacy : Bytes} {list : List FfiControlMessage}
    (hlegacy : encodeLegacyOtaPayload prost packet messages phySequence = some legacy)
    (hlist : ffiControlMessages messages = some list) (source : UInt16) :
    (∃ decoded, decodeLegacyOtaPayload prost legacy source = some decoded ∧
        packet.payload.get = some decoded.payload ∧ namesTransmitter decoded.messages nemId = false) ↔
      findModelHeader list = none ∨ ∃ tx, findTxProperties list = some tx ∧
        Readable packet list tx source nemId := by
  cases hmodel : findModelHeader list with
  | none =>
      refine iff_of_true ?_ (.inl rfl)
      rw [encodeLegacyOtaPayload, hlist, Option.bind_eq_bind, Option.bind_some] at hlegacy
      simp only [hmodel] at hlegacy
      obtain ⟨header, decoded, hdecode, hpayload, hmessages⟩ := decode_commEffect hphy hshim hlegacy
      refine ⟨decoded, hdecode, hpayload, ?_⟩
      rw [hmessages, namesTransmitter, findTxTransmitters, controlPayload_of_ne (by decide)]
      rfl
  | some model =>
      obtain ⟨tx, htx⟩ : ∃ tx, findTxProperties list = some tx := by
        rw [encodeLegacyOtaPayload, hlist, Option.bind_eq_bind, Option.bind_some] at hlegacy
        simp only [hmodel] at hlegacy
        obtain ⟨tx, htx, -⟩ := Option.bind_eq_some_iff.mp hlegacy
        exact ⟨tx, htx⟩
      rw [decode_radio_iff source nemId hphy hmac hlegacy hlist hmodel htx, htx]
      simp

end

/-- **Which packets arrive.** The controls are always read back. A packet in the private form is handed up
as it was sent exactly when it has a payload, which does not have the legacy form, and a packet in the
legacy form exactly when it is one of the effects shim or its headers are readable; in both cases to the
NEMs that do not take part in the transmission. -/
theorem format_selection_iff {prost : Prost} (hphy : prost.phy.RoundTrips) (hmac : prost.mac.RoundTrips)
    (hshim : prost.shim.RoundTrips) {encode : Ota.OtaHeader → Bytes} {sendTo : Bytes → Bool}
    {packet : FfiPacket} {messages : FfiSlice FfiControlMessage} {phySequence : UInt16}
    {out : Ota.Outgoing}
    (hsent : routeDownstream prost packet messages phySequence =
      some (out.message.packet, out.message.controls))
    (hemitted : out.Succeeds encode sendTo) (nemId : UInt16) :
    (∀ bytes, encodeControls messages = some bytes →
      decodeControls bytes = .ok (receivedControls messages)) ∧
    (encodeLegacyOtaPayload prost packet messages phySequence = none →
      ∀ payload, packet.payload.get = some payload →
        (handUp prost nemId out.call = some (payload, receivedControls messages) ↔
          payload ≠ [] ∧ ¬ LegacyForm prost out.message.source payload ∧
            namesTransmitter (receivedControls messages) nemId = false)) ∧
    (∀ legacy list, encodeLegacyOtaPayload prost packet messages phySequence = some legacy →
      ffiControlMessages messages = some list →
      ((∃ decoded, decodeLegacyOtaPayload prost legacy out.message.source = some decoded ∧
          packet.payload.get = some decoded.payload ∧
          (handUp prost nemId out.call).map Prod.fst = some decoded.payload) ↔
        findModelHeader list = none ∨ ∃ tx, findTxProperties list = some tx ∧
          Readable packet list tx out.message.source nemId)) := by
  refine ⟨fun bytes hbytes => decodeControls_encodeControls hbytes,
    fun hlegacy payload hpayload => handUp_private_iff hsent hemitted hlegacy hpayload, ?_⟩
  intro legacy list hlegacy hlist
  rw [← legacy_read_iff hphy hmac hshim hlegacy hlist]
  refine exists_congr fun decoded => and_congr_right fun hdecode => and_congr_right fun _ => ?_
  exact handUp_legacy_iff hsent hemitted hlegacy hdecode

/-- A packet that NEM 1 sends over the air, in one datagram. -/
def overTheAir (packet controls : Bytes) : Ota.Outgoing where
  sender := Ota.shortMessage.sender
  message := ⟨1, 65535, packet, controls, []⟩

/-- A packet with three bytes and a control of a kind of its own, in the private form. -/
theorem format_selection_iff_private :
    handUp protobuf 2 (overTheAir [9, 8, 7] [0, 1, 0, 0, 0, 77, 0, 0, 0, 2, 5, 6]).call =
      some ([9, 8, 7], [control 77 [5, 6]]) := by
  have hsent : routeDownstream protobuf ⟨1, .data [9, 8, 7]⟩ (.data [control 77 [5, 6]]) 0 =
      some ([9, 8, 7], [0, 1, 0, 0, 0, 77, 0, 0, 0, 2, 5, 6]) := by decide +kernel
  have hemitted : (overTheAir [9, 8, 7] [0, 1, 0, 0, 0, 77, 0, 0, 0, 2, 5, 6]).Succeeds
      Ota.OtaHeader.encode Ota.takes := by decide +kernel
  have hnot : ¬ LegacyForm protobuf 1 [9, 8, 7] :=
    mt decodeLegacyOtaPayload_isSome_iff.mpr (by decide +kernel)
  exact ((format_selection_iff (serialization_roundTrips _) (serialization_roundTrips _)
    (serialization_roundTrips _) hsent hemitted 2).2.1 (by decide +kernel) [9, 8, 7] rfl).mpr
      ⟨List.cons_ne_nil _ _, hnot, by decide +kernel⟩

/-- **A payload that is taken for a header**: six bytes in the private form, which are a PHY header with
nothing but the registration of the effects shim and an empty header of the shim. What is handed up has
no payload and a control that was not sent. -/
theorem private_payload_reinterpreted :
    encodeLegacyOtaPayload protobuf ⟨1, .data [0, 2, 8, 5, 0, 0]⟩ (.data []) 0 = none ∧
    routeDownstream protobuf ⟨1, .data [0, 2, 8, 5, 0, 0]⟩ (.data []) 0 =
      some ([0, 2, 8, 5, 0, 0], [0, 0]) ∧
    (overTheAir [0, 2, 8, 5, 0, 0] [0, 0]).Succeeds Ota.OtaHeader.encode Ota.takes ∧
    handUp protobuf 2 (overTheAir [0, 2, 8, 5, 0, 0] [0, 0]).call =
      some ([], [control controlCommEffectHeader
        (CommEffectHeader.encode { groupId := 0, sequence := 0, txTimeMicroseconds := 0 })]) := by
  decide +kernel

/-- A private packet without payload is not handed up. -/
example : handUp protobuf 2 (overTheAir [] [0, 0]).call = none := by decide +kernel

end Emane.LegacyOta
