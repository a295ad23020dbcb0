import Mathlib
import Emane.LegacyOta.Prost

set_option autoImplicit false

/-! # What arrives of a packet in the legacy form

The receiver builds the transmit properties, the segments, the transmitters and the MIMO properties from
the headers. Where the sender had them as controls, or where they can be written as controls, the packet
arrives with what was sent (`Recovered`). The sender does not check the values that it fills in for
missing controls, and the receiver refuses a packet for which one of them cannot be written; and the
bandwidth of the transmit properties is not sent along with a spectral mask.
-/

namespace Emane.LegacyOta

open Emane.Lib Emane.PluginApi

/-! ## Numbers -/

@[simp]
theorem narrow_toUInt32 (x : UInt16) : narrow x.toUInt32 = some x := by
  rw [narrow, UInt16.toNat_toUInt32, u16TryFrom_toNat]

/-- A time that is not negative arrives. -/
theorem signedTime_max {time : Int64} (h : 0 ≤ time) : signedTime (max time 0).toUInt64 = time := by
  have hmax : max time 0 = time := by
    change (if time ≤ 0 then 0 else time) = time
    split
    · next hle => exact Int64.le_antisymm h hle
    · rfl
  have hlt : time.toUInt64.toNat < 2 ^ 63 := by
    rw [Int64.toNat_toUInt64_of_le h, Int64.toNatClampNeg]
    have := time.toInt_lt
    omega
  rw [hmax, signedTime, if_pos hlt, Int64.toInt64_toUInt64]

/-! ## What the receiver builds from the headers of a sender -/

/-- An antenna as it arrives: with a spectral mask the bandwidth is not sent. -/
def arrivingAntenna (antenna : MimoTxAntenna) : MimoTxAntenna :=
  { antenna with bandwidthHz := if antenna.spectralMaskIndex = 0 then antenna.bandwidthHz else 0 }

/-- MIMO properties as they arrive. -/
def arrivingMimo (mimo : MimoTxProperties) : MimoTxProperties :=
  { mimo with transmitAntennas := mimo.transmitAntennas.map arrivingAntenna }

section

variable {tx : TxProperties} {transmitters : TxTransmitters} {mimo : MimoTxProperties}
  {phySequence source : UInt16}

theorem receivedTransmitters_phyHeader :
    receivedTransmitters (phyHeader tx transmitters mimo phySequence) = transmitters := by
  unfold receivedTransmitters phyHeader
  dsimp only
  rw [List.filterMap_map]
  have hsome : (fun transmitter : CommonPhyHeader.Transmitter => do
      some ({ nemId := ← narrow transmitter.nemId, txPowerDbm := transmitter.powerdBm } :
        TxTransmitter)) ∘ (fun transmitter : TxTransmitter =>
      ({ nemId := transmitter.nemId.toUInt32, powerdBm := transmitter.txPowerDbm } :
        CommonPhyHeader.Transmitter)) = some := by
    funext transmitter
    simp
  rw [hsome, List.filterMap_some]

theorem narrow_mask (antenna : MimoTxAntenna) :
    narrow ((phyAntenna antenna).spectralMaskIndex.getD 0) = some antenna.spectralMaskIndex := by
  unfold phyAntenna
  dsimp only
  split
  · rw [Option.getD_some, narrow_toUInt32]
  · next hzero =>
      rw [not_not.mp hzero]
      rfl

/-- An antenna arrives with its pattern and its mask. -/
theorem receivedAntenna_phyAntenna (antenna : MimoTxAntenna) :
    receivedAntenna (phyAntenna antenna) = some (arrivingAntenna antenna) := by
  have hpattern : receivedPattern (phyAntenna antenna) = some antenna.pattern := by
    obtain ⟨group, index, bandwidth, mask, pattern⟩ := antenna
    cases pattern with
    | default => rfl
    | idealOmni gainDb => rfl
    | profile profile => simp [receivedPattern, phyAntenna, phyPattern]
  unfold receivedAntenna
  rw [hpattern, narrow_mask]
  simp only [phyAntenna, Option.bind_eq_bind, Option.bind_some, narrow_toUInt32]
  rfl

theorem receivedMimo_phyHeader (txPowerDbm : F64) :
    receivedMimo (phyHeader tx transmitters mimo phySequence) txPowerDbm = arrivingMimo mimo := by
  obtain ⟨groups, antennas⟩ := mimo
  unfold receivedMimo phyHeader arrivingMimo
  dsimp only
  have hgroups : (groups.map phyGroup).map (fun group => group.frequencySegments.map fun segment =>
      ({ frequencyHz := segment.frequencyHz
         txPowerDbm := segment.powerdBm.getD txPowerDbm
         durationMicroseconds := segment.durationMicroseconds
         offsetMicroseconds := segment.offsetMicroseconds } : MimoTxFrequencySegment)) = groups := by
    rw [List.map_map]
    refine (List.map_congr_left fun group _ => ?_).trans (List.map_id groups)
    rw [Function.comp_apply, phyGroup, List.map_map]
    exact (List.map_congr_left fun segment _ => rfl).trans (List.map_id group)
  have hantennas : (antennas.map phyAntenna).filterMap receivedAntenna = antennas.map arrivingAntenna := by
    rw [List.filterMap_map, ← List.filterMap_eq_map]
    exact List.filterMap_congr fun antenna _ => receivedAntenna_phyAntenna antenna
  rw [hgroups, hantennas]

/-- The transmit properties arrive with their sub-id, and with their time unless it is negative. -/
theorem receivedTx_phyHeader {antenna : MimoTxAntenna} {group : List MimoTxFrequencySegment}
    (hgroup : group ≠ []) (txPowerDbm : F64) :
    ∃ received, receivedTx (phyHeader tx transmitters mimo phySequence) (phyAntenna antenna)
        (phyGroup group) txPowerDbm = some received ∧
      (0 ≤ tx.txTimeMicroseconds → received.txTimeMicroseconds = tx.txTimeMicroseconds) ∧
      received.subId = tx.subId := by
  obtain ⟨segment, segments, rfl⟩ := List.exists_cons_of_ne_nil hgroup
  have hindex : narrow (phyAntenna antenna).antennaIndex = some antenna.antennaIndex :=
    narrow_toUInt32 antenna.antennaIndex
  have hsub : narrow (phyHeader tx transmitters mimo phySequence).subId = some tx.subId :=
    narrow_toUInt32 tx.subId
  unfold receivedTx
  rw [hindex, narrow_mask, hsub]
  exact ⟨_, rfl, signedTime_max, rfl⟩

end

/-! ## The frame -/

/-- A section is read where it stands. -/
theorem decodeSection_append (pre : Bytes) {bytes : Bytes} (post : Bytes)
    (hpre : pre.length < 2 ^ 32) {length : UInt16} (hlength : length.toNat = bytes.length) :
    decodeSection (pre ++ toBeBytes length ++ bytes ++ post) pre.length =
      some (bytes, pre.length + 2 + bytes.length) := by
  have hlt := length.toNat_lt
  have htwo : (toBeBytes length).length = 2 := by
    rw [BigEndian.length_toBeBytes, width_uint16]
  have hfirst := getRange_append pre (toBeBytes length) (bytes ++ post)
  have hsecond := getRange_append (pre ++ toBeBytes length) bytes post
  rw [← List.append_assoc, htwo] at hfirst
  rw [List.length_append, htwo] at hsecond
  unfold decodeSection
  rw [checkedAdd_eq (by omega)]
  simp only [Option.bind_eq_bind, Option.bind_some]
  rw [hfirst]
  simp only [Option.bind_some, BigEndian.fromBeBytes_toBeBytes]
  rw [hlength, checkedAdd_eq (by omega)]
  simp only [Option.bind_some]
  rw [hsecond]
  rfl

theorem frame_eq_some {phy header c : Bytes} {payload : FfiSlice UInt8}
    (h : frame phy header payload = some c) :
    ∃ (items : Bytes) (phyLength headerLength : UInt16), payload.get = some items ∧
      phyLength.toNat = phy.length ∧ headerLength.toNat = header.length ∧
      c = toBeBytes phyLength ++ phy ++ toBeBytes headerLength ++ header ++ items := by
  obtain ⟨items, hitems, h⟩ := Option.bind_eq_some_iff.mp h
  obtain ⟨phyLength, hphy, h⟩ := Option.bind_eq_some_iff.mp h
  obtain ⟨headerLength, hheader, h⟩ := Option.bind_eq_some_iff.mp h
  exact ⟨items, phyLength, headerLength, hitems, (u16TryFrom_eq_some.mp hphy).2,
    (u16TryFrom_eq_some.mp hheader).2, (Option.some.inj h).symm⟩

section

variable {prost : Prost} {phy : CommonPhyHeader} {mac : CommonMacHeader} {model : ModelHeader}
  {data payload : Bytes} {source : UInt16} {slice : FfiSlice UInt8}

/-- A MAC header is read where its section stands. -/
theorem decodeMac_of_section {o stop : ℕ} {bytes : Bytes}
    (hsection : decodeSection data o = some (bytes, stop)) (hmac : prost.mac.decode bytes = some mac) :
    decodeMac prost data o = some (some mac, stop) := by
  obtain ⟨start, hstart, h⟩ := Option.bind_eq_some_iff.mp hsection
  obtain ⟨lengthBytes, hlength, h⟩ := Option.bind_eq_some_iff.mp h
  obtain ⟨stop', hstop, h⟩ := Option.bind_eq_some_iff.mp h
  obtain ⟨bytes', hbytes, h⟩ := Option.bind_eq_some_iff.mp h
  obtain ⟨rfl, rfl⟩ := Prod.mk.inj (Option.some.inj h)
  unfold decodeMac
  simp only [Option.bind_eq_bind]
  rw [hstart, Option.bind_some, hlength]
  simp only
  rw [hstop, Option.bind_some, hbytes, Option.bind_some, hmac]

/-- **The headers of a packet are read back**; what is built from the PHY header decides whether the
packet is accepted. -/
theorem decode_frame (hphy : prost.phy.RoundTrips) (hmac : prost.mac.RoundTrips)
    (hframe : frame (prost.phy.encode phy) (prost.mac.encode mac) slice = some data)
    (hslice : slice.get = some payload) (hregistration : phy.registrationId = phyFrameworkRegistration)
    (hmodel : receivedModel mac = some model) :
    decodeLegacyOtaPayload prost data source = (phyControls phy source).map fun controls =>
      { payload, messages := control controlModelHeader model.encode :: controls } := by
  obtain ⟨items, phyLength, macLength, hitems, hphyLength, hmacLength, hdata⟩ := frame_eq_some hframe
  obtain rfl := Option.some.inj (hitems.symm.trans hslice)
  have hphyEnd : (toBeBytes phyLength ++ prost.phy.encode phy).length =
      2 + (prost.phy.encode phy).length := by
    rw [List.length_append, BigEndian.length_toBeBytes, width_uint16]
  have hmacEnd : (toBeBytes phyLength ++ prost.phy.encode phy ++ toBeBytes macLength ++
      prost.mac.encode mac).length =
      2 + (prost.phy.encode phy).length + 2 + (prost.mac.encode mac).length := by
    rw [List.length_append, List.length_append, hphyEnd, BigEndian.length_toBeBytes, width_uint16]
  -- the two sections stand one after the other, and the payload is the rest
  have hphySection : decodeSection data 0 =
      some (prost.phy.encode phy, 2 + (prost.phy.encode phy).length) := by
    have hread := decodeSection_append [] (toBeBytes macLength ++ prost.mac.encode mac ++ items)
      (by decide) hphyLength
    rw [hdata]
    simpa only [List.append_assoc, List.nil_append, List.length_nil, Nat.zero_add] using hread
  have hmacSection : decodeSection data (2 + (prost.phy.encode phy).length) =
      some (prost.mac.encode mac, 2 + (prost.phy.encode phy).length + 2 + (prost.mac.encode mac).length) := by
    have hlt := phyLength.toNat_lt
    have hread := decodeSection_append (toBeBytes phyLength ++ prost.phy.encode phy) items
      (by omega) hmacLength
    rw [hphyEnd] at hread
    rw [hdata]
    exact hread
  have hrest : getRange data (2 + (prost.phy.encode phy).length + 2 + (prost.mac.encode mac).length)
      data.length = some items := by
    have hread := getRange_append (toBeBytes phyLength ++ prost.phy.encode phy ++ toBeBytes macLength ++
      prost.mac.encode mac) items []
    rw [List.append_nil, ← hdata, hmacEnd] at hread
    have hend : data.length =
        2 + (prost.phy.encode phy).length + 2 + (prost.mac.encode mac).length + items.length := by
      rw [hdata, List.length_append, hmacEnd]
    rw [hend]
    exact hread
  have hnot : phyFrameworkRegistration ≠ phyCommEffectRegistration := by decide
  unfold decodeLegacyOtaPayload
  simp only [hphySection, Option.bind_eq_bind, Option.bind_some]
  rw [hphy phy]
  simp only [Option.bind_some]
  rw [hregistration, if_neg hnot, if_neg (not_not.mpr rfl)]
  unfold decodeRadio
  rw [decodeMac_of_section hmacSection (hmac mac)]
  simp only [Option.bind_eq_bind, Option.bind_some, modelControls, hmodel, Option.map_some]
  rw [hrest]
  cases phyControls phy source with
  | none => rfl
  | some controls => rfl

end

/-! ## What can be written as controls -/

section

variable {packet : FfiPacket} {messages : List FfiControlMessage} {tx : TxProperties}
  {mimo : MimoTxProperties} {kind : UInt32} {data : Bytes}

/-- A control that is found has the size of one. -/
theorem controlPayload_le (h : controlPayload messages kind = some data) :
    data.length ≤ maxControlWireSize := by
  obtain ⟨message, -, hmessage⟩ := List.exists_of_findSome?_eq_some h
  split at hmessage
  · cases hmessage
  · next hfits =>
      rw [FfiSlice.length_of_get hmessage]
      exact not_lt.mp (not_or.mp hfits).2

/-- Transmitters that came as a control can be written as one; the source can if it is a NEM and its
power is finite. -/
theorem sentTransmitters_encode_iff :
    (sentTransmitters packet messages tx).encode.isSome = true ↔
      (findTxTransmitters messages).isSome = true ∨
        packet.source ≠ 0 ∧ tx.txPowerDbm.isFinite = true := by
  unfold sentTransmitters
  cases hfind : findTxTransmitters messages with
  | some transmitters =>
      obtain ⟨data, -, haccepted⟩ := Option.bind_eq_some_iff.mp hfind
      obtain ⟨c, hc, -⟩ := TxTransmitters.exact.reencode data transmitters (accepted_eq_some.mp haccepted)
      simp [hc]
  | none =>
      simp [TxTransmitters.encode, encodeTable, u16TryFrom, TxTransmitter.entry]

theorem findMimoTxProperties_encodable (h : findMimoTxProperties messages = some mimo) :
    mimo.Encodable := by
  obtain ⟨data, -, haccepted⟩ := Option.bind_eq_some_iff.mp h
  exact (meets_iff.mp (MimoTxProperties.meets_decode data)).2 mimo (accepted_eq_some.mp haccepted)

/-- MIMO properties arrive with a different bandwidth at most. -/
theorem arrivingMimo_encodable : (arrivingMimo mimo).Encodable ↔ mimo.Encodable := by
  constructor
  · rintro ⟨hne, hlt, hane, halt, hgroup, hantenna⟩
    refine ⟨hne, hlt, ?_, ?_, hgroup, ?_⟩
    · exact fun hnil => hane (by unfold arrivingMimo; rw [hnil]; rfl)
    · simpa [arrivingMimo] using halt
    · exact fun antenna hmem => hantenna (arrivingAntenna antenna) (List.mem_map_of_mem hmem)
  · rintro ⟨hne, hlt, hane, halt, hgroup, hantenna⟩
    refine ⟨hne, hlt, ?_, ?_, hgroup, ?_⟩
    · exact fun hnil => hane (List.map_eq_nil_iff.mp hnil)
    · simpa [arrivingMimo] using halt
    · intro antenna hmem
      obtain ⟨sent, hsent, rfl⟩ := List.mem_map.mp hmem
      exact hantenna sent hsent

/-- The segments of a packet without MIMO control. -/
theorem singleSegments_spec (messages : List FfiControlMessage) (tx : TxProperties) :
    singleSegments messages tx ≠ [] ∧ (singleSegments messages tx).length < 65536 ∧
      ∀ segment ∈ singleSegments messages tx, segment.txPowerDbm = tx.txPowerDbm := by
  unfold singleSegments
  split
  · exact ⟨List.cons_ne_nil _ _, (show 1 < 65536 by decide), by simp⟩
  · next segments hfind =>
      obtain ⟨data, -, haccepted⟩ := Option.bind_eq_some_iff.mp hfind
      obtain ⟨c, hc, -⟩ := TxFrequencySegments.exact.reencode data segments
        (accepted_eq_some.mp haccepted)
      obtain ⟨count, hcount, hempty, -⟩ := encodeTable_eq_some.mp hc
      refine ⟨?_, ?_, by simp⟩
      · intro hnil
        have hzero : count.toNat = 0 := by
          rw [hcount, List.map_eq_nil_iff.mp hnil]
          rfl
        rw [Bool.true_and, ← toNat_beq_zero, hzero] at hempty
        cases hempty
      · rw [List.length_map, ← hcount]
        exact count.toNat_lt

/-- MIMO properties that came as a control can be written as one; a single antenna can if its power is
finite. -/
theorem sentMimo_encodable_iff :
    (sentMimo messages tx).Encodable ↔
      (findMimoTxProperties messages).isSome = true ∨ tx.txPowerDbm.isFinite = true := by
  unfold sentMimo
  cases hfind : findMimoTxProperties messages with
  | some mimo =>
      simp [findMimoTxProperties_encodable hfind]
  | none =>
      obtain ⟨hne, hlt, hpower⟩ := singleSegments_spec messages tx
      rw [Option.getD_none, Option.isSome_none]
      constructor
      · intro h
        right
        obtain ⟨segment, hsegment⟩ := List.exists_mem_of_ne_nil _ hne
        rw [← hpower segment hsegment]
        exact (h.group _ List.mem_cons_self).2.2 segment hsegment
      · intro h
        have hfinite : tx.txPowerDbm.isFinite = true := h.resolve_left (by decide)
        have hone : 1 < 65536 := by decide
        refine ⟨List.cons_ne_nil _ _, hone, List.cons_ne_nil _ _, hone, ?_, ?_⟩
        · intro group hgroup
          obtain rfl := List.mem_singleton.mp hgroup
          exact ⟨hne, hlt, fun segment hsegment => by rw [hpower segment hsegment, hfinite]⟩
        · intro antenna hantenna
          obtain rfl := List.mem_singleton.mp hantenna
          rfl

/-- A group of the MIMO properties is not empty, and its length has 16 bits. -/
theorem sentMimo_group {group : List MimoTxFrequencySegment}
    (hmem : group ∈ (sentMimo messages tx).frequencyGroups) : group ≠ [] ∧ group.length < 65536 := by
  unfold sentMimo at hmem
  cases hfind : findMimoTxProperties messages with
  | some mimo =>
      rw [hfind, Option.getD_some] at hmem
      obtain ⟨hne, hlt, -⟩ := (findMimoTxProperties_encodable hfind).group group hmem
      exact ⟨hne, hlt⟩
  | none =>
      rw [hfind, Option.getD_none] at hmem
      obtain rfl := List.mem_singleton.mp hmem
      obtain ⟨hne, hlt, -⟩ := singleSegments_spec messages tx
      exact ⟨hne, hlt⟩

/-- MIMO properties that arrive are not too long for a control. -/
theorem arrivingMimo_bytes_le :
    (arrivingMimo (sentMimo messages tx)).bytes.length ≤ maxControlWireSize := by
  have hlength : ∀ mimo, (arrivingMimo mimo).bytes.length = mimo.bytes.length := by
    intro mimo
    rw [MimoTxProperties.length_bytes, MimoTxProperties.length_bytes, arrivingMimo, List.length_map]
  rw [hlength]
  unfold sentMimo
  cases hfind : findMimoTxProperties messages with
  | some mimo =>
      obtain ⟨data, hdata, haccepted⟩ := Option.bind_eq_some_iff.mp hfind
      have hbytes := (meets_iff.mp (MimoTxProperties.meets_decode_length data)).2 mimo
        (accepted_eq_some.mp haccepted)
      rw [Option.getD_some, hbytes]
      exact controlPayload_le hdata
  | none =>
      have hlt := (singleSegments_spec messages tx).2.1
      rw [Option.getD_none, MimoTxProperties.length_bytes]
      change 5 + (2 + (singleSegments messages tx).length * 32 + 0) + 1 * 41 ≤ maxControlWireSize
      unfold maxControlWireSize
      omega

/-- The MIMO properties that a receiver is to have: those of the control, but for the bandwidths of antennas
with a spectral mask, or the single antenna of the transmit properties as it is. -/
def expectedMimo (messages : List FfiControlMessage) (tx : TxProperties) : MimoTxProperties :=
  match findMimoTxProperties messages with
  | some mimo => arrivingMimo mimo
  | none => singleAntenna messages tx

/-- A single antenna arrives as it is if there is no mask, or no bandwidth. -/
theorem arrivingMimo_singleAntenna : arrivingMimo (singleAntenna messages tx) = singleAntenna messages tx ↔
    tx.spectralMaskIndex = 0 ∨ tx.bandwidthHz = 0 := by
  simp only [arrivingMimo, singleAntenna, arrivingAntenna, List.map_cons, List.map_nil,
    MimoTxProperties.mk.injEq, List.cons.injEq, MimoTxAntenna.mk.injEq, true_and, and_true]
  by_cases hmask : tx.spectralMaskIndex = 0
  · simp [hmask]
  · simpa [hmask] using eq_comm

theorem arrivingMimo_eq_expectedMimo : arrivingMimo (sentMimo messages tx) = expectedMimo messages tx ↔
    (findMimoTxProperties messages).isSome = true ∨ tx.spectralMaskIndex = 0 ∨ tx.bandwidthHz = 0 := by
  unfold sentMimo expectedMimo
  cases findMimoTxProperties messages with
  | some mimo => exact iff_of_true rfl (.inl rfl)
  | none => exact arrivingMimo_singleAntenna.trans (or_iff_right Bool.false_ne_true).symm

/-- **What is built from the PHY header of a sender**, if the transmitters and the MIMO properties can be
written. -/
theorem phyControls_phyHeader {transmitters : TxTransmitters} {phySequence source : UInt16}
    {antenna : MimoTxAntenna} {group : List MimoTxFrequencySegment}
    (hsource : source ∈ transmitters.transmitters.map TxTransmitter.nemId)
    (hantenna : mimo.transmitAntennas.head? = some antenna)
    (hgroup : mimo.frequencyGroups[antenna.frequencyGroupIndex.toNat]? = some group)
    (hne : group ≠ []) (hlt : group.length < 65536) :
    ∃ (received : TxProperties) (segments : Bytes),
      (0 ≤ tx.txTimeMicroseconds → received.txTimeMicroseconds = tx.txTimeMicroseconds) ∧
      received.subId = tx.subId ∧ phyControls (phyHeader tx transmitters mimo phySequence) source =
        transmitters.encode.bind fun transmitters => (arrivingMimo mimo).encode.bind fun mimo =>
          some [control controlTxProperties received.encode,
            control controlTxFrequencySegments segments, control controlTxTransmitters transmitters,
            control controlMimoTxProperties mimo] := by
  have htransmitter : ∃ transmitter, (phyHeader tx transmitters mimo phySequence).transmitters.find?
      (fun transmitter => transmitter.nemId = source.toUInt32) = some transmitter := by
    rw [← Option.isSome_iff_exists, List.find?_isSome]
    obtain ⟨transmitter, hmem, rfl⟩ := List.mem_map.mp hsource
    exact ⟨_, List.mem_map_of_mem hmem, by simp⟩
  obtain ⟨transmitter, htransmitter⟩ := htransmitter
  have hhead : (phyHeader tx transmitters mimo phySequence).transmitAntennas.head? =
      some (phyAntenna antenna) := by
    unfold phyHeader
    rw [List.head?_map, hantenna]
    rfl
  have hindex : (phyHeader tx transmitters mimo phySequence).frequencyGroups[
      (phyAntenna antenna).frequencyGroupIndex.toNat]? = some (phyGroup group) := by
    change (mimo.frequencyGroups.map phyGroup)[antenna.frequencyGroupIndex.toUInt32.toNat]? = _
    rw [UInt16.toNat_toUInt32, List.getElem?_map, hgroup]
    rfl
  have htx : ∃ received, receivedTx (phyHeader tx transmitters mimo phySequence) (phyAntenna antenna)
      (phyGroup group) transmitter.powerdBm = some received ∧
        (0 ≤ tx.txTimeMicroseconds → received.txTimeMicroseconds = tx.txTimeMicroseconds) ∧
        received.subId = tx.subId :=
    receivedTx_phyHeader hne transmitter.powerdBm
  obtain ⟨received, hreceived, hreceivedTime, hsub⟩ := htx
  have hsegments : ∃ segments, (receivedSegments (phyGroup group)).encode = some segments := by
    refine ⟨_, encodeTable_eq_some.mpr ⟨UInt16.ofNat group.length, ?_, ?_, ?_, rfl⟩⟩
    · rw [UInt16.toNat_ofNat_of_lt' hlt, receivedSegments, phyGroup, List.length_map, List.length_map]
    · rw [Bool.true_and]
      exact beq_false_of_ne (ofNat_ne_zero hlt fun hzero => hne (List.length_eq_zero_iff.mp hzero))
    · exact List.any_eq_false.mpr fun segment _ => by simp [TxFrequencySegment.entry]
  obtain ⟨segments, hsegments⟩ := hsegments
  refine ⟨received, segments, hreceivedTime, hsub, ?_⟩
  unfold phyControls
  rw [htransmitter]
  simp only [Option.bind_eq_bind, Option.bind_some]
  rw [hhead, Option.bind_some, hindex, Option.bind_some, hreceived, Option.bind_some, hsegments,
    Option.bind_some, receivedTransmitters_phyHeader, receivedMimo_phyHeader]

end

/-! ## What arrives -/

/-- A packet arrives with its payload, the identification of its model, its time and its sub-id, its
transmitters, and these MIMO properties. -/
structure Recovered (packet : FfiPacket) (model : ModelHeader) (tx : TxProperties)
    (transmitters : TxTransmitters) (mimo : MimoTxProperties) (decoded : DecodedLegacyOta) : Prop where
  payload : packet.payload.get = some decoded.payload
  model : ∃ received, findModelHeader decoded.messages = some received ∧
    received.registrationId = model.registrationId ∧ received.sequence = model.sequence
  tx : ∃ received, findTxProperties decoded.messages = some received ∧
    received.txTimeMicroseconds = tx.txTimeMicroseconds ∧ received.subId = tx.subId
  transmitters : findTxTransmitters decoded.messages = some transmitters
  mimo : findMimoTxProperties decoded.messages = some mimo

section

variable {messages : List FfiControlMessage} {kind msgType : UInt32} {payload : Bytes}

theorem controlPayload_control (hle : payload.length ≤ maxControlWireSize) :
    controlPayload (control kind payload :: messages) kind = some payload := by
  have hfits : ¬ ((control kind payload).msgType ≠ kind ∨
      maxControlWireSize < (control kind payload).payload.len) :=
    not_or.mpr ⟨not_not.mpr rfl, not_lt.mpr hle⟩
  unfold controlPayload
  rw [List.findSome?_cons, if_neg hfits]
  rfl

theorem controlPayload_of_ne (hne : msgType ≠ kind) :
    controlPayload (control msgType payload :: messages) kind = controlPayload messages kind := by
  unfold controlPayload
  rw [List.findSome?_cons, if_pos (.inl hne)]

theorem findTxProperties_control (tx : TxProperties) :
    findTxProperties (control controlTxProperties tx.encode :: messages) = some tx := by
  have hfits : ¬ ((control controlTxProperties tx.encode).msgType ≠ controlTxProperties ∨
      (control controlTxProperties tx.encode).payload.len ≠ 55) :=
    not_or.mpr ⟨not_not.mpr rfl, not_not.mpr tx.length_encode⟩
  have haccepted : accepted (TxProperties.decode tx.encode)
      (meets_iff.mp (TxProperties.meets_decode tx.encode)).1 = some tx :=
    accepted_eq_some.mpr tx.decode_encode
  unfold findTxProperties
  rw [List.findSome?_cons, if_neg hfits]
  simp only [control, FfiSlice.get, Option.bind_some, haccepted]

theorem findTxProperties_of_ne (hne : msgType ≠ controlTxProperties) :
    findTxProperties (control msgType payload :: messages) = findTxProperties messages := by
  unfold findTxProperties
  rw [List.findSome?_cons, if_pos (.inl hne)]

end

theorem length_encode_transmitters {transmitters : TxTransmitters} {c : Bytes}
    (h : transmitters.encode = some c) : c.length ≤ maxControlWireSize := by
  obtain ⟨count, hcount, -, -, rfl⟩ := encodeTable_eq_some.mp h
  have hentries : (transmitters.transmitters.flatMap TxTransmitter.entry.write).length =
      transmitters.transmitters.length * 10 := length_flatMap_const fun _ _ => rfl
  have hlt := count.toNat_lt
  rw [List.length_append, List.length_append, hentries, BigEndian.length_toBeBytes, width_uint16,
    List.length_singleton]
  unfold maxControlWireSize
  omega

section

variable {packet : FfiPacket} {model received : ModelHeader} {tx receivedTx : TxProperties}
  {transmitters : TxTransmitters} {mimo : MimoTxProperties} {payload c d : Bytes}

/-- The transmitters stand in the third of the controls that are built from the PHY header. -/
theorem findTxTransmitters_controls (model tx segments d : Bytes) (htransmitters : transmitters.encode = some c) :
    findTxTransmitters [control controlModelHeader model, control controlTxProperties tx,
      control controlTxFrequencySegments segments, control controlTxTransmitters c,
      control controlMimoTxProperties d] = some transmitters := by
  unfold findTxTransmitters
  rw [controlPayload_of_ne (by decide), controlPayload_of_ne (by decide),
    controlPayload_of_ne (by decide),
    controlPayload_control (length_encode_transmitters htransmitters), Option.bind_some]
  exact accepted_eq_some.mpr (TxTransmitters.exact.decode_encode transmitters c htransmitters)

/-- The controls that the receiver has built say what was sent. -/
theorem recovered_controls (segments : Bytes) (hpayload : packet.payload.get = some payload)
    (hid : received.registrationId = model.registrationId)
    (hsequence : received.sequence = model.sequence)
    (htime : receivedTx.txTimeMicroseconds = tx.txTimeMicroseconds)
    (hsub : receivedTx.subId = tx.subId) (htransmitters : transmitters.encode = some c)
    (hmimo : mimo.encode = some d) (hle : d.length ≤ maxControlWireSize) :
    Recovered packet model tx transmitters mimo
      { payload
        messages := [control controlModelHeader received.encode,
          control controlTxProperties receivedTx.encode,
          control controlTxFrequencySegments segments, control controlTxTransmitters c,
          control controlMimoTxProperties d] } where
  payload := hpayload
  model := by
    refine ⟨received, ?_, hid, hsequence⟩
    unfold findModelHeader
    rw [controlPayload_control (by rw [received.length_encode]; decide), Option.bind_some]
    exact accepted_eq_some.mpr received.decode_encode
  tx := by
    refine ⟨receivedTx, ?_, htime, hsub⟩
    rw [findTxProperties_of_ne (by decide), findTxProperties_control]
  transmitters := findTxTransmitters_controls _ _ _ _ htransmitters
  mimo := by
    unfold findMimoTxProperties
    rw [controlPayload_of_ne (by decide), controlPayload_of_ne (by decide),
      controlPayload_of_ne (by decide), controlPayload_of_ne (by decide), controlPayload_control hle,
      Option.bind_some]
    exact accepted_eq_some.mpr (MimoTxProperties.exact.decode_encode _ d hmimo)

theorem receivedModel_eq (model : ModelHeader) :
    ∃ received, receivedModel
        { registrationId := model.registrationId.toUInt32, sequenceNumber := model.sequence } =
          some received ∧
      received.registrationId = model.registrationId ∧ received.sequence = model.sequence := by
  unfold receivedModel
  rw [narrow_toUInt32]
  exact ⟨_, rfl, rfl, rfl⟩

end

/-- **The legacy form is read back exactly when the receiver can write the controls and nothing is left
out**: the transmitters came as a control, or the source is a NEM with a finite power; the MIMO properties
came as a control, or the power is finite; and they came as a control, or the transmit properties have no
spectral mask, or no bandwidth. -/
theorem legacy_recovered_iff {prost : Prost} (hphy : prost.phy.RoundTrips)
    (hmac : prost.mac.RoundTrips) {packet : FfiPacket} {messages : FfiSlice FfiControlMessage}
    {list : List FfiControlMessage} {phySequence source : UInt16} {data : Bytes} {model : ModelHeader}
    {tx : TxProperties} {antenna : MimoTxAntenna} {group : List MimoTxFrequencySegment}
    (hencode : encodeLegacyOtaPayload prost packet messages phySequence = some data)
    (hlist : ffiControlMessages messages = some list) (hmodel : findModelHeader list = some model)
    (htx : findTxProperties list = some tx) (htime : 0 ≤ tx.txTimeMicroseconds)
    (hsource : source ∈ (sentTransmitters packet list tx).transmitters.map TxTransmitter.nemId)
    (hantenna : (sentMimo list tx).transmitAntennas.head? = some antenna)
    (hgroup : (sentMimo list tx).frequencyGroups[antenna.frequencyGroupIndex.toNat]? = some group)
    (hne : group ≠ []) :
    (∃ decoded, decodeLegacyOtaPayload prost data source = some decoded ∧
        Recovered packet model tx (sentTransmitters packet list tx) (expectedMimo list tx) decoded) ↔
      ((findTxTransmitters list).isSome = true ∨
          packet.source ≠ 0 ∧ tx.txPowerDbm.isFinite = true) ∧
        ((findMimoTxProperties list).isSome = true ∨ tx.txPowerDbm.isFinite = true) ∧
        ((findMimoTxProperties list).isSome = true ∨ tx.spectralMaskIndex = 0 ∨ tx.bandwidthHz = 0) := by
  have hframe : frame (prost.phy.encode (phyHeader tx (sentTransmitters packet list tx)
      (sentMimo list tx) phySequence)) (prost.mac.encode
        { registrationId := model.registrationId.toUInt32, sequenceNumber := model.sequence })
      packet.payload = some data := by
    rw [encodeLegacyOtaPayload, hlist, Option.bind_eq_bind, Option.bind_some] at hencode
    simp only [hmodel, htx, Option.bind_eq_bind, Option.bind_some] at hencode
    exact hencode
  obtain ⟨payload, -, -, hpayload, -⟩ := frame_eq_some hframe
  obtain ⟨received, hreceived, hid, hsequence⟩ := receivedModel_eq model
  have hlt : group.length < 65536 := (sentMimo_group (List.mem_of_getElem? hgroup)).2
  have hcontrols : ∃ (receivedTx : TxProperties) (segments : Bytes),
      (0 ≤ tx.txTimeMicroseconds → receivedTx.txTimeMicroseconds = tx.txTimeMicroseconds) ∧
      receivedTx.subId = tx.subId ∧
      phyControls (phyHeader tx (sentTransmitters packet list tx) (sentMimo list tx) phySequence)
        source = _ := phyControls_phyHeader hsource hantenna hgroup hne hlt
  obtain ⟨receivedTx, segments, hreceivedTime, hsub, hcontrols⟩ := hcontrols
  have hreceivedTime := hreceivedTime htime
  rw [decode_frame hphy hmac hframe hpayload rfl hreceived, hcontrols, ← sentTransmitters_encode_iff,
    ← sentMimo_encodable_iff, ← arrivingMimo_encodable, ← arrivingMimo_eq_expectedMimo]
  have hle : ∀ {d : Bytes}, (arrivingMimo (sentMimo list tx)).encode = some d →
      d.length ≤ maxControlWireSize :=
    fun hd => (MimoTxProperties.encode_eq_some.mp hd).2 ▸ arrivingMimo_bytes_le
  constructor
  -- the receiver encodes the transmitters first, and then the MIMO properties
  · rintro ⟨decoded, hdecoded, hexpected⟩
    obtain ⟨controls, hcontrols, hbuilt⟩ := Option.map_eq_some_iff.mp hdecoded
    obtain ⟨c, hc, hcontrols⟩ := Option.bind_eq_some_iff.mp hcontrols
    obtain ⟨d, hd, hcontrols⟩ := Option.bind_eq_some_iff.mp hcontrols
    obtain rfl := Option.some.inj hcontrols
    subst hbuilt
    refine ⟨by rw [hc]; rfl, (MimoTxProperties.encode_eq_some.mp hd).1, ?_⟩
    have harrived := recovered_controls segments hpayload hid hsequence hreceivedTime hsub hc hd (hle hd)
    exact Option.some.inj (harrived.mimo.symm.trans hexpected.mimo)
  · rintro ⟨htransmitters, hencodable, hexpected⟩
    obtain ⟨c, hc⟩ := Option.isSome_iff_exists.mp htransmitters
    have hd := MimoTxProperties.encode_eq_some.mpr ⟨hencodable, rfl⟩
    have harrived := recovered_controls segments hpayload hid hsequence hreceivedTime hsub hc hd (hle hd)
    rw [hc, hd]
    exact ⟨_, rfl, hexpected ▸ harrived⟩

/-- A packet with three bytes from NEM 1, sent by a radio model with the given power. -/
def threeBytes : FfiPacket where
  source := 1
  payload := .data [9, 8, 7]

def threeBytesModel : ModelHeader where
  registrationId := 4
  sequence := 42
  dataRateBps := 1000000
  category := 0
  messageType := 0
  flags := 0

def threeBytesTx (txPowerDbm : F64) : TxProperties where
  frequencyHz := 2400000000
  bandwidthHz := 1000000
  txPowerDbm
  durationMicroseconds := 100
  offsetMicroseconds := 0
  txTimeMicroseconds := 123456
  antennaIndex := 0
  spectralMaskIndex := 0
  subId := 1

def threeBytesControls (txPowerDbm : F64) : List FfiControlMessage :=
  [control controlModelHeader threeBytesModel.encode,
    control controlTxProperties (threeBytesTx txPowerDbm).encode]

/-- With a power of 5 dBm the packet arrives. -/
theorem legacy_recovered_iff_threeBytes :
    ∃ data, encodeLegacyOtaPayload protobuf threeBytes (.data (threeBytesControls ⟨0x4014000000000000⟩))
        7 = some data ∧
      ∃ decoded, decodeLegacyOtaPayload protobuf data 1 = some decoded ∧
        Recovered threeBytes threeBytesModel (threeBytesTx ⟨0x4014000000000000⟩)
          (sentTransmitters threeBytes (threeBytesControls ⟨0x4014000000000000⟩)
            (threeBytesTx ⟨0x4014000000000000⟩))
          (expectedMimo (threeBytesControls ⟨0x4014000000000000⟩) (threeBytesTx ⟨0x4014000000000000⟩))
          decoded := by
  have hsome : (encodeLegacyOtaPayload protobuf threeBytes
      (.data (threeBytesControls ⟨0x4014000000000000⟩)) 7).isSome = true := by decide +kernel
  obtain ⟨data, hdata⟩ := Option.isSome_iff_exists.mp hsome
  have hantenna : (sentMimo (threeBytesControls ⟨0x4014000000000000⟩)
      (threeBytesTx ⟨0x4014000000000000⟩)).transmitAntennas.head? =
        some ⟨0, 0, 1000000, 0, .default⟩ := by decide +kernel
  have hgroup : (sentMimo (threeBytesControls ⟨0x4014000000000000⟩)
      (threeBytesTx ⟨0x4014000000000000⟩)).frequencyGroups[(0 : UInt16).toNat]? =
        some [⟨2400000000, ⟨0x4014000000000000⟩, 100, 0⟩] := by decide +kernel
  refine ⟨data, hdata, ?_⟩
  exact (legacy_recovered_iff (serialization_roundTrips _) (serialization_roundTrips _) hdata rfl
    (by decide +kernel) (by decide +kernel) (by decide) (by decide +kernel) hantenna hgroup
    (List.cons_ne_nil _ _)).mpr (by decide +kernel)

/-- With a spectral mask of its own the bandwidth of the transmit properties is not sent. -/
example : (phyHeader { threeBytesTx ⟨0⟩ with spectralMaskIndex := 3 } ⟨[]⟩
    (singleAntenna [] { threeBytesTx ⟨0⟩ with spectralMaskIndex := 3 }) 7).transmitAntennas.map
      (·.bandwidthHz) = [0] := by decide

/-- **A power that is not a number is sent and refused**: the transmit properties of this packet have a
time that is not negative, its source is its transmitter and its frequency group has a segment. -/
theorem nan_power_refused :
    findModelHeader (threeBytesControls ⟨0x7ff8000000000000⟩) = some threeBytesModel ∧
    findTxProperties (threeBytesControls ⟨0x7ff8000000000000⟩) =
      some (threeBytesTx ⟨0x7ff8000000000000⟩) ∧
    0 ≤ (threeBytesTx ⟨0x7ff8000000000000⟩).txTimeMicroseconds ∧
    1 ∈ (sentTransmitters threeBytes (threeBytesControls ⟨0x7ff8000000000000⟩)
      (threeBytesTx ⟨0x7ff8000000000000⟩)).transmitters.map TxTransmitter.nemId ∧
    (sentMimo (threeBytesControls ⟨0x7ff8000000000000⟩)
      (threeBytesTx ⟨0x7ff8000000000000⟩)).frequencyGroups.map List.length = [1] ∧
    ∃ data, encodeLegacyOtaPayload protobuf threeBytes
        (.data (threeBytesControls ⟨0x7ff8000000000000⟩)) 7 = some data ∧
      decodeLegacyOtaPayload protobuf data 1 = none := by
  have hrefused : (encodeLegacyOtaPayload protobuf threeBytes
      (.data (threeBytesControls ⟨0x7ff8000000000000⟩)) 7).isSome = true ∧
      ((encodeLegacyOtaPayload protobuf threeBytes
        (.data (threeBytesControls ⟨0x7ff8000000000000⟩)) 7).bind fun data =>
          decodeLegacyOtaPayload protobuf data 1) = none := by decide +kernel
  obtain ⟨data, hdata⟩ := Option.isSome_iff_exists.mp hrefused.1
  refine ⟨by decide +kernel, by decide +kernel, by decide, by decide +kernel, by decide +kernel,
    data, hdata, ?_⟩
  have hnone := hrefused.2
  rw [hdata, Option.bind_some] at hnone
  exact hnone

end Emane.LegacyOta
