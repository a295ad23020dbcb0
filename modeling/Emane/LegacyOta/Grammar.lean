import Mathlib
import Emane.LegacyOta.RoundTrip

set_option autoImplicit false

/-! # The byte strings that are packets in the legacy form

The receiver tries to read every packet as one in the legacy form. The strings with which it succeeds are
described here by what stands in them (`LegacyForm`): which headers follow each other behind their lengths,
and what the fields of the headers have to be. The offsets of the decoder do not occur in the description.
`decodeLegacyOtaPayload_isSome_iff` says that it is the right one.
-/

namespace Emane.LegacyOta

open Emane.Lib Emane.PluginApi

/-! ## The form -/

/-- A byte string behind its 16-bit length. -/
def framed (bytes : Bytes) : Bytes := toBeBytes (UInt16.ofNat bytes.length) ++ bytes

namespace CommonPhyHeader

/-- The numbers of an antenna that the receiver needs have 16 bits. -/
def TransmitAntenna.Narrow (antenna : TransmitAntenna) : Prop :=
  antenna.frequencyGroupIndex.toNat < 65536 ∧ antenna.antennaIndex.toNat < 65536 ∧
    (antenna.spectralMaskIndex.getD 0).toNat < 65536 ∧
    (antenna.fixedGaindBi = none → ∀ pointing ∈ antenna.pointing, pointing.profileId.toNat < 65536)

/-- The gain of an antenna is finite, or its profile is one and the angles are in range. -/
def TransmitAntenna.InRange (antenna : TransmitAntenna) : Prop :=
  (∀ gainDb ∈ antenna.fixedGaindBi, gainDb.isFinite = true) ∧
    (antenna.fixedGaindBi = none → ∀ pointing ∈ antenna.pointing, TxAntennaProfile.valid {
      profileId := UInt16.ofNat pointing.profileId.toNat
      azimuthDegrees := pointing.azimuthDegrees
      elevationDegrees := pointing.elevationDegrees } = true)

instance (antenna : TransmitAntenna) : Decidable antenna.Narrow :=
  inferInstanceAs (Decidable (_ ∧ _ ∧ _ ∧
    (antenna.fixedGaindBi = none → ∀ pointing ∈ antenna.pointing, _)))

/-- A PHY header that can be turned into controls, of a packet that `transmitter` has sent with `antenna`
on the frequencies of `group`. -/
structure Form (phy : CommonPhyHeader) (source : UInt16) (transmitter : Transmitter)
    (antenna : TransmitAntenna) (group : FrequencyGroup) : Prop where
  transmitter_eq : phy.transmitters.find? (fun transmitter => transmitter.nemId = source.toUInt32) =
    some transmitter
  antenna_eq : phy.transmitAntennas.head? = some antenna
  group_eq : phy.frequencyGroups[antenna.frequencyGroupIndex.toNat]? = some group
  subId : phy.subId.toNat < 65536
  antennaIndex : antenna.antennaIndex.toNat < 65536
  spectralMaskIndex : (antenna.spectralMaskIndex.getD 0).toNat < 65536
  transmitters_lt : phy.transmitters.countP (fun transmitter => transmitter.nemId.toNat < 65536) < 65536
  transmitters : ∀ transmitter ∈ phy.transmitters, transmitter.nemId.toNat < 65536 →
    transmitter.nemId ≠ 0 ∧ transmitter.powerdBm.isFinite = true
  groups_lt : phy.frequencyGroups.length < 65536
  groups : ∀ group ∈ phy.frequencyGroups, group.frequencySegments ≠ [] ∧
    group.frequencySegments.length < 65536 ∧ ∀ segment ∈ group.frequencySegments,
      (segment.powerdBm.getD transmitter.powerdBm).isFinite = true
  antennas_pos : 0 < phy.transmitAntennas.countP (fun antenna => antenna.Narrow)
  antennas_lt : phy.transmitAntennas.countP (fun antenna => antenna.Narrow) < 65536
  antennas : ∀ antenna ∈ phy.transmitAntennas, antenna.Narrow → antenna.InRange

end CommonPhyHeader

/-- What follows the PHY header of a packet of the effects shim: the header of the shim, and the payload. -/
def ShimForm (prost : Prost) (rest : Bytes) : Prop :=
  ∃ bytes payload, bytes.length < 65536 ∧ rest = framed bytes ++ payload ∧
    (prost.shim.decode bytes).isSome = true

/-- What follows the PHY header of a packet of a radio model: a MAC header or something else behind its
length, and the payload; or not even a length. -/
def MacForm (prost : Prost) (rest : Bytes) : Prop :=
  rest.length < 2 ∨ ∃ bytes payload, bytes.length < 65536 ∧ rest = framed bytes ++ payload ∧
    ∀ mac, prost.mac.decode bytes = some mac → mac.registrationId.toNat < 65536

/-- **The packets in the legacy form** that `source` can have sent. -/
def LegacyForm (prost : Prost) (source : UInt16) (data : Bytes) : Prop :=
  ∃ bytes rest phy, bytes.length < 65536 ∧ data = framed bytes ++ rest ∧
    prost.phy.decode bytes = some phy ∧
    (phy.registrationId = phyCommEffectRegistration ∧ ShimForm prost rest ∨
      phy.registrationId = phyFrameworkRegistration ∧ MacForm prost rest ∧
        ∃ transmitter antenna group, phy.Form source transmitter antenna group)

/-! ## Sections -/

section

variable {data pre rest bytes : Bytes} {lo hi stop : ℕ}

@[simp]
theorem length_framed (bytes : Bytes) : (framed bytes).length = 2 + bytes.length := by
  rw [framed, List.length_append, BigEndian.length_toBeBytes, width_uint16]

theorem getRange_some (h : getRange data lo hi = some bytes) :
    lo ≤ hi ∧ hi ≤ data.length ∧ StandsAt data lo bytes ∧ lo + bytes.length = hi := by
  unfold getRange at h
  split at h
  · next hfits =>
      obtain rfl := Option.some.inj h
      refine ⟨hfits.1, hfits.2, standsAt_extract data lo hi, ?_⟩
      rw [List.extract_eq_take_drop, List.length_take, List.length_drop]
      omega
  · cases h

theorem getRange_to_end (h : lo ≤ data.length) : ∃ bytes, getRange data lo data.length = some bytes :=
  ⟨_, if_pos ⟨h, le_rfl⟩⟩

/-- **A section is a framed string**, and it ends where the string does. -/
theorem decodeSection_eq_some_iff (hpre : pre.length < 2 ^ 32) :
    decodeSection (pre ++ rest) pre.length = some (bytes, stop) ↔
      bytes.length < 65536 ∧ (∃ post, rest = framed bytes ++ post) ∧
        stop = pre.length + (framed bytes).length := by
  constructor
  · intro h
    obtain ⟨start, hstart, h⟩ := Option.bind_eq_some_iff.mp h
    obtain ⟨lengthBytes, hlengthBytes, h⟩ := Option.bind_eq_some_iff.mp h
    obtain ⟨stop', hstop, h⟩ := Option.bind_eq_some_iff.mp h
    obtain ⟨bytes', hbytes, h⟩ := Option.bind_eq_some_iff.mp h
    obtain ⟨rfl, rfl⟩ := Prod.mk.inj (Option.some.inj h)
    obtain rfl := (checkedAdd_eq_some hstart).1
    obtain rfl := (checkedAdd_eq_some hstop).1
    obtain ⟨-, -, hfirst, htwo⟩ := getRange_some hlengthBytes
    obtain ⟨-, -, hsecond, hlength⟩ := getRange_some hbytes
    have hlt := (fromBeBytes lengthBytes : UInt16).toNat_lt
    -- the length that was read is that of the bytes behind it
    have hwritten : toBeBytes (UInt16.ofNat bytes'.length) = lengthBytes := by
      have heq : bytes'.length = (fromBeBytes lengthBytes : UInt16).toNat := by omega
      rw [heq, UInt16.ofNat_toNat]
      exact BigEndianExact.toBeBytes_fromBeBytes lengthBytes (by rw [width_uint16]; omega)
    have hstands : StandsAt (pre ++ rest) pre.length (framed bytes') := by
      rw [framed, hwritten, standsAt_append]
      refine ⟨hfirst, ?_⟩
      rw [show lengthBytes.length = 2 by omega]
      exact hsecond
    rw [StandsAt, List.drop_left] at hstands
    obtain ⟨post, hpost⟩ := hstands
    refine ⟨by omega, ⟨post, hpost.symm⟩, ?_⟩
    rw [length_framed]
    omega
  · rintro ⟨hlt, ⟨post, rfl⟩, rfl⟩
    have hread := decodeSection_append pre post hpre (UInt16.toNat_ofNat_of_lt' hlt)
    rw [length_framed, ← Nat.add_assoc, ← hread, framed]
    simp only [List.append_assoc]

/-- The first section of the data. -/
theorem decodeSection_zero_eq_some_iff : decodeSection data 0 = some (bytes, stop) ↔
    bytes.length < 65536 ∧ (∃ post, data = framed bytes ++ post) ∧ stop = (framed bytes).length := by
  have hread := @decodeSection_eq_some_iff [] data bytes stop (by decide)
  rwa [List.length_nil, Nat.zero_add, List.nil_append] at hread

/-- A length is read unless fewer than two bytes are left. -/
theorem getRange_length_eq_none_iff :
    getRange (pre ++ rest) pre.length (pre.length + 2) = none ↔ rest.length < 2 := by
  unfold getRange
  rw [List.length_append]
  split
  · next hfits => exact iff_of_false (Option.some_ne_none _) (by omega)
  · next hfits => exact iff_of_true rfl (by omega)

end

/-! ## What follows the PHY header -/

section

variable {prost : Prost} {pre rest : Bytes} {stop : ℕ}

theorem narrow_isSome {x : UInt32} : (narrow x).isSome = true ↔ x.toNat < 65536 := by
  unfold narrow u16TryFrom
  split
  · next hlt => exact iff_of_true rfl hlt
  · next hge => exact iff_of_false Bool.false_ne_true hge

theorem narrow_eq_some {x : UInt32} {y : UInt16} (h : narrow x = some y) :
    x.toNat < 65536 ∧ y = UInt16.ofNat x.toNat := u16TryFrom_some_iff.mp h

theorem modelControls_isSome {mac : Option CommonMacHeader} :
    (modelControls mac).isSome = true ↔ ∀ m ∈ mac, m.registrationId.toNat < 65536 := by
  cases mac with
  | none => simp [modelControls]
  | some mac =>
      have hmodel : (receivedModel mac).isSome = (narrow mac.registrationId).isSome := by
        unfold receivedModel
        cases narrow mac.registrationId <;> rfl
      rw [modelControls, Option.isSome_map, hmodel, narrow_isSome]
      simp

/-- Where the payload of a packet of a radio model begins, and the MAC header in front of it. -/
theorem decodeMac_eq_some_iff (hpre : pre.length < 2 ^ 32) {mac : Option CommonMacHeader} :
    decodeMac prost (pre ++ rest) pre.length = some (mac, stop) ↔
      rest.length < 2 ∧ mac = none ∧ stop = pre.length ∨
      ∃ bytes payload, bytes.length < 65536 ∧ rest = framed bytes ++ payload ∧
        mac = prost.mac.decode bytes ∧
        stop = if mac.isSome then pre.length + (framed bytes).length else pre.length := by
  have hstart : checkedAdd pre.length 2 = some (pre.length + 2) := checkedAdd_eq (by omega)
  cases hlength : getRange (pre ++ rest) pre.length (pre.length + 2) with
  | none =>
      have hshort := getRange_length_eq_none_iff.mp hlength
      have hmac : decodeMac prost (pre ++ rest) pre.length = some (none, pre.length) := by
        unfold decodeMac
        rw [hstart, Option.bind_eq_bind, Option.bind_some, hlength]
      rw [hmac, Option.some.injEq, Prod.mk.injEq]
      constructor
      · rintro ⟨rfl, rfl⟩
        exact .inl ⟨hshort, rfl, rfl⟩
      · rintro (⟨-, rfl, rfl⟩ | ⟨bytes, payload, -, rfl, -⟩)
        · exact ⟨rfl, rfl⟩
        · rw [List.length_append, length_framed] at hshort
          omega
  | some lengthBytes =>
      have hlong : ¬ rest.length < 2 := fun hshort =>
        absurd (getRange_length_eq_none_iff.mpr hshort) (by rw [hlength]; exact Option.some_ne_none _)
      -- behind the length the decoder reads a section
      have hmac : decodeMac prost (pre ++ rest) pre.length =
          (decodeSection (pre ++ rest) pre.length).bind fun r =>
            some (prost.mac.decode r.1, if (prost.mac.decode r.1).isSome then r.2 else pre.length) := by
        unfold decodeMac decodeSection
        simp only [hstart, Option.bind_eq_bind, Option.bind_some, hlength]
        cases checkedAdd (pre.length + 2) (fromBeBytes lengthBytes : UInt16).toNat with
        | none => rfl
        | some stop' =>
            simp only [Option.bind_some]
            cases getRange (pre ++ rest) (pre.length + 2) stop' with
            | none => rfl
            | some bytes =>
                simp only [Option.bind_some]
                cases prost.mac.decode bytes <;> rfl
      rw [hmac, Option.bind_eq_some_iff]
      constructor
      · rintro ⟨⟨bytes, stop'⟩, hsection, h⟩
        obtain ⟨hlt, ⟨payload, hrest⟩, rfl⟩ := (decodeSection_eq_some_iff hpre).mp hsection
        obtain ⟨rfl, rfl⟩ := Prod.mk.inj (Option.some.inj h)
        exact .inr ⟨bytes, payload, hlt, hrest, rfl, rfl⟩
      · rintro (⟨hshort, -⟩ | ⟨bytes, payload, hlt, hrest, rfl, rfl⟩)
        · exact absurd hshort hlong
        · exact ⟨(bytes, pre.length + (framed bytes).length),
            (decodeSection_eq_some_iff hpre).mpr ⟨hlt, ⟨payload, hrest⟩, rfl⟩, rfl⟩

/-- **The MAC part of a packet is read exactly when it has its form.** -/
theorem macForm_iff (hpre : pre.length < 2 ^ 32) :
    MacForm prost rest ↔ ∃ mac stop, decodeMac prost (pre ++ rest) pre.length = some (mac, stop) ∧
      (modelControls mac).isSome = true ∧ stop ≤ (pre ++ rest).length := by
  simp only [decodeMac_eq_some_iff hpre, modelControls_isSome]
  constructor
  · rintro (hshort | ⟨bytes, payload, hlt, rfl, hmac⟩)
    · exact ⟨none, _, .inl ⟨hshort, rfl, rfl⟩, by simp, by rw [List.length_append]; omega⟩
    · refine ⟨_, _, .inr ⟨bytes, payload, hlt, rfl, rfl, rfl⟩, hmac, ?_⟩
      rw [List.length_append, List.length_append]
      split <;> omega
  · rintro ⟨mac, stop, ⟨hshort, -⟩ | ⟨bytes, payload, hlt, hrest, rfl, -⟩, hmac, -⟩
    · exact .inl hshort
    · exact .inr ⟨bytes, payload, hlt, hrest, hmac⟩

theorem decodeCommEffect_isSome_iff (hpre : pre.length < 2 ^ 32) :
    (decodeCommEffect prost (pre ++ rest) pre.length).isSome = true ↔ ShimForm prost rest := by
  rw [Option.isSome_iff_exists]
  constructor
  · rintro ⟨decoded, h⟩
    obtain ⟨⟨bytes, stop⟩, hsection, h⟩ := Option.bind_eq_some_iff.mp h
    obtain ⟨shim, hshim, -⟩ := Option.bind_eq_some_iff.mp h
    obtain ⟨hlt, ⟨payload, hrest⟩, -⟩ := (decodeSection_eq_some_iff hpre).mp hsection
    exact ⟨bytes, payload, hlt, hrest, Option.isSome_iff_exists.mpr ⟨shim, hshim⟩⟩
  · rintro ⟨bytes, payload, hlt, hrest, hshim⟩
    obtain ⟨shim, hshim⟩ := Option.isSome_iff_exists.mp hshim
    have hsection := (decodeSection_eq_some_iff hpre).mpr ⟨hlt, ⟨payload, hrest⟩, rfl⟩
    have hfits : pre.length + (framed bytes).length ≤ (pre ++ rest).length := by
      rw [hrest, List.length_append, List.length_append]
      omega
    obtain ⟨payload', hpayload⟩ := getRange_to_end hfits
    unfold decodeCommEffect
    simp only [hsection, hshim, hpayload, Option.bind_eq_bind, Option.bind_some]
    exact ⟨_, rfl⟩

end

/-! ## The PHY header -/

section

variable {phy : CommonPhyHeader} {source : UInt16} {transmitter : CommonPhyHeader.Transmitter}
  {antenna : CommonPhyHeader.TransmitAntenna} {group : CommonPhyHeader.FrequencyGroup}
  {txPowerDbm : F64}

theorem encodeTable_isSome_iff {α : Type} {entry : Entry α} {entries : List α} :
    (encodeTable entry true entries).isSome = true ↔
      entries ≠ [] ∧ entries.length < 65536 ∧ ∀ a ∈ entries, entry.allowed a = true := by
  rw [Option.isSome_iff_exists]
  constructor
  · rintro ⟨c, h⟩
    obtain ⟨count, hcount, hempty, hallowed, -⟩ := encodeTable_eq_some.mp h
    rw [Bool.true_and, beq_eq_false_iff_ne] at hempty
    refine ⟨?_, hcount ▸ count.toNat_lt, fun a ha => by simpa using List.any_eq_false.mp hallowed a ha⟩
    rintro rfl
    exact hempty (UInt16.toNat_inj.mp hcount)
  · rintro ⟨hne, hlt, hallowed⟩
    refine ⟨_, encodeTable_eq_some.mpr
      ⟨UInt16.ofNat entries.length, UInt16.toNat_ofNat_of_lt' hlt, ?_, ?_, rfl⟩⟩
    · rw [Bool.true_and, beq_eq_false_iff_ne]
      exact ofNat_ne_zero hlt fun hzero => hne (List.length_eq_zero_iff.mp hzero)
    · exact List.any_eq_false.mpr fun a ha => by simpa using hallowed a ha

/-- The transmit properties are built from a group that is not empty and 16-bit numbers. -/
theorem receivedTx_isSome_iff : (receivedTx phy antenna group txPowerDbm).isSome = true ↔
    group.frequencySegments ≠ [] ∧ antenna.antennaIndex.toNat < 65536 ∧
      (antenna.spectralMaskIndex.getD 0).toNat < 65536 ∧ phy.subId.toNat < 65536 := by
  simp only [← narrow_isSome]
  unfold receivedTx
  cases hsegments : group.frequencySegments with
  | nil => simp
  | cons segment segments =>
      have hmin := List.isSome_min?_of_ne_nil
        (List.cons_ne_nil segment.offsetMicroseconds.toNat
          (segments.map fun segment => segment.offsetMicroseconds.toNat))
      have hmax := List.isSome_max?_of_ne_nil (List.cons_ne_nil
        (U64.saturatingAdd segment.offsetMicroseconds.toNat segment.durationMicroseconds.toNat)
        (segments.map fun segment => U64.saturatingAdd segment.offsetMicroseconds.toNat
          segment.durationMicroseconds.toNat))
      obtain ⟨start, hstart⟩ := Option.isSome_iff_exists.mp hmin
      obtain ⟨stop, hstop⟩ := Option.isSome_iff_exists.mp hmax
      simp only [List.head?_cons, List.map_cons, hstart, hstop, Option.bind_eq_bind, Option.bind_some]
      cases narrow antenna.antennaIndex <;> cases narrow (antenna.spectralMaskIndex.getD 0) <;>
        cases narrow phy.subId <;> simp

/-- The segments can be written if there are some and not too many. -/
theorem receivedSegments_isSome_iff : (receivedSegments group).encode.isSome = true ↔
    group.frequencySegments ≠ [] ∧ group.frequencySegments.length < 65536 := by
  unfold TxFrequencySegments.encode receivedSegments
  rw [encodeTable_isSome_iff]
  simp [TxFrequencySegment.entry]

/-- A transmitter of the PHY header as it is received. -/
theorem mem_receivedTransmitters {received : TxTransmitter} :
    received ∈ (receivedTransmitters phy).transmitters ↔ ∃ transmitter ∈ phy.transmitters,
      transmitter.nemId.toNat < 65536 ∧
        received = ⟨UInt16.ofNat transmitter.nemId.toNat, transmitter.powerdBm⟩ := by
  unfold receivedTransmitters
  rw [List.mem_filterMap]
  refine exists_congr fun transmitter => and_congr_right fun _ => ?_
  rw [Option.bind_eq_bind, Option.bind_eq_some_iff]
  constructor
  · rintro ⟨nemId, hnarrow, h⟩
    obtain ⟨hlt, rfl⟩ := narrow_eq_some hnarrow
    exact ⟨hlt, (Option.some.inj h).symm⟩
  · rintro ⟨hlt, rfl⟩
    exact ⟨_, u16TryFrom_some_iff.mpr ⟨hlt, rfl⟩, rfl⟩

theorem length_receivedTransmitters : (receivedTransmitters phy).transmitters.length =
    phy.transmitters.countP fun transmitter => transmitter.nemId.toNat < 65536 := by
  unfold receivedTransmitters
  rw [List.length_filterMap_eq_countP]
  refine List.countP_congr fun transmitter _ => ?_
  rw [decide_eq_true_iff, ← narrow_isSome]
  cases narrow transmitter.nemId <;> rfl

/-- The transmitters can be written if they are NEMs with a finite power; one of them is the source. -/
theorem receivedTransmitters_isSome_iff
    (hfind : phy.transmitters.find? (fun transmitter => transmitter.nemId = source.toUInt32) =
      some transmitter) :
    (receivedTransmitters phy).encode.isSome = true ↔
      phy.transmitters.countP (fun transmitter => transmitter.nemId.toNat < 65536) < 65536 ∧
        ∀ transmitter ∈ phy.transmitters, transmitter.nemId.toNat < 65536 →
          transmitter.nemId ≠ 0 ∧ transmitter.powerdBm.isFinite = true := by
  have hsource : transmitter.nemId.toNat < 65536 := by
    have heq : transmitter.nemId = source.toUInt32 := by simpa using List.find?_some hfind
    rw [heq, UInt16.toNat_toUInt32]
    exact source.toNat_lt
  have hne : (receivedTransmitters phy).transmitters ≠ [] := List.ne_nil_of_mem
    (mem_receivedTransmitters.mpr ⟨transmitter, List.mem_of_find?_eq_some hfind, hsource, rfl⟩)
  have hallowed : ∀ t : CommonPhyHeader.Transmitter, t.nemId.toNat < 65536 →
      (TxTransmitter.entry.allowed ⟨UInt16.ofNat t.nemId.toNat, t.powerdBm⟩ = true ↔
        t.nemId ≠ 0 ∧ t.powerdBm.isFinite = true) := by
    intro t hlt
    have hzero : UInt16.ofNat t.nemId.toNat = 0 ↔ t.nemId = 0 := by
      rw [← UInt16.toNat_inj, ← UInt32.toNat_inj, UInt16.toNat_ofNat_of_lt' hlt]
      rfl
    simp only [TxTransmitter.entry, Bool.and_eq_true, bne_iff_ne, ne_eq, hzero]
  unfold TxTransmitters.encode
  rw [encodeTable_isSome_iff, and_iff_right hne, length_receivedTransmitters]
  refine and_congr_right fun _ => ⟨fun h t ht hlt => ?_, fun h received hreceived => ?_⟩
  · exact (hallowed t hlt).mp (h _ (mem_receivedTransmitters.mpr ⟨t, ht, hlt, rfl⟩))
  · obtain ⟨t, ht, hlt, rfl⟩ := mem_receivedTransmitters.mp hreceived
    exact (hallowed t hlt).mpr (h t ht hlt)

theorem isSome_encode_profile (profile : TxAntennaProfile) : profile.encode.isSome = profile.valid := by
  unfold TxAntennaProfile.encode
  cases profile.valid <;> rfl

/-- An antenna of the PHY header is received if its numbers have 16 bits, and its pattern can be written
if it is in range. -/
theorem receivedAntenna_spec (antenna : CommonPhyHeader.TransmitAntenna) :
    (¬ antenna.Narrow ∧ receivedAntenna antenna = none) ∨
      ∃ received, antenna.Narrow ∧ receivedAntenna antenna = some received ∧
        (received.pattern.valid = true ↔ antenna.InRange) := by
  obtain ⟨index, group, bandwidth, gain, pointing, mask⟩ := antenna
  unfold receivedAntenna CommonPhyHeader.TransmitAntenna.Narrow CommonPhyHeader.TransmitAntenna.InRange
  simp only [← narrow_isSome, Option.bind_eq_bind]
  cases hgroup : narrow group with
  | none => left; simp
  | some group =>
      cases hindex : narrow index with
      | none => left; simp
      | some index =>
          cases hmask : narrow (mask.getD 0) with
          | none => left; simp
          | some mask =>
              cases gain with
              | some gain =>
                  right
                  simp [receivedPattern, AntennaPattern.valid]
              | none =>
                  cases pointing with
                  | none =>
                      right
                      simp [receivedPattern, AntennaPattern.valid]
                  | some pointing =>
                      cases hprofile : narrow pointing.profileId with
                      | none => left; simp [receivedPattern, hprofile]
                      | some profile =>
                          right
                          obtain rfl := (narrow_eq_some hprofile).2
                          simp [receivedPattern, AntennaPattern.valid, hprofile, isSome_encode_profile]

theorem isSome_receivedAntenna (antenna : CommonPhyHeader.TransmitAntenna) :
    (receivedAntenna antenna).isSome = decide antenna.Narrow := by
  rcases receivedAntenna_spec antenna with ⟨hwide, hnone⟩ | ⟨received, hnarrow, hsome, -⟩
  · rw [hnone, decide_eq_false hwide]
    rfl
  · rw [hsome, decide_eq_true hnarrow]
    rfl

theorem length_receivedMimo_antennas : (receivedMimo phy txPowerDbm).transmitAntennas.length =
    phy.transmitAntennas.countP fun antenna => antenna.Narrow := by
  change (phy.transmitAntennas.filterMap receivedAntenna).length = _
  rw [List.length_filterMap_eq_countP]
  exact List.countP_congr fun antenna _ => by rw [isSome_receivedAntenna]

/-- The MIMO properties can be written if the groups and the antennas can. -/
theorem receivedMimo_isSome_iff (hgroups : phy.frequencyGroups ≠ []) :
    (receivedMimo phy txPowerDbm).encode.isSome = true ↔
      phy.frequencyGroups.length < 65536 ∧
      (∀ group ∈ phy.frequencyGroups, group.frequencySegments ≠ [] ∧
        group.frequencySegments.length < 65536 ∧ ∀ segment ∈ group.frequencySegments,
          (segment.powerdBm.getD txPowerDbm).isFinite = true) ∧
      0 < phy.transmitAntennas.countP (fun antenna => antenna.Narrow) ∧
      phy.transmitAntennas.countP (fun antenna => antenna.Narrow) < 65536 ∧
      ∀ antenna ∈ phy.transmitAntennas, antenna.Narrow → antenna.InRange := by
  have hencodable : (receivedMimo phy txPowerDbm).encode.isSome = true ↔
      (receivedMimo phy txPowerDbm).Encodable := by
    rw [Option.isSome_iff_exists]
    exact ⟨fun ⟨c, hc⟩ => (MimoTxProperties.encode_eq_some.mp hc).1,
      fun h => ⟨_, MimoTxProperties.encode_eq_some.mpr ⟨h, rfl⟩⟩⟩
  have hlength : (receivedMimo phy txPowerDbm).frequencyGroups.length = phy.frequencyGroups.length :=
    List.length_map _
  rw [hencodable, ← length_receivedMimo_antennas]
  constructor
  · intro h
    refine ⟨hlength ▸ h.groups_lt, fun group hgroup => ?_, List.length_pos_iff.mpr h.antennas_ne,
      h.antennas_lt, fun antenna hmem hnarrow => ?_⟩
    · obtain ⟨hne, hlt, hfinite⟩ := h.group _ (List.mem_map_of_mem hgroup)
      refine ⟨fun hnil => hne (by rw [hnil]; rfl), by rwa [List.length_map] at hlt, fun segment hmem => ?_⟩
      exact hfinite _ (List.mem_map_of_mem hmem)
    · rcases receivedAntenna_spec antenna with ⟨hwide, -⟩ | ⟨received, -, hsome, hvalid⟩
      · exact absurd hnarrow hwide
      · exact hvalid.mp (h.antenna received (List.mem_filterMap.mpr ⟨antenna, hmem, hsome⟩))
  · rintro ⟨hlt, hgroup, hpos, hantennasLt, hantenna⟩
    refine ⟨fun hnil => hgroups (List.map_eq_nil_iff.mp hnil), hlength ▸ hlt,
      List.length_pos_iff.mp hpos, hantennasLt, ?_, ?_⟩
    · intro received hreceived
      obtain ⟨group, hmem, rfl⟩ := List.mem_map.mp hreceived
      obtain ⟨hne, hsegmentsLt, hfinite⟩ := hgroup group hmem
      refine ⟨fun hnil => hne (List.map_eq_nil_iff.mp hnil), by rwa [List.length_map], ?_⟩
      intro segment hsegment
      obtain ⟨sent, hsent, rfl⟩ := List.mem_map.mp hsegment
      exact hfinite sent hsent
    · intro received hreceived
      obtain ⟨antenna, hmem, hsome⟩ := List.mem_filterMap.mp hreceived
      rcases receivedAntenna_spec antenna with ⟨-, hnone⟩ | ⟨received', hnarrow, hsome', hvalid⟩
      · exact absurd (hnone.symm.trans hsome) (Option.some_ne_none received).symm
      · obtain rfl := Option.some.inj (hsome'.symm.trans hsome)
        exact hvalid.mpr (hantenna antenna hmem hnarrow)

/-- **The controls are built from the headers of this form.** -/
theorem phyControls_isSome_iff : (phyControls phy source).isSome = true ↔
    ∃ transmitter antenna group, phy.Form source transmitter antenna group := by
  constructor
  · intro h
    obtain ⟨controls, h⟩ := Option.isSome_iff_exists.mp h
    obtain ⟨transmitter, htransmitter, h⟩ := Option.bind_eq_some_iff.mp h
    obtain ⟨antenna, hantenna, h⟩ := Option.bind_eq_some_iff.mp h
    obtain ⟨group, hgroup, h⟩ := Option.bind_eq_some_iff.mp h
    obtain ⟨tx, htx, h⟩ := Option.bind_eq_some_iff.mp h
    obtain ⟨segments, hsegments, h⟩ := Option.bind_eq_some_iff.mp h
    obtain ⟨transmitters, htransmitters, h⟩ := Option.bind_eq_some_iff.mp h
    obtain ⟨mimo, hmimo, -⟩ := Option.bind_eq_some_iff.mp h
    obtain ⟨-, hindex, hmask, hsub⟩ :=
      receivedTx_isSome_iff.mp (Option.isSome_iff_exists.mpr ⟨tx, htx⟩)
    obtain ⟨htransmittersLt, hallowed⟩ := (receivedTransmitters_isSome_iff htransmitter).mp
      (Option.isSome_iff_exists.mpr ⟨transmitters, htransmitters⟩)
    have hgroups : phy.frequencyGroups ≠ [] := List.ne_nil_of_mem (List.mem_of_getElem? hgroup)
    obtain ⟨hgroupsLt, hgroupForm, hpos, hantennasLt, hantennaForm⟩ :=
      (receivedMimo_isSome_iff hgroups).mp (Option.isSome_iff_exists.mpr ⟨mimo, hmimo⟩)
    exact ⟨transmitter, antenna, group, htransmitter, hantenna, hgroup, hsub, hindex, hmask,
      htransmittersLt, hallowed, hgroupsLt, hgroupForm, hpos, hantennasLt, hantennaForm⟩
  · rintro ⟨transmitter, antenna, group, h⟩
    have hmem := List.mem_of_getElem? h.group_eq
    obtain ⟨hne, hlt, -⟩ := h.groups group hmem
    have htx : (receivedTx phy antenna group transmitter.powerdBm).isSome = true :=
      receivedTx_isSome_iff.mpr ⟨hne, h.antennaIndex, h.spectralMaskIndex, h.subId⟩
    obtain ⟨tx, htx⟩ := Option.isSome_iff_exists.mp htx
    obtain ⟨segments, hsegments⟩ := Option.isSome_iff_exists.mp
      (receivedSegments_isSome_iff.mpr ⟨hne, hlt⟩)
    obtain ⟨transmitters, htransmitters⟩ := Option.isSome_iff_exists.mp
      ((receivedTransmitters_isSome_iff h.transmitter_eq).mpr ⟨h.transmitters_lt, h.transmitters⟩)
    obtain ⟨mimo, hmimo⟩ := Option.isSome_iff_exists.mp
      ((receivedMimo_isSome_iff (List.ne_nil_of_mem hmem)).mpr
        ⟨h.groups_lt, h.groups, h.antennas_pos, h.antennas_lt, h.antennas⟩)
    unfold phyControls
    simp only [h.transmitter_eq, h.antenna_eq, h.group_eq, htx, hsegments, htransmitters, hmimo,
      Option.bind_eq_bind, Option.bind_some, Option.isSome_some]

end

/-! ## The packet -/

/-- **A byte string decodes exactly when it has the legacy form.** -/
theorem decodeLegacyOtaPayload_isSome_iff {prost : Prost} {source : UInt16} {data : Bytes} :
    (decodeLegacyOtaPayload prost data source).isSome = true ↔ LegacyForm prost source data := by
  have hbound : ∀ {bytes : Bytes}, bytes.length < 65536 → (framed bytes).length < 2 ^ 32 := by
    intro bytes hlt
    rw [length_framed]
    omega
  constructor
  · intro h
    obtain ⟨decoded, h⟩ := Option.isSome_iff_exists.mp h
    obtain ⟨⟨bytes, phyEnd⟩, hsection, h⟩ := Option.bind_eq_some_iff.mp h
    obtain ⟨phy, hphy, h⟩ := Option.bind_eq_some_iff.mp h
    obtain ⟨hlt, ⟨rest, rfl⟩, rfl⟩ := decodeSection_zero_eq_some_iff.mp hsection
    refine ⟨bytes, rest, phy, hlt, rfl, hphy, ?_⟩
    split at h
    · next hshim =>
        exact .inl ⟨hshim, (decodeCommEffect_isSome_iff (hbound hlt)).mp
          (Option.isSome_iff_exists.mpr ⟨decoded, h⟩)⟩
    split at h
    · cases h
    · next hradio =>
        obtain ⟨⟨mac, macEnd⟩, hmac, h⟩ := Option.bind_eq_some_iff.mp h
        obtain ⟨controls, hcontrols, h⟩ := Option.bind_eq_some_iff.mp h
        obtain ⟨model, hmodel, h⟩ := Option.bind_eq_some_iff.mp h
        obtain ⟨payload, hpayload, -⟩ := Option.bind_eq_some_iff.mp h
        refine .inr ⟨not_not.mp hradio, (macForm_iff (hbound hlt)).mpr ⟨mac, macEnd, hmac, ?_, ?_⟩,
          phyControls_isSome_iff.mp (Option.isSome_iff_exists.mpr ⟨controls, hcontrols⟩)⟩
        · exact Option.isSome_iff_exists.mpr ⟨model, hmodel⟩
        · exact (getRange_some hpayload).1
  · rintro ⟨bytes, rest, phy, hlt, rfl, hphy, hform⟩
    have hsection : decodeSection (framed bytes ++ rest) 0 = some (bytes, (framed bytes).length) :=
      decodeSection_zero_eq_some_iff.mpr ⟨hlt, ⟨rest, rfl⟩, rfl⟩
    unfold decodeLegacyOtaPayload
    simp only [hsection, hphy, Option.bind_eq_bind, Option.bind_some]
    rcases hform with ⟨hshim, hrest⟩ | ⟨hradio, hmac, hcontrols⟩
    · rw [if_pos hshim]
      exact (decodeCommEffect_isSome_iff (hbound hlt)).mpr hrest
    · obtain ⟨mac, macEnd, hmac, hmodel, hle⟩ := (macForm_iff (hbound hlt)).mp hmac
      obtain ⟨controls, hcontrols⟩ := Option.isSome_iff_exists.mp (phyControls_isSome_iff.mpr hcontrols)
      obtain ⟨model, hmodel⟩ := Option.isSome_iff_exists.mp hmodel
      obtain ⟨payload, hpayload⟩ := getRange_to_end hle
      have hnot : phyFrameworkRegistration ≠ phyCommEffectRegistration := by decide
      rw [hradio, if_neg hnot, if_neg (not_not.mpr rfl)]
      unfold decodeRadio
      simp only [hmac, hcontrols, hmodel, hpayload, Option.bind_eq_bind, Option.bind_some,
        Option.isSome_some]

end Emane.LegacyOta
