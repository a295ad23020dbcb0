import Mathlib
import Emane.LegacyOta.Format
import Emane.Lib.Fields
import Emane.Ota.Header

set_option autoImplicit false

/-! # The wire form of the PHY and MAC headers

The results about packets in the legacy form take the serialization of the headers as a parameter. Here
is one, in the format that the protocol's description gives, with its field numbers. Missing fields have
default values, and fields with an unknown number are skipped.
-/

namespace Emane.LegacyOta

open Emane.Lib Emane.PluginApi

/-- Numbers are written in base 128. -/
def base128 : NumberFormat where
  write := Ota.varint
  read := Ota.readVarint
  write_ne_nil n := by
    rw [Ota.varint]
    split <;> exact List.cons_ne_nil _ _
  read_write := Ota.readVarint_append

namespace CommonPhyHeader

/-! ## Parts of the PHY header -/

def Transmitter.message : Message Transmitter where
  default := { nemId := 0, powerdBm := ⟨0⟩ }
  fields t := [⟨1, .number t.nemId.toNat⟩, ⟨2, .fixed t.powerdBm.bits⟩]
  merge
    | t, ⟨1, .number n⟩ => some { t with nemId := UInt32.ofNat n }
    | t, ⟨2, .fixed x⟩ => some { t with powerdBm := ⟨x⟩ }
    | _, ⟨1, _⟩ | _, ⟨2, _⟩ => none
    | t, _ => some t
  merge_fields t := by simp

def FrequencySegment.message : Message FrequencySegment where
  default :=
    { frequencyHz := 0, offsetMicroseconds := 0, durationMicroseconds := 0, powerdBm := none }
  fields s :=
    [⟨1, .number s.frequencyHz.toNat⟩, ⟨2, .number s.offsetMicroseconds.toNat⟩,
      ⟨3, .number s.durationMicroseconds.toNat⟩] ++
    s.powerdBm.toList.map fun power => ⟨4, .fixed power.bits⟩
  merge
    | s, ⟨1, .number n⟩ => some { s with frequencyHz := UInt64.ofNat n }
    | s, ⟨2, .number n⟩ => some { s with offsetMicroseconds := UInt64.ofNat n }
    | s, ⟨3, .number n⟩ => some { s with durationMicroseconds := UInt64.ofNat n }
    | s, ⟨4, .fixed x⟩ => some { s with powerdBm := some ⟨x⟩ }
    | _, ⟨1, _⟩ | _, ⟨2, _⟩ | _, ⟨3, _⟩ | _, ⟨4, _⟩ => none
    | s, _ => some s
  merge_fields s := by
    obtain ⟨frequency, offset, duration, power⟩ := s
    cases power <;> simp

def FrequencyGroup.merge : FrequencyGroup → Field → Option FrequencyGroup
  | g, ⟨1, .bytes bs⟩ => (FrequencySegment.message.decode base128 bs).map fun s =>
      { g with frequencySegments := g.frequencySegments ++ [s] }
  | _, ⟨1, _⟩ => none
  | g, _ => some g

def FrequencyGroup.message : Message FrequencyGroup where
  default := { frequencySegments := [] }
  fields g := g.frequencySegments.map fun s => ⟨1, .bytes (FrequencySegment.message.encode base128 s)⟩
  merge := merge
  merge_fields g :=
    foldlM_repeated merge _ FrequencyGroup.mk (fun xs x => by simp [merge, Message.decode_encode]) [] _

def Pointing.message : Message Pointing where
  default := { profileId := 0, azimuthDegrees := ⟨0⟩, elevationDegrees := ⟨0⟩ }
  fields p :=
    [⟨1, .number p.profileId.toNat⟩, ⟨2, .fixed p.azimuthDegrees.bits⟩,
      ⟨3, .fixed p.elevationDegrees.bits⟩]
  merge
    | p, ⟨1, .number n⟩ => some { p with profileId := UInt32.ofNat n }
    | p, ⟨2, .fixed x⟩ => some { p with azimuthDegrees := ⟨x⟩ }
    | p, ⟨3, .fixed x⟩ => some { p with elevationDegrees := ⟨x⟩ }
    | _, ⟨1, _⟩ | _, ⟨2, _⟩ | _, ⟨3, _⟩ => none
    | p, _ => some p
  merge_fields p := by simp

/-- An antenna. A pointing that is given twice is the second one. -/
def TransmitAntenna.message : Message TransmitAntenna where
  default :=
    { antennaIndex := 0
      frequencyGroupIndex := 0
      bandwidthHz := 0
      fixedGaindBi := none
      pointing := none
      spectralMaskIndex := none }
  fields a :=
    [⟨1, .number a.antennaIndex.toNat⟩, ⟨2, .number a.frequencyGroupIndex.toNat⟩,
      ⟨3, .number a.bandwidthHz.toNat⟩] ++
    (a.fixedGaindBi.toList.map fun gain => ⟨4, .fixed gain.bits⟩) ++
    (a.pointing.toList.map fun p => ⟨5, .bytes (Pointing.message.encode base128 p)⟩) ++
    a.spectralMaskIndex.toList.map fun mask => ⟨6, .number mask.toNat⟩
  merge
    | a, ⟨1, .number n⟩ => some { a with antennaIndex := UInt32.ofNat n }
    | a, ⟨2, .number n⟩ => some { a with frequencyGroupIndex := UInt32.ofNat n }
    | a, ⟨3, .number n⟩ => some { a with bandwidthHz := UInt64.ofNat n }
    | a, ⟨4, .fixed x⟩ => some { a with fixedGaindBi := some ⟨x⟩ }
    | a, ⟨5, .bytes bs⟩ => (Pointing.message.decode base128 bs).map fun p =>
        { a with pointing := some p }
    | a, ⟨6, .number n⟩ => some { a with spectralMaskIndex := some (UInt32.ofNat n) }
    | _, ⟨1, _⟩ | _, ⟨2, _⟩ | _, ⟨3, _⟩ | _, ⟨4, _⟩ | _, ⟨5, _⟩ | _, ⟨6, _⟩ => none
    | a, _ => some a
  merge_fields a := by
    obtain ⟨index, group, bandwidth, gain, pointing, mask⟩ := a
    cases gain <;> cases pointing <;> cases mask <;> simp [Message.decode_encode]

end CommonPhyHeader

/-! ## The headers -/

open CommonPhyHeader in
def CommonPhyHeader.merge : CommonPhyHeader → Field → Option CommonPhyHeader
  | h, ⟨1, .number n⟩ => some { h with registrationId := UInt32.ofNat n }
  | h, ⟨2, .number n⟩ => some { h with subId := UInt32.ofNat n }
  | h, ⟨3, .number n⟩ => some { h with sequenceNumber := UInt32.ofNat n }
  | h, ⟨4, .number n⟩ => some { h with txTimeMicroseconds := UInt64.ofNat n }
  | h, ⟨5, .bytes bs⟩ => (Transmitter.message.decode base128 bs).map fun t =>
      { h with transmitters := h.transmitters ++ [t] }
  | h, ⟨6, .bytes bs⟩ => (FrequencyGroup.message.decode base128 bs).map fun g =>
      { h with frequencyGroups := h.frequencyGroups ++ [g] }
  | h, ⟨7, .bytes bs⟩ => (TransmitAntenna.message.decode base128 bs).map fun a =>
      { h with transmitAntennas := h.transmitAntennas ++ [a] }
  | h, ⟨8, .bytes bs⟩ => some { h with filterData := some bs }
  | _, ⟨1, _⟩ | _, ⟨2, _⟩ | _, ⟨3, _⟩ | _, ⟨4, _⟩ | _, ⟨5, _⟩ | _, ⟨6, _⟩ | _, ⟨7, _⟩
  | _, ⟨8, _⟩ => none
  | h, _ => some h

open CommonPhyHeader in
def CommonPhyHeader.message : Message CommonPhyHeader where
  default :=
    { registrationId := 0
      subId := 0
      sequenceNumber := 0
      txTimeMicroseconds := 0
      transmitters := []
      frequencyGroups := []
      transmitAntennas := []
      filterData := none }
  fields h :=
    [⟨1, .number h.registrationId.toNat⟩, ⟨2, .number h.subId.toNat⟩,
      ⟨3, .number h.sequenceNumber.toNat⟩, ⟨4, .number h.txTimeMicroseconds.toNat⟩] ++
    (h.transmitters.map fun t => ⟨5, .bytes (Transmitter.message.encode base128 t)⟩) ++
    (h.frequencyGroups.map fun g => ⟨6, .bytes (FrequencyGroup.message.encode base128 g)⟩) ++
    (h.transmitAntennas.map fun a => ⟨7, .bytes (TransmitAntenna.message.encode base128 a)⟩) ++
    h.filterData.toList.map fun data => ⟨8, .bytes data⟩
  merge := merge
  merge_fields h := by
    obtain ⟨registration, sub, sequence, time, transmitters, groups, antennas, filter⟩ := h
    have hnumbers : [⟨1, .number registration.toNat⟩, ⟨2, .number sub.toNat⟩,
        ⟨3, .number sequence.toNat⟩, ⟨4, .number time.toNat⟩].foldlM merge ⟨0, 0, 0, 0, [], [], [], none⟩ =
          some ⟨registration, sub, sequence, time, [], [], [], none⟩ := by
      simp [merge]
    have htransmitters := foldlM_repeated merge
      (fun t => ⟨5, .bytes (Transmitter.message.encode base128 t)⟩)
      (fun ts => ⟨registration, sub, sequence, time, ts, [], [], none⟩)
      (fun _ _ => by simp [merge, Message.decode_encode]) [] transmitters
    have hgroups := foldlM_repeated merge
      (fun g => ⟨6, .bytes (FrequencyGroup.message.encode base128 g)⟩)
      (fun gs => ⟨registration, sub, sequence, time, transmitters, gs, [], none⟩)
      (fun _ _ => by simp [merge, Message.decode_encode]) [] groups
    have hantennas := foldlM_repeated merge
      (fun a => ⟨7, .bytes (TransmitAntenna.message.encode base128 a)⟩)
      (fun as => ⟨registration, sub, sequence, time, transmitters, groups, as, none⟩)
      (fun _ _ => by simp [merge, Message.decode_encode]) [] antennas
    simp only [List.nil_append] at htransmitters hgroups hantennas
    simp only [List.foldlM_append, Option.bind_eq_bind]
    rw [hnumbers, Option.bind_some, htransmitters, Option.bind_some, hgroups, Option.bind_some,
      hantennas, Option.bind_some]
    cases filter <;> simp [merge]

def CommonMacHeader.message : Message CommonMacHeader where
  default := { registrationId := 0, sequenceNumber := 0 }
  fields h := [⟨1, .number h.registrationId.toNat⟩, ⟨2, .number h.sequenceNumber.toNat⟩]
  merge
    | h, ⟨1, .number n⟩ => some { h with registrationId := UInt32.ofNat n }
    | h, ⟨2, .number n⟩ => some { h with sequenceNumber := UInt64.ofNat n }
    | _, ⟨1, _⟩ | _, ⟨2, _⟩ => none
    | h, _ => some h
  merge_fields h := by simp

def CommEffectShimHeader.message : Message CommEffectShimHeader where
  default := { groupId := 0, sequenceNumber := 0, txTimeMicroseconds := 0 }
  fields h :=
    [⟨1, .number h.groupId.toNat⟩, ⟨2, .number h.sequenceNumber.toNat⟩,
      ⟨3, .number h.txTimeMicroseconds.toNat⟩]
  merge
    | h, ⟨1, .number n⟩ => some { h with groupId := UInt32.ofNat n }
    | h, ⟨2, .number n⟩ => some { h with sequenceNumber := UInt32.ofNat n }
    | h, ⟨3, .number n⟩ => some { h with txTimeMicroseconds := UInt64.ofNat n }
    | _, ⟨1, _⟩ | _, ⟨2, _⟩ | _, ⟨3, _⟩ => none
    | h, _ => some h
  merge_fields h := by simp

def serialization {α : Type} (message : Message α) : Serialization α where
  encode := message.encode base128
  decode := message.decode base128

theorem serialization_roundTrips {α : Type} (message : Message α) :
    (serialization message).RoundTrips := message.decode_encode base128

/-- The serializations in that format. -/
def protobuf : Prost where
  phy := serialization CommonPhyHeader.message
  mac := serialization CommonMacHeader.message
  shim := serialization CommEffectShimHeader.message

end Emane.LegacyOta
