import Emane.PluginApi.Antenna

/-!
# Transmit properties and receive antennas

The transmit properties of a message nest segments in frequency groups and carry the transmit
antennas, each with a pattern; an antenna update carries one antenna and its frequencies. Both
decoders move an offset through the input and compare the end with the input's length.
-/

set_option autoImplicit false

namespace Emane.PluginApi

open Emane.Lib

/-! ## Words in a row -/

section

variable {α : Type} (f : UInt64 → UInt64 → UInt64 → UInt64 → α)

/-- A value of four 64-bit words that stand one after the other. -/
def readFour (data : Bytes) : Cursor α := do
  return f (← readU64 data) (← readU64 data) (← readU64 data) (← readU64 data)

variable {data : Bytes} {o : Nat}

theorem readFour_eq {a b c d : UInt64} (hdata : data.length < 2 ^ 64)
    (h : StandsAt data o (toBeBytes a ++ toBeBytes b ++ toBeBytes c ++ toBeBytes d)) :
    readFour f data o = .ok (f a b c d, o + 32) := by
  simp only [List.append_assoc, standsAt_append, BigEndian.length_toBeBytes, width_uint64] at h
  obtain ⟨hfirst, hsecond, hthird, hfourth⟩ := h
  unfold readFour
  rw [cursor_bind_eq (readU64_eq hdata hfirst), cursor_bind_eq (readU64_eq hdata hsecond),
    cursor_bind_eq (readU64_eq hdata hthird), cursor_bind_eq (readU64_eq hdata hfourth)]
  rfl

theorem meets_readFour_stop (data : Bytes) (o : Nat) :
    Meets (readFour f data o) (fun r => r.2 = o + 32) := by
  unfold readFour readU64
  refine meets_bind_cursor (meets_readBe_stop data _) fun _ o₁ h₁ => ?_
  refine meets_bind_cursor (meets_readBe_stop data _) fun _ o₂ h₂ => ?_
  refine meets_bind_cursor (meets_readBe_stop data _) fun _ o₃ h₃ => ?_
  refine meets_bind_cursor (meets_readBe_stop data _) fun _ o₄ h₄ => ?_
  rw [width_uint64] at h₁ h₂ h₃ h₄
  change o₄ = o + 32
  omega

end

/-- A fixed size and the sizes of three kinds of parts, in 64-bit sizes. -/
def checkedSize (fixed count size count' size' count'' size'' : Nat) : Option Nat := do
  let parts ← checkedMul count size
  let total ← checkedAdd fixed parts
  let parts ← checkedMul count' size'
  let total ← checkedAdd total parts
  let parts ← checkedMul count'' size''
  checkedAdd total parts

theorem checkedSize_eq {fixed count size count' size' count'' size'' : Nat}
    (h : fixed + count * size + count' * size' + count'' * size'' < 2 ^ 64) :
    checkedSize fixed count size count' size' count'' size'' =
      some (fixed + count * size + count' * size' + count'' * size'') := by
  unfold checkedSize
  simp only [Option.bind_eq_bind]
  rw [checkedMul_eq (by omega), Option.bind_some, checkedAdd_eq (by omega), Option.bind_some,
    checkedMul_eq (by omega), Option.bind_some, checkedAdd_eq (by omega), Option.bind_some,
    checkedMul_eq (by omega), Option.bind_some, checkedAdd_eq (by omega)]

/-! ## Segments and antennas -/

structure MimoTxFrequencySegment where
  frequencyHz : UInt64
  txPowerDbm : F64
  durationMicroseconds : UInt64
  offsetMicroseconds : UInt64
  deriving DecidableEq

structure MimoTxAntenna where
  frequencyGroupIndex : UInt16
  antennaIndex : UInt16
  bandwidthHz : UInt64
  spectralMaskIndex : UInt16
  pattern : AntennaPattern
  deriving DecidableEq

def MimoTxFrequencySegment.write (segment : MimoTxFrequencySegment) : Bytes :=
  toBeBytes segment.frequencyHz ++ toBeBytes segment.txPowerDbm.bits ++
    toBeBytes segment.durationMicroseconds ++ toBeBytes segment.offsetMicroseconds

def MimoTxFrequencySegment.read (data : Bytes) : Cursor MimoTxFrequencySegment := do
  return {
    frequencyHz := ← readU64 data
    txPowerDbm := ⟨← readU64 data⟩
    durationMicroseconds := ← readU64 data
    offsetMicroseconds := ← readU64 data }

/-- `MimoTxProperties::SEGMENT_LEN` -/
theorem MimoTxFrequencySegment.length_write (segment : MimoTxFrequencySegment) :
    segment.write.length = 32 := rfl

theorem MimoTxFrequencySegment.read_write {segment : MimoTxFrequencySegment} {data : Bytes} {o : Nat}
    (hdata : data.length < 2 ^ 64) (h : StandsAt data o segment.write) :
    read data o = .ok (segment, o + segment.write.length) :=
  readFour_eq (fun frequency power duration offset =>
    MimoTxFrequencySegment.mk frequency ⟨power⟩ duration offset) hdata h

theorem MimoTxFrequencySegment.meets_read (data : Bytes) (o : Nat) :
    Meets (read data o) (fun r => r.2 = o + 32) :=
  meets_readFour_stop (fun frequency power duration offset =>
    MimoTxFrequencySegment.mk frequency ⟨power⟩ duration offset) data o

/-- The part of an antenna in front of its pattern. -/
def MimoTxAntenna.head (antenna : MimoTxAntenna) : Bytes :=
  toBeBytes antenna.frequencyGroupIndex ++ toBeBytes antenna.antennaIndex ++
    toBeBytes antenna.bandwidthHz ++ toBeBytes antenna.spectralMaskIndex

/-- One turn of the antenna loop of `MimoTxProperties::encode`. -/
def MimoTxAntenna.append (data : Bytes) (antenna : MimoTxAntenna) : Option Bytes :=
  antenna.pattern.encode (data ++ antenna.head)

def MimoTxAntenna.read (data : Bytes) : Cursor MimoTxAntenna := do
  return {
    frequencyGroupIndex := ← readU16 data
    antennaIndex := ← readU16 data
    bandwidthHz := ← readU64 data
    spectralMaskIndex := ← readU16 data
    pattern := ← AntennaPattern.decode data }

def MimoTxAntenna.bytes (antenna : MimoTxAntenna) : Bytes :=
  antenna.head ++ antenna.pattern.fields.bytes

/-- `MimoTxProperties::ANTENNA_LEN` -/
@[simp]
theorem MimoTxAntenna.length_bytes (antenna : MimoTxAntenna) : antenna.bytes.length = 41 := rfl

theorem MimoTxAntenna.append_eq_some (data : Bytes) (antenna : MimoTxAntenna) (c : Bytes) :
    append data antenna = some c ↔ antenna.pattern.valid = true ∧ c = data ++ antenna.bytes := by
  unfold append bytes
  rw [AntennaPattern.encode_eq_some, List.append_assoc]

theorem MimoTxAntenna.read_bytes {antenna : MimoTxAntenna} {data : Bytes} {o : Nat}
    (hdata : data.length < 2 ^ 64) (hvalid : antenna.pattern.valid = true)
    (h : StandsAt data o antenna.bytes) :
    read data o = .ok (antenna, o + antenna.bytes.length) := by
  simp only [bytes, head, List.append_assoc, standsAt_append, BigEndian.length_toBeBytes,
    width_uint16, width_uint64] at h
  obtain ⟨hgroup, hindex, hbandwidth, hmask, hpattern⟩ := h
  unfold read
  rw [cursor_bind_eq (readU16_eq hdata hgroup), cursor_bind_eq (readU16_eq hdata hindex),
    cursor_bind_eq (readU64_eq hdata hbandwidth), cursor_bind_eq (readU16_eq hdata hmask),
    cursor_bind_eq (AntennaPattern.decode_bytes hdata hvalid hpattern)]
  rfl

theorem MimoTxAntenna.meets_read (data : Bytes) (o : Nat) :
    Meets (read data o) (fun r => r.1.pattern.valid = true) := by
  unfold read readU16 readU64
  repeat refine meets_bind_cursor (meets_readBe data _) fun _ _ _ => ?_
  refine meets_bind_cursor (AntennaPattern.meets_decode data _) fun pattern _ hpattern => ?_
  exact hpattern

/-! ## Frequency groups -/

/-- One turn of the group loop of `MimoTxProperties::encode`. -/
def MimoTxProperties.appendGroup (data : Bytes) (group : List MimoTxFrequencySegment) :
    Option Bytes := do
  let count ← u16TryFrom group.length
  return data ++ toBeBytes count ++ group.flatMap MimoTxFrequencySegment.write

/-- One turn of the group loop of `MimoTxProperties::decode`. -/
def MimoTxProperties.readGroup (data : Bytes) : Cursor (List MimoTxFrequencySegment) := do
  let count := (← readU16 data).toNat
  if count == 0 then throw .rejected else
  fun offset => do
    let size ← orReject (checkedMul count 32)
    let stop ← orReject (checkedAdd offset size)
    if stop > data.length then .error .rejected else
    readMany (MimoTxFrequencySegment.read data) count offset

def MimoTxProperties.groupBytes (group : List MimoTxFrequencySegment) : Bytes :=
  toBeBytes (UInt16.ofNat group.length) ++ group.flatMap MimoTxFrequencySegment.write

theorem MimoTxProperties.length_groupBytes (group : List MimoTxFrequencySegment) :
    (groupBytes group).length = 2 + group.length * 32 := by
  unfold groupBytes
  rw [List.length_append, length_flatMap_const fun segment _ => segment.length_write]
  rfl

theorem MimoTxProperties.appendGroup_eq_some (data : Bytes) (group : List MimoTxFrequencySegment)
    (c : Bytes) :
    appendGroup data group = some c ↔ group.length < 65536 ∧ c = data ++ groupBytes group := by
  unfold appendGroup groupBytes u16TryFrom
  rw [Option.bind_eq_bind]
  split
  · next h => simp [h, List.append_assoc, eq_comm]
  · next h => simp [h]

theorem MimoTxProperties.readGroup_groupBytes {group : List MimoTxFrequencySegment} {data : Bytes}
    {o : Nat} (hdata : data.length < 2 ^ 64) (hpos : group ≠ []) (hlt : group.length < 65536)
    (h : StandsAt data o (groupBytes group)) :
    readGroup data o = .ok (group, o + (groupBytes group).length) := by
  have hlen : (group.flatMap MimoTxFrequencySegment.write).length = group.length * 32 :=
    length_flatMap_const fun segment _ => segment.length_write
  have hfits := h.fits (by rw [← List.length_pos_iff, length_groupBytes]; omega)
  have hcount : (UInt16.ofNat group.length).toNat = group.length := UInt16.toNat_ofNat_of_lt' hlt
  have hne : group.length ≠ 0 := fun h0 => hpos (List.length_eq_zero_iff.mp h0)
  rw [length_groupBytes] at hfits ⊢
  unfold groupBytes at h
  rw [standsAt_append, BigEndian.length_toBeBytes, width_uint16] at h
  unfold readGroup
  rw [cursor_bind_eq (readU16_eq hdata h.1)]
  simp only [hcount, beq_false_of_ne hne, Bool.false_eq_true, if_false]
  rw [checkedMul_eq (by omega), orReject_some, ok_bind, checkedAdd_eq (by omega), orReject_some,
    ok_bind, if_neg (by omega),
    readMany_eq (fun segment _ _ hs => segment.read_write hdata hs) h.2, hlen, Nat.add_assoc]

theorem MimoTxProperties.meets_readGroup (data : Bytes) (o : Nat) :
    Meets (readGroup data o) (fun r => r.1 ≠ [] ∧ r.1.length < 65536) := by
  unfold readGroup readU16
  refine meets_bind_cursor (meets_readBe data _) fun count o' _ => ?_
  have hlt := count.toNat_lt
  refine meets_guard_cursor fun hzero => ?_
  refine meets_bind (meets_orReject _) fun _ _ => ?_
  refine meets_bind (meets_orReject _) fun _ _ => ?_
  refine meets_guard fun _ => ?_
  refine (meets_readMany (fun _ => True)
    (fun o => (MimoTxFrequencySegment.meets_read data o).mono fun _ _ => trivial) _ _).mono ?_
  rintro ⟨group, o''⟩ ⟨hlen, -⟩
  rw [beq_iff_eq] at hzero
  exact ⟨fun h0 => hzero (by rw [← hlen, h0]; rfl), by rw [hlen]; exact hlt⟩

/-! ## Transmit properties -/

structure MimoTxProperties where
  frequencyGroups : List (List MimoTxFrequencySegment)
  transmitAntennas : List MimoTxAntenna
  deriving DecidableEq

namespace MimoTxProperties

/-- `MIMO_TX_PROPERTIES_VERSION` -/
def version : UInt8 := 2

/-- The capacity computed by `encode`, in 64-bit sizes. -/
def capacity (self : MimoTxProperties) : Option Nat := do
  let segmentCount := (self.frequencyGroups.map List.length).sum
  let counts ← checkedMul self.frequencyGroups.length 2
  let total ← checkedAdd 5 counts
  let segments ← checkedMul segmentCount 32
  let total ← checkedAdd total segments
  let antennas ← checkedMul self.transmitAntennas.length 41
  checkedAdd total antennas

/-- The groups `encode` refuses. -/
def refusedGroup (group : List MimoTxFrequencySegment) : Bool :=
  group.isEmpty || group.length > 65535 || group.any fun segment => !segment.txPowerDbm.isFinite

/-- `MimoTxProperties::encode` -/
def encode (self : MimoTxProperties) : Option Bytes := do
  let groupCount ← u16TryFrom self.frequencyGroups.length
  let antennaCount ← u16TryFrom self.transmitAntennas.length
  if groupCount == 0 || antennaCount == 0 || self.frequencyGroups.any refusedGroup then none else
  let _ ← self.capacity
  let data ← self.frequencyGroups.foldlM appendGroup ([version] ++ toBeBytes groupCount)
  self.transmitAntennas.foldlM MimoTxAntenna.append (data ++ toBeBytes antennaCount)

/-- `MimoTxProperties::decode` -/
def decode (data : Bytes) : Except Fault MimoTxProperties := do
  if data.length < 5 then .error .rejected else
  if (← indexByte data 0) ≠ version then .error .rejected else
  let groupCount := (← getU16 data 1).toNat
  if groupCount == 0 then .error .rejected else
  let (frequencyGroups, offset) ← readMany (readGroup data) groupCount 3
  let (antennaCount, offset) ← readU16 data offset
  if antennaCount.toNat == 0 then .error .rejected else
  let size ← orReject (checkedMul antennaCount.toNat 41)
  let stop ← orReject (checkedAdd offset size)
  if data.length ≠ stop then .error .rejected else
  let (transmitAntennas, _) ← readMany (MimoTxAntenna.read data) antennaCount.toNat offset
  -- a wrong frequency-group index of an antenna is left to the receiver
  if frequencyGroups.flatten.all fun segment => segment.txPowerDbm.isFinite then
    return { frequencyGroups, transmitAntennas }
  else
    .error .rejected

/-- The values `encode` accepts. -/
structure Encodable (properties : MimoTxProperties) : Prop where
  groups_ne : properties.frequencyGroups ≠ []
  groups_lt : properties.frequencyGroups.length < 65536
  antennas_ne : properties.transmitAntennas ≠ []
  antennas_lt : properties.transmitAntennas.length < 65536
  group : ∀ group ∈ properties.frequencyGroups, group ≠ [] ∧ group.length < 65536 ∧
    ∀ segment ∈ group, segment.txPowerDbm.isFinite = true
  antenna : ∀ antenna ∈ properties.transmitAntennas, antenna.pattern.valid = true

def bytes (self : MimoTxProperties) : Bytes :=
  [version] ++ toBeBytes (UInt16.ofNat self.frequencyGroups.length) ++
    self.frequencyGroups.flatMap groupBytes ++
    toBeBytes (UInt16.ofNat self.transmitAntennas.length) ++
    self.transmitAntennas.flatMap MimoTxAntenna.bytes

theorem not_refusedGroup {group : List MimoTxFrequencySegment} :
    refusedGroup group = false ↔ group ≠ [] ∧ group.length < 65536 ∧
      ∀ segment ∈ group, segment.txPowerDbm.isFinite = true := by
  unfold refusedGroup
  simp only [Bool.or_eq_false_iff, List.isEmpty_eq_false_iff, decide_eq_false_iff_not,
    List.any_eq_false, Bool.not_eq_true', Bool.not_eq_false, and_assoc]
  constructor
  · rintro ⟨hne, hlt, hfinite⟩
    exact ⟨hne, by omega, hfinite⟩
  · rintro ⟨hne, hlt, hfinite⟩
    exact ⟨hne, by omega, hfinite⟩

/-- The segments of the groups are at most so many as 16-bit counts allow. -/
theorem Encodable.segmentCount_le {self : MimoTxProperties} (h : self.Encodable) :
    (self.frequencyGroups.map List.length).sum ≤ self.frequencyGroups.length * 65535 :=
  sum_map_le fun group hgroup => Nat.le_of_lt_succ (h.group group hgroup).2.1

theorem Encodable.capacity_eq {self : MimoTxProperties} (h : self.Encodable) :
    ∃ n, self.capacity = some n := by
  have hsum := h.segmentCount_le
  have hgroups := h.groups_lt
  have hantennas := h.antennas_lt
  exact ⟨_, @checkedSize_eq 5 _ 2 _ 32 _ 41 (by omega)⟩

/-- `encode` writes the bytes of the values it accepts. -/
theorem encode_eq_some {self : MimoTxProperties} {c : Bytes} :
    self.encode = some c ↔ self.Encodable ∧ c = self.bytes := by
  unfold encode
  constructor
  · intro h
    obtain ⟨groupCount, hgroupCount, h1⟩ := Option.bind_eq_some_iff.mp h
    obtain ⟨antennaCount, hantennaCount, h2⟩ := Option.bind_eq_some_iff.mp h1
    split at h2
    · cases h2
    next hok =>
    obtain ⟨_, _, h3⟩ := Option.bind_eq_some_iff.mp h2
    obtain ⟨data, hdata, h4⟩ := Option.bind_eq_some_iff.mp h3
    obtain ⟨-, rfl⟩ := (foldlM_append_eq_some appendGroup_eq_some).mp hdata
    obtain ⟨hantennas, rfl⟩ := (foldlM_append_eq_some MimoTxAntenna.append_eq_some).mp h4
    obtain ⟨hgroupsLt, rfl⟩ := u16TryFrom_some_iff.mp hgroupCount
    obtain ⟨hantennasLt, rfl⟩ := u16TryFrom_some_iff.mp hantennaCount
    simp only [Bool.or_eq_true, not_or, beq_iff_eq, Bool.not_eq_true, List.any_eq_false] at hok
    obtain ⟨⟨hgroupsNe, hantennasNe⟩, hgroups⟩ := hok
    refine ⟨⟨?_, hgroupsLt, ?_, hantennasLt, ?_, hantennas⟩, rfl⟩
    · rintro hnil
      exact hgroupsNe (by rw [hnil]; rfl)
    · rintro hnil
      exact hantennasNe (by rw [hnil]; rfl)
    · exact fun group hgroup => not_refusedGroup.mp (hgroups group hgroup)
  · rintro ⟨h, rfl⟩
    obtain ⟨n, hcapacity⟩ := h.capacity_eq
    have hrefused : self.frequencyGroups.any refusedGroup = false :=
      List.any_eq_false.mpr fun group hgroup => by
        rw [not_refusedGroup.mpr (h.group group hgroup)]; simp
    have hgroups : ∀ data, self.frequencyGroups.foldlM appendGroup data =
        some (data ++ self.frequencyGroups.flatMap groupBytes) := fun _ =>
      (foldlM_append_eq_some appendGroup_eq_some).mpr
        ⟨fun group hgroup => (h.group group hgroup).2.1, rfl⟩
    have hantennas : ∀ data, self.transmitAntennas.foldlM MimoTxAntenna.append data =
        some (data ++ self.transmitAntennas.flatMap MimoTxAntenna.bytes) := fun _ =>
      (foldlM_append_eq_some MimoTxAntenna.append_eq_some).mpr ⟨h.antenna, rfl⟩
    rw [u16TryFrom_some_iff.mpr ⟨h.groups_lt, rfl⟩, u16TryFrom_some_iff.mpr ⟨h.antennas_lt, rfl⟩]
    simp only [Option.bind_eq_bind, Option.bind_some]
    rw [beq_false_of_ne (ofNat_ne_zero h.groups_lt (by simpa using h.groups_ne)),
      beq_false_of_ne (ofNat_ne_zero h.antennas_lt (by simpa using h.antennas_ne)), hrefused,
      hcapacity]
    simp only [Bool.or_false, Bool.false_eq_true, if_false, Option.bind_some]
    rw [hgroups, Option.bind_some, hantennas]
    rfl

/-- What `capacity` stands for is the length of the bytes, and it is a 64-bit size. -/
theorem Encodable.length_bytes_lt {self : MimoTxProperties} (h : self.Encodable) :
    self.bytes.length < 2 ^ 64 := by
  have hsum := h.segmentCount_le
  have hgroups : (self.frequencyGroups.flatMap groupBytes).length =
      self.frequencyGroups.length * 2 + (self.frequencyGroups.map List.length).sum * 32 := by
    clear h hsum
    induction self.frequencyGroups with
    | nil => rfl
    | cons group groups ih =>
        rw [List.flatMap_cons, List.length_append, ih, length_groupBytes, List.map_cons,
          List.sum_cons, List.length_cons]
        omega
  have hantennas : (self.transmitAntennas.flatMap MimoTxAntenna.bytes).length =
      self.transmitAntennas.length * 41 := length_flatMap_const fun antenna _ => antenna.length_bytes
  have hgroupsLt := h.groups_lt
  have hantennasLt := h.antennas_lt
  unfold bytes
  simp only [List.length_append, List.length_singleton, BigEndian.length_toBeBytes, width_uint16]
  omega

/-- The decoder reads back what the encoder wrote. -/
theorem Encodable.decode_bytes {self : MimoTxProperties} (h : self.Encodable) {data : Bytes}
    (hc : data = self.bytes) : decode data = .ok self := by
  have hdata : data.length < 2 ^ 64 := hc ▸ h.length_bytes_lt
  have hgroupCount := UInt16.toNat_ofNat_of_lt' h.groups_lt
  have hantennaCount := UInt16.toNat_ofNat_of_lt' h.antennas_lt
  have hgroupsNe : self.frequencyGroups.length ≠ 0 := by simpa using h.groups_ne
  have hantennasNe : self.transmitAntennas.length ≠ 0 := by simpa using h.antennas_ne
  have hfinite : (self.frequencyGroups.flatten.all fun segment => segment.txPowerDbm.isFinite) = true := by
    rw [List.all_eq_true]
    intro segment hsegment
    obtain ⟨group, hgroup, hmem⟩ := List.mem_flatten.mp hsegment
    exact (h.group group hgroup).2.2 segment hmem
  have hend : data.length = 3 + (self.frequencyGroups.flatMap groupBytes).length + 2 +
      self.transmitAntennas.length * 41 := by
    have hlen : (self.transmitAntennas.flatMap MimoTxAntenna.bytes).length =
        self.transmitAntennas.length * 41 := length_flatMap_const fun a _ => a.length_bytes
    rw [← hlen, hc]
    unfold bytes
    simp only [List.length_append, List.length_singleton, BigEndian.length_toBeBytes, width_uint16]
  have hstands : StandsAt data 0 self.bytes := hc ▸ standsAt_self data
  simp only [bytes, List.append_assoc, standsAt_append, List.length_singleton,
    BigEndian.length_toBeBytes, width_uint16, Nat.zero_add, Nat.reduceAdd] at hstands
  obtain ⟨hversion, hgroupCountAt, hgroupsAt, hantennaCountAt, hantennasAt⟩ := hstands
  have hgroups := readMany_eq (fun group hgroup _ hat => readGroup_groupBytes hdata
    (h.group group hgroup).1 (h.group group hgroup).2.1 hat) hgroupsAt
  have hantennas := readMany_eq (fun antenna hantenna _ hat =>
    MimoTxAntenna.read_bytes hdata (h.antenna antenna hantenna) hat) hantennasAt
  unfold decode
  rw [if_neg (by omega), indexByte_eq hversion, ok_bind, if_neg (not_not.mpr rfl), getU16,
    getBe_eq hgroupCountAt, ok_bind]
  simp only [hgroupCount, beq_false_of_ne hgroupsNe, Bool.false_eq_true, if_false, hgroups, ok_bind,
    readU16_eq hdata hantennaCountAt, hantennaCount, beq_false_of_ne hantennasNe]
  rw [checkedMul_eq (by omega), orReject_some, ok_bind, checkedAdd_eq (by omega), orReject_some,
    ok_bind, if_neg (not_not.mpr hend), hantennas]
  simp only [ok_bind, hfinite, if_true]
  rfl

/-- On any input the decoder stays inside it and returns only values that can be encoded. -/
theorem meets_decode (data : Bytes) : Meets (decode data) Encodable := by
  unfold decode
  refine meets_guard fun hmin => ?_
  refine meets_bind (meets_indexByte (by omega)) fun version _ => ?_
  refine meets_guard fun _ => ?_
  refine meets_getBe_bind (by rw [width_uint16]; omega) fun groupCount => ?_
  refine meets_guard fun hgroupsNe => ?_
  refine meets_bind (meets_readMany (fun group => group ≠ [] ∧ group.length < 65536)
    (meets_readGroup data) _ _) ?_
  rintro ⟨groups, offset⟩ ⟨hgroupsLen, hgroups⟩
  refine meets_bind (meets_readBe data _) ?_
  rintro ⟨antennaCount, offset'⟩ -
  refine meets_guard fun hantennasNe => ?_
  refine meets_bind (meets_orReject _) fun _ _ => ?_
  refine meets_bind (meets_orReject _) fun _ _ => ?_
  refine meets_guard fun _ => ?_
  refine meets_bind (meets_readMany (fun antenna => antenna.pattern.valid = true)
    (MimoTxAntenna.meets_read data) _ _) ?_
  rintro ⟨antennas, _⟩ ⟨hantennasLen, hantennas⟩
  dsimp only at hgroupsLen hgroups hantennasLen hantennas ⊢
  split
  · next hfinite =>
      rw [List.all_eq_true] at hfinite
      rw [beq_iff_eq, ← hgroupsLen] at hgroupsNe
      rw [beq_iff_eq, ← hantennasLen] at hantennasNe
      constructor
      · exact fun hnil => hgroupsNe (by rw [show groups = [] from hnil]; rfl)
      · exact hgroupsLen ▸ groupCount.toNat_lt
      · exact fun hnil => hantennasNe (by rw [show antennas = [] from hnil]; rfl)
      · exact hantennasLen ▸ antennaCount.toNat_lt
      · intro group hgroup
        refine ⟨(hgroups group hgroup).1, (hgroups group hgroup).2, fun segment hsegment => ?_⟩
        exact hfinite segment (List.mem_flatten.mpr ⟨group, hgroup, hsegment⟩)
      · exact hantennas
  · trivial

theorem exact : Exact encode decode id :=
  Exact.of_meets
    (fun _ _ h => (encode_eq_some.mp h).1.decode_bytes (encode_eq_some.mp h).2)
    (fun b => (meets_decode b).mono fun self h => ⟨⟨self.bytes, encode_eq_some.mpr ⟨h, rfl⟩⟩, rfl⟩)

theorem length_bytes (self : MimoTxProperties) :
    self.bytes.length = 5 + (self.frequencyGroups.map fun group => 2 + group.length * 32).sum +
      self.transmitAntennas.length * 41 := by
  have hgroups : (self.frequencyGroups.flatMap groupBytes).length =
      (self.frequencyGroups.map fun group => 2 + group.length * 32).sum := by
    rw [List.length_flatMap]
    exact congrArg List.sum (List.map_congr_left fun group _ => length_groupBytes group)
  have hantennas : (self.transmitAntennas.flatMap MimoTxAntenna.bytes).length =
      self.transmitAntennas.length * 41 := length_flatMap_const fun antenna _ => antenna.length_bytes
  unfold bytes
  simp only [List.length_append, List.length_singleton, BigEndian.length_toBeBytes, width_uint16]
  omega

theorem meets_readGroup_stop (data : Bytes) (o : Nat) :
    Meets (readGroup data o) (fun r => r.2 = o + (2 + r.1.length * 32)) := by
  unfold readGroup readU16
  refine meets_bind_cursor (meets_readBe_stop data _) fun count o₁ h₁ => ?_
  refine meets_guard_cursor fun _ => ?_
  refine meets_bind (meets_orReject _) fun _ _ => ?_
  refine meets_bind (meets_orReject _) fun _ _ => ?_
  refine meets_guard fun _ => ?_
  refine (meets_readMany_stop (fun _ => 32) (MimoTxFrequencySegment.meets_read data) _ _).mono
    fun r hr => ?_
  rw [List.map_const', List.sum_replicate_nat] at hr
  rw [width_uint16] at h₁
  omega

/-- What the decoder returns is as long on the wire as its input. -/
theorem meets_decode_length (data : Bytes) :
    Meets (decode data) (fun self => self.bytes.length = data.length) := by
  unfold decode
  refine meets_guard fun hmin => ?_
  refine meets_bind (meets_indexByte (by omega)) fun version _ => ?_
  refine meets_guard fun _ => ?_
  refine meets_getBe_bind (by rw [width_uint16]; omega) fun groupCount => ?_
  refine meets_guard fun _ => ?_
  have hgroups := meets_readMany_stop (fun group : List MimoTxFrequencySegment => 2 + group.length * 32)
    (meets_readGroup_stop data) groupCount.toNat 3
  refine meets_bind hgroups ?_
  rintro ⟨groups, offset⟩ hgroups
  refine meets_bind (meets_readBe_stop data _) ?_
  rintro ⟨antennaCount, offset'⟩ hoffset
  refine meets_guard fun _ => ?_
  refine meets_bind (meets_orReject _) fun size hsize => ?_
  refine meets_bind (meets_orReject _) fun stop hstop => ?_
  refine meets_guard fun hlength => ?_
  refine meets_bind (meets_readMany (fun _ => True)
    (fun o => (MimoTxAntenna.meets_read data o).mono fun _ _ => trivial) _ _) ?_
  rintro ⟨antennas, _⟩ ⟨hantennas, -⟩
  dsimp only at hgroups hoffset hlength hantennas ⊢
  rw [width_uint16] at hoffset
  rw [(checkedMul_eq_some hsize).1] at hstop
  have hstop := (checkedAdd_eq_some hstop).1
  split
  · change (MimoTxProperties.mk groups antennas).bytes.length = data.length
    rw [length_bytes]
    dsimp only
    omega
  · trivial

end MimoTxProperties

/-! ## Receive antennas -/

structure RxAntennaAdd where
  antenna : MimoTxAntenna
  frequenciesHz : List UInt64
  deriving DecidableEq

namespace RxAntennaAdd

/-- `RxAntennaAdd::encode` -/
def encode (self : RxAntennaAdd) : Option Bytes := do
  let count ← u16TryFrom self.frequenciesHz.length
  if count == 0 || self.antenna.bandwidthHz == 0 || self.frequenciesHz.contains 0 then none else
  let data := [propertiesVersion] ++ toBeBytes self.antenna.antennaIndex ++
    toBeBytes self.antenna.bandwidthHz ++ toBeBytes self.antenna.spectralMaskIndex
  let data ← self.antenna.pattern.encode data
  return data ++ toBeBytes count ++ self.frequenciesHz.flatMap toBeBytes

/-- `RxAntennaAdd::decode` -/
def decode (data : Bytes) : Except Fault RxAntennaAdd := do
  if data.head? ≠ some propertiesVersion then .error .rejected else
  let (antennaIndex, offset) ← readU16 data 1
  let (bandwidthHz, offset) ← readU64 data offset
  let (spectralMaskIndex, offset) ← readU16 data offset
  let (pattern, offset) ← AntennaPattern.decode data offset
  let (count, offset) ← readU16 data offset
  if count.toNat == 0 then .error .rejected else
  let size ← orReject (checkedMul count.toNat 8)
  let stop ← orReject (checkedAdd offset size)
  if data.length ≠ stop then .error .rejected else
  let (frequenciesHz, _) ← readMany (readU64 data) count.toNat offset
  if bandwidthHz == 0 || frequenciesHz.contains 0 then .error .rejected else
  return { antenna := { frequencyGroupIndex := 0, antennaIndex, bandwidthHz, spectralMaskIndex, pattern }
           frequenciesHz }

/-- The group index of the antenna is not written; it is 0 after decoding. -/
def onWire (self : RxAntennaAdd) : RxAntennaAdd :=
  { self with antenna := { self.antenna with frequencyGroupIndex := 0 } }

/-- The values `encode` accepts. -/
structure Encodable (update : RxAntennaAdd) : Prop where
  frequencies_ne : update.frequenciesHz ≠ []
  frequencies_lt : update.frequenciesHz.length < 65536
  frequencies_pos : update.frequenciesHz.contains 0 = false
  bandwidth : update.antenna.bandwidthHz ≠ 0
  pattern : update.antenna.pattern.valid = true

def bytes (self : RxAntennaAdd) : Bytes :=
  [propertiesVersion] ++ toBeBytes self.antenna.antennaIndex ++
    toBeBytes self.antenna.bandwidthHz ++ toBeBytes self.antenna.spectralMaskIndex ++
    self.antenna.pattern.fields.bytes ++ toBeBytes (UInt16.ofNat self.frequenciesHz.length) ++
    self.frequenciesHz.flatMap toBeBytes

theorem length_bytes (self : RxAntennaAdd) :
    self.bytes.length = 42 + self.frequenciesHz.length * 8 := by
  unfold bytes
  rw [List.length_append, length_flatMap_const fun x _ => BigEndian.length_toBeBytes x]
  rfl

/-- `encode` writes the bytes of the values it accepts. -/
theorem encode_eq_some {self : RxAntennaAdd} {c : Bytes} :
    self.encode = some c ↔ self.Encodable ∧ c = self.bytes := by
  unfold encode
  constructor
  · intro h
    obtain ⟨count, hcount, h1⟩ := Option.bind_eq_some_iff.mp h
    split at h1
    · cases h1
    next hok =>
    obtain ⟨data, hdata, h2⟩ := Option.bind_eq_some_iff.mp h1
    obtain ⟨hpattern, rfl⟩ := AntennaPattern.encode_eq_some.mp hdata
    obtain ⟨hlt, rfl⟩ := u16TryFrom_some_iff.mp hcount
    simp only [Bool.or_eq_true, not_or, beq_iff_eq, Bool.not_eq_true] at hok
    obtain ⟨⟨hne, hbandwidth⟩, hfrequencies⟩ := hok
    refine ⟨⟨?_, hlt, hfrequencies, hbandwidth, hpattern⟩, (Option.some.inj h2).symm⟩
    exact fun hnil => hne (by rw [hnil]; rfl)
  · rintro ⟨h, rfl⟩
    rw [u16TryFrom_some_iff.mpr ⟨h.frequencies_lt, rfl⟩]
    simp only [Option.bind_eq_bind, Option.bind_some]
    rw [beq_false_of_ne (ofNat_ne_zero h.frequencies_lt (by simpa using h.frequencies_ne)),
      beq_false_of_ne h.bandwidth, h.frequencies_pos,
      AntennaPattern.encode_eq_some.mpr ⟨h.pattern, rfl⟩]
    rfl

theorem Encodable.decode_bytes {self : RxAntennaAdd} (h : self.Encodable) {data : Bytes}
    (hc : data = self.bytes) : decode data = .ok self.onWire := by
  have hend : data.length = 42 + self.frequenciesHz.length * 8 := hc ▸ self.length_bytes
  have hlt := h.frequencies_lt
  have hcount := UInt16.toNat_ofNat_of_lt' hlt
  have hne : self.frequenciesHz.length ≠ 0 := by simpa using h.frequencies_ne
  have hdata : data.length < 2 ^ 64 := by omega
  have hhead : data.head? = some propertiesVersion := by rw [hc]; rfl
  have hstands : StandsAt data 0 self.bytes := hc ▸ standsAt_self data
  simp only [bytes, List.append_assoc, standsAt_append, List.length_singleton,
    BigEndian.length_toBeBytes, width_uint16, width_uint64, PatternFields.length_bytes,
    Nat.zero_add, Nat.reduceAdd] at hstands
  obtain ⟨-, hindex, hbandwidth, hmask, hpattern, hcountAt, hfrequenciesAt⟩ := hstands
  have hfrequencies := readMany_eq (fun x _ _ hat => readU64_eq (x := x) hdata hat) hfrequenciesAt
  unfold decode
  rw [if_neg (not_not.mpr hhead)]
  simp only [readU16_eq hdata hindex, readU64_eq hdata hbandwidth, readU16_eq hdata hmask,
    AntennaPattern.decode_bytes hdata h.pattern hpattern, readU16_eq hdata hcountAt, ok_bind, hcount,
    beq_false_of_ne hne, Bool.false_eq_true, if_false]
  rw [checkedMul_eq (by omega), orReject_some, ok_bind, checkedAdd_eq (by omega), orReject_some,
    ok_bind, if_neg (not_not.mpr hend), hfrequencies]
  simp only [ok_bind, beq_false_of_ne h.bandwidth, h.frequencies_pos]
  rfl

theorem meets_decode (data : Bytes) :
    Meets (decode data) (fun self => self.Encodable ∧ self.onWire = self) := by
  unfold decode
  refine meets_guard fun _ => ?_
  refine meets_bind (meets_readBe data _) ?_
  rintro ⟨antennaIndex, _⟩ -
  refine meets_bind (meets_readBe data _) ?_
  rintro ⟨bandwidth, _⟩ -
  refine meets_bind (meets_readBe data _) ?_
  rintro ⟨mask, _⟩ -
  refine meets_bind (AntennaPattern.meets_decode data _) ?_
  rintro ⟨pattern, _⟩ hpattern
  refine meets_bind (meets_readBe data _) ?_
  rintro ⟨count, _⟩ -
  refine meets_guard fun hne => ?_
  refine meets_bind (meets_orReject _) fun _ _ => ?_
  refine meets_bind (meets_orReject _) fun _ _ => ?_
  refine meets_guard fun _ => ?_
  refine meets_bind (meets_readMany (fun _ => True) (fun o => meets_readBe data o) _ _) ?_
  rintro ⟨frequencies, _⟩ ⟨hlen, -⟩
  refine meets_guard fun hok => ?_
  simp only [Bool.or_eq_true, not_or, beq_iff_eq, Bool.not_eq_true] at hok
  rw [beq_iff_eq, ← hlen] at hne
  refine ⟨⟨?_, ?_, hok.2, hok.1, hpattern⟩, rfl⟩
  · exact fun hnil => hne (by rw [show frequencies = [] from hnil]; rfl)
  · exact hlen ▸ count.toNat_lt

theorem exact : Exact encode decode onWire :=
  Exact.of_meets
    (fun _ _ h => (encode_eq_some.mp h).1.decode_bytes (encode_eq_some.mp h).2)
    (fun b => (meets_decode b).mono fun self h =>
      ⟨⟨self.bytes, encode_eq_some.mpr ⟨h.1, rfl⟩⟩, h.2⟩)

end RxAntennaAdd

structure RxAntennaRemove where
  antennaIndex : UInt16
  deriving DecidableEq

/-- `RxAntennaRemove::encode` -/
def RxAntennaRemove.encode (self : RxAntennaRemove) : Bytes :=
  [propertiesVersion] ++ toBeBytes self.antennaIndex

/-- `RxAntennaRemove::decode` -/
def RxAntennaRemove.decode (data : Bytes) : Except Fault RxAntennaRemove := do
  if data.length ≠ 3 then .error .rejected else
  if (← indexByte data 0) ≠ propertiesVersion then .error .rejected else
  return { antennaIndex := ← getU16 data 1 }

end Emane.PluginApi
