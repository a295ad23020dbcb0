import Emane.PluginApi.MimoTx

/-!
# Receive properties

The receive properties of a message: transmit time, propagation delay, one record for each pair of
a receive and a transmit antenna with its segments, and the Doppler shifts. The decoder checks the
counts and the end of the input itself and leaves the tests of the values to the encoder, which it
runs on what it has read.
-/

set_option autoImplicit false

namespace Emane.PluginApi

open Emane.Lib

/-! ## Segments and antenna records -/

/-- The segment loop of `MimoRxProperties::decode`. -/
def RxFrequencySegment.read (data : Bytes) : Cursor RxFrequencySegment := do
  return {
    frequencyHz := ← readU64 data
    rxPowerDbm := ⟨← readU64 data⟩
    durationMicroseconds := ← readU64 data
    offsetMicroseconds := ← readU64 data }

/-- `MimoRxProperties::SEGMENT_LEN` -/
theorem RxFrequencySegment.length_write (segment : RxFrequencySegment) :
    segment.write.length = 32 := rfl

theorem RxFrequencySegment.read_write {segment : RxFrequencySegment} {data : Bytes} {o : Nat}
    (hdata : data.length < 2 ^ 64) (h : StandsAt data o segment.write) :
    read data o = .ok (segment, o + segment.write.length) :=
  readFour_eq (fun frequency power duration offset => RxFrequencySegment.mk frequency ⟨power⟩ duration offset) hdata h

theorem RxFrequencySegment.meets_read (data : Bytes) (o : Nat) :
    Meets (read data o) (fun r => r.2 = o + 32) :=
  meets_readFour_stop (fun frequency power duration offset =>
    RxFrequencySegment.mk frequency ⟨power⟩ duration offset) data o

structure MimoRxAntennaInfo where
  receiveAntennaIndex : UInt16
  transmitAntennaIndex : UInt16
  spanMicroseconds : UInt64
  receiverSensitivityDbm : F64
  noiseFloorDbm : F64
  segments : List RxFrequencySegment
  deriving DecidableEq

namespace MimoRxAntennaInfo

/-- The part of a record in front of its segments. -/
def head (info : MimoRxAntennaInfo) : Bytes :=
  toBeBytes info.receiveAntennaIndex ++ toBeBytes info.transmitAntennaIndex ++
    toBeBytes info.spanMicroseconds ++ toBeBytes info.receiverSensitivityDbm.bits ++
    toBeBytes info.noiseFloorDbm.bits

/-- One turn of the record loop of `MimoRxProperties::encode`. -/
def append (data : Bytes) (info : MimoRxAntennaInfo) : Option Bytes := do
  let count ← u16TryFrom info.segments.length
  return data ++ info.head ++ toBeBytes count ++ info.segments.flatMap RxFrequencySegment.write

/-- One turn of the record loop of `MimoRxProperties::decode`. -/
def read (data : Bytes) : Cursor MimoRxAntennaInfo := do
  let receiveAntennaIndex ← readU16 data
  let transmitAntennaIndex ← readU16 data
  let spanMicroseconds ← readU64 data
  let receiverSensitivityDbm := F64.mk (← readU64 data)
  let noiseFloorDbm := F64.mk (← readU64 data)
  let count := (← readU16 data).toNat
  if count == 0 then throw .rejected else
  let segments ← readMany (RxFrequencySegment.read data) count
  return { receiveAntennaIndex, transmitAntennaIndex, spanMicroseconds, receiverSensitivityDbm,
           noiseFloorDbm, segments }

/-- The records `MimoRxProperties::encode` refuses. -/
def refused (info : MimoRxAntennaInfo) : Bool :=
  info.segments.isEmpty || info.segments.length > 65535 ||
    !info.receiverSensitivityDbm.isFinite || !info.noiseFloorDbm.isFinite ||
    info.segments.any fun segment => !segment.rxPowerDbm.isFinite

def bytes (info : MimoRxAntennaInfo) : Bytes :=
  info.head ++ toBeBytes (UInt16.ofNat info.segments.length) ++
    info.segments.flatMap RxFrequencySegment.write

/-- `MimoRxProperties::INFO_LEN` and the segments. -/
theorem length_bytes (info : MimoRxAntennaInfo) :
    info.bytes.length = 30 + info.segments.length * 32 := by
  unfold bytes
  rw [List.length_append, length_flatMap_const fun segment _ => segment.length_write]
  rfl

theorem append_eq_some (data : Bytes) (info : MimoRxAntennaInfo) (c : Bytes) :
    append data info = some c ↔ info.segments.length < 65536 ∧ c = data ++ info.bytes := by
  unfold append bytes u16TryFrom
  rw [Option.bind_eq_bind]
  split
  · next h => simp [h, List.append_assoc, eq_comm]
  · next h => simp [h]

theorem read_bytes {info : MimoRxAntennaInfo} {data : Bytes} {o : Nat}
    (hdata : data.length < 2 ^ 64) (hne : info.segments ≠ []) (hlt : info.segments.length < 65536)
    (h : StandsAt data o info.bytes) : read data o = .ok (info, o + info.bytes.length) := by
  have hcount := UInt16.toNat_ofNat_of_lt' hlt
  have hlen : (info.segments.flatMap RxFrequencySegment.write).length = info.segments.length * 32 :=
    length_flatMap_const fun segment _ => segment.length_write
  have hpos : info.segments.length ≠ 0 := by simpa using hne
  rw [length_bytes]
  simp only [bytes, head, List.append_assoc, standsAt_append, BigEndian.length_toBeBytes,
    width_uint16, width_uint64] at h
  obtain ⟨hreceive, htransmit, hspan, hsensitivity, hfloor, hcountAt, hsegmentsAt⟩ := h
  have hsegments := readMany_eq (fun segment _ _ hat => segment.read_write hdata hat) hsegmentsAt
  unfold read
  rw [cursor_bind_eq (readU16_eq hdata hreceive), cursor_bind_eq (readU16_eq hdata htransmit),
    cursor_bind_eq (readU64_eq hdata hspan), cursor_bind_eq (readU64_eq hdata hsensitivity),
    cursor_bind_eq (readU64_eq hdata hfloor), cursor_bind_eq (readU16_eq hdata hcountAt)]
  simp only [hcount, beq_false_of_ne hpos, Bool.false_eq_true, if_false]
  rw [cursor_bind_eq hsegments, hlen]
  have hstop : o + 2 + 2 + 8 + 8 + 8 + 2 + info.segments.length * 32 =
      o + (30 + info.segments.length * 32) := by omega
  rw [hstop]
  rfl

theorem meets_read (data : Bytes) (o : Nat) : Meets (read data o) (fun _ => True) := by
  unfold read readU16 readU64
  repeat refine meets_bind_cursor (meets_readBe data _) fun _ _ _ => ?_
  refine meets_guard_cursor fun _ => ?_
  refine meets_bind_cursor (meets_readMany (fun _ => True)
    (fun o => (RxFrequencySegment.meets_read data o).mono fun _ _ => trivial) _ _) fun _ _ _ => ?_
  trivial

theorem not_refused {info : MimoRxAntennaInfo} :
    info.refused = false ↔ (info.segments ≠ [] ∧ info.segments.length < 65536) ∧
      info.receiverSensitivityDbm.isFinite = true ∧ info.noiseFloorDbm.isFinite = true ∧
      ∀ segment ∈ info.segments, segment.rxPowerDbm.isFinite = true := by
  unfold refused
  simp only [Bool.or_eq_false_iff, List.isEmpty_eq_false_iff, decide_eq_false_iff_not,
    List.any_eq_false, Bool.not_eq_true', Bool.not_eq_false', Bool.not_eq_false, and_assoc, gt_iff_lt, Nat.not_lt,
    Nat.lt_succ_iff]

end MimoRxAntennaInfo

/-! ## Doppler shifts -/

/-- One turn of the shift loop of `MimoRxProperties::encode`. -/
def writeShift (shift : UInt64 × Int64) : Bytes :=
  toBeBytes shift.1 ++ toBeBytes shift.2.toUInt64

/-- One turn of the shift loop of `MimoRxProperties::decode`. -/
def readShift (data : Bytes) : Cursor (UInt64 × Int64) := do
  return (← readU64 data, (← readU64 data).toInt64)

/-- `MimoRxProperties::DOPPLER_LEN` -/
theorem length_writeShift (shift : UInt64 × Int64) : (writeShift shift).length = 16 := rfl

theorem readShift_writeShift {shift : UInt64 × Int64} {data : Bytes} {o : Nat}
    (hdata : data.length < 2 ^ 64) (h : StandsAt data o (writeShift shift)) :
    readShift data o = .ok (shift, o + (writeShift shift).length) := by
  simp only [writeShift, standsAt_append, BigEndian.length_toBeBytes, width_uint64] at h
  unfold readShift
  rw [cursor_bind_eq (readU64_eq hdata h.1), cursor_bind_eq (readU64_eq hdata h.2),
    Int64.toInt64_toUInt64]
  rfl

theorem meets_readShift (data : Bytes) (o : Nat) : Meets (readShift data o) (fun _ => True) := by
  unfold readShift readU64
  repeat refine meets_bind_cursor (meets_readBe data _) fun _ _ _ => ?_
  trivial

/-! ## The properties -/

structure MimoRxProperties where
  txTimeMicroseconds : Int64
  propagationMicroseconds : UInt64
  antennaInfos : List MimoRxAntennaInfo
  dopplerShiftsHz : List (UInt64 × Int64)
  deriving DecidableEq

namespace MimoRxProperties

/-- `MIMO_RX_PROPERTIES_VERSION` -/
def version : UInt8 := 2

/-- The capacity computed by `encode`, in 64-bit sizes. -/
def capacity (self : MimoRxProperties) : Option Nat := do
  let segmentCount := (self.antennaInfos.map fun info => info.segments.length).sum
  let infos ← checkedMul self.antennaInfos.length 30
  let total ← checkedAdd 21 infos
  let segments ← checkedMul segmentCount 32
  let total ← checkedAdd total segments
  let shifts ← checkedMul self.dopplerShiftsHz.length 16
  checkedAdd total shifts

/-- `MimoRxProperties::encode` -/
def encode (self : MimoRxProperties) : Option Bytes := do
  let infoCount ← u16TryFrom self.antennaInfos.length
  let dopplerCount ← u16TryFrom self.dopplerShiftsHz.length
  if infoCount == 0 || self.antennaInfos.any MimoRxAntennaInfo.refused then none else
  let _ ← self.capacity
  let data := [version] ++ toBeBytes self.txTimeMicroseconds.toUInt64 ++
    toBeBytes self.propagationMicroseconds ++ toBeBytes infoCount
  let data ← self.antennaInfos.foldlM MimoRxAntennaInfo.append data
  return data ++ toBeBytes dopplerCount ++ self.dopplerShiftsHz.flatMap writeShift

/-- `MimoRxProperties::decode` -/
def decode (data : Bytes) : Except Fault MimoRxProperties := do
  if data.length < 21 then .error .rejected else
  if (← indexByte data 0) ≠ version then .error .rejected else
  let (txTime, offset) ← readU64 data 1
  let (propagationMicroseconds, offset) ← readU64 data offset
  let (infoCount, offset) ← readU16 data offset
  if infoCount.toNat == 0 then .error .rejected else
  let (antennaInfos, offset) ← readMany (MimoRxAntennaInfo.read data) infoCount.toNat offset
  let (dopplerCount, offset) ← readU16 data offset
  let size ← orReject (checkedMul dopplerCount.toNat 16)
  let stop ← orReject (checkedAdd offset size)
  if data.length ≠ stop then .error .rejected else
  let (dopplerShiftsHz, _) ← readMany (readShift data) dopplerCount.toNat offset
  let result : MimoRxProperties :=
    { txTimeMicroseconds := txTime.toInt64, propagationMicroseconds, antennaInfos, dopplerShiftsHz }
  orReject (result.encode.map fun _ => result)

/-- The values `encode` accepts. -/
structure Encodable (properties : MimoRxProperties) : Prop where
  infos_ne : properties.antennaInfos ≠ []
  infos_lt : properties.antennaInfos.length < 65536
  shifts_lt : properties.dopplerShiftsHz.length < 65536
  info : ∀ info ∈ properties.antennaInfos, info.refused = false

def bytes (self : MimoRxProperties) : Bytes :=
  [version] ++ toBeBytes self.txTimeMicroseconds.toUInt64 ++
    toBeBytes self.propagationMicroseconds ++
    toBeBytes (UInt16.ofNat self.antennaInfos.length) ++
    self.antennaInfos.flatMap MimoRxAntennaInfo.bytes ++
    toBeBytes (UInt16.ofNat self.dopplerShiftsHz.length) ++ self.dopplerShiftsHz.flatMap writeShift

theorem Encodable.segments_lt {self : MimoRxProperties} (h : self.Encodable) :
    ∀ info ∈ self.antennaInfos, info.segments.length < 65536 :=
  fun info hinfo => (MimoRxAntennaInfo.not_refused.mp (h.info info hinfo)).1.2

/-- The segments of the records are at most so many as 16-bit counts allow. -/
theorem Encodable.segmentCount_le {self : MimoRxProperties} (h : self.Encodable) :
    (self.antennaInfos.map fun info => info.segments.length).sum ≤
      self.antennaInfos.length * 65535 :=
  sum_map_le fun info hinfo => Nat.le_of_lt_succ (h.segments_lt info hinfo)

theorem Encodable.capacity_eq {self : MimoRxProperties} (h : self.Encodable) :
    ∃ n, self.capacity = some n := by
  have hsum := h.segmentCount_le
  have hinfos := h.infos_lt
  have hshifts := h.shifts_lt
  exact ⟨_, @checkedSize_eq 21 _ 30 _ 32 _ 16 (by omega)⟩

/-- `encode` writes the bytes of the values it accepts. -/
theorem encode_eq_some {self : MimoRxProperties} {c : Bytes} :
    self.encode = some c ↔ self.Encodable ∧ c = self.bytes := by
  unfold encode
  constructor
  · intro h
    obtain ⟨infoCount, hinfoCount, h1⟩ := Option.bind_eq_some_iff.mp h
    obtain ⟨dopplerCount, hdopplerCount, h2⟩ := Option.bind_eq_some_iff.mp h1
    split at h2
    · cases h2
    next hok =>
    obtain ⟨_, _, h3⟩ := Option.bind_eq_some_iff.mp h2
    obtain ⟨data, hdata, h4⟩ := Option.bind_eq_some_iff.mp h3
    obtain ⟨-, rfl⟩ := (foldlM_append_eq_some MimoRxAntennaInfo.append_eq_some).mp hdata
    obtain ⟨hinfosLt, rfl⟩ := u16TryFrom_some_iff.mp hinfoCount
    obtain ⟨hshiftsLt, rfl⟩ := u16TryFrom_some_iff.mp hdopplerCount
    simp only [Bool.or_eq_true, not_or, beq_iff_eq, Bool.not_eq_true, List.any_eq_false] at hok
    refine ⟨⟨?_, hinfosLt, hshiftsLt, ?_⟩, (Option.some.inj h4).symm⟩
    · exact fun hnil => hok.1 (by rw [hnil]; rfl)
    · exact fun info hinfo => hok.2 info hinfo
  · rintro ⟨h, rfl⟩
    obtain ⟨n, hcapacity⟩ := h.capacity_eq
    have hrefused : self.antennaInfos.any MimoRxAntennaInfo.refused = false :=
      List.any_eq_false.mpr fun info hinfo => by rw [h.info info hinfo]; simp
    have hinfos : ∀ data, self.antennaInfos.foldlM MimoRxAntennaInfo.append data =
        some (data ++ self.antennaInfos.flatMap MimoRxAntennaInfo.bytes) := fun _ =>
      (foldlM_append_eq_some MimoRxAntennaInfo.append_eq_some).mpr ⟨h.segments_lt, rfl⟩
    rw [u16TryFrom_some_iff.mpr ⟨h.infos_lt, rfl⟩, u16TryFrom_some_iff.mpr ⟨h.shifts_lt, rfl⟩]
    simp only [Option.bind_eq_bind, Option.bind_some]
    rw [beq_false_of_ne (ofNat_ne_zero h.infos_lt (by simpa using h.infos_ne)), hrefused, hcapacity]
    simp only [Bool.or_false, Bool.false_eq_true, if_false, Option.bind_some]
    rw [hinfos]
    rfl

theorem length_bytes (self : MimoRxProperties) :
    self.bytes.length = 19 + (self.antennaInfos.flatMap MimoRxAntennaInfo.bytes).length + 2 +
      self.dopplerShiftsHz.length * 16 := by
  unfold bytes
  rw [List.length_append, length_flatMap_const fun shift _ => length_writeShift shift]
  simp only [List.length_append, List.length_singleton, BigEndian.length_toBeBytes, width_uint16,
    width_uint64]

theorem Encodable.length_bytes_lt {self : MimoRxProperties} (h : self.Encodable) :
    self.bytes.length < 2 ^ 64 := by
  have hsum := h.segmentCount_le
  have hinfos : (self.antennaInfos.flatMap MimoRxAntennaInfo.bytes).length =
      self.antennaInfos.length * 30 +
        (self.antennaInfos.map fun info => info.segments.length).sum * 32 := by
    clear h hsum
    induction self.antennaInfos with
    | nil => rfl
    | cons info infos ih =>
        rw [List.flatMap_cons, List.length_append, ih, info.length_bytes, List.map_cons,
          List.sum_cons, List.length_cons]
        omega
  have hinfosLt := h.infos_lt
  have hshiftsLt := h.shifts_lt
  rw [length_bytes, hinfos]
  omega

/-- The decoder reads back what the encoder wrote. -/
theorem Encodable.decode_bytes {self : MimoRxProperties} (h : self.Encodable) {data : Bytes}
    (hc : data = self.bytes) : decode data = .ok self := by
  have hdata : data.length < 2 ^ 64 := hc ▸ h.length_bytes_lt
  have hend := hc ▸ self.length_bytes
  have hinfoCount := UInt16.toNat_ofNat_of_lt' h.infos_lt
  have hdopplerCount := UInt16.toNat_ofNat_of_lt' h.shifts_lt
  have hinfosNe : self.antennaInfos.length ≠ 0 := by simpa using h.infos_ne
  have hencode : self.encode = some self.bytes := encode_eq_some.mpr ⟨h, rfl⟩
  have hstands : StandsAt data 0 self.bytes := hc ▸ standsAt_self data
  simp only [bytes, List.append_assoc, standsAt_append, List.length_singleton,
    BigEndian.length_toBeBytes, width_uint16, width_uint64, Nat.zero_add, Nat.reduceAdd] at hstands
  obtain ⟨hversion, htime, hpropagation, hinfoCountAt, hinfosAt, hdopplerCountAt, hshiftsAt⟩ := hstands
  have hinfos := readMany_eq (fun info hinfo _ hat => MimoRxAntennaInfo.read_bytes hdata
    (MimoRxAntennaInfo.not_refused.mp (h.info info hinfo)).1.1 (h.segments_lt info hinfo) hat) hinfosAt
  have hshifts := readMany_eq (fun _ _ _ hat => readShift_writeShift hdata hat) hshiftsAt
  unfold decode
  rw [if_neg (by omega), indexByte_eq hversion, ok_bind, if_neg (not_not.mpr rfl)]
  simp only [readU64_eq hdata htime, readU64_eq hdata hpropagation, readU16_eq hdata hinfoCountAt,
    ok_bind, hinfoCount, beq_false_of_ne hinfosNe, Bool.false_eq_true, if_false, hinfos,
    readU16_eq hdata hdopplerCountAt, hdopplerCount]
  rw [checkedMul_eq (by omega), orReject_some, ok_bind, checkedAdd_eq (by omega), orReject_some,
    ok_bind, if_neg (not_not.mpr hend), hshifts]
  simp only [ok_bind, Int64.toInt64_toUInt64]
  rw [hencode]
  rfl

/-- On any input the decoder stays inside it; what it returns has passed the encoder. -/
theorem meets_decode (data : Bytes) :
    Meets (decode data) (fun self => ∃ c, self.encode = some c) := by
  unfold decode
  refine meets_guard fun hmin => ?_
  refine meets_bind (meets_indexByte (by omega)) fun version _ => ?_
  refine meets_guard fun _ => ?_
  refine meets_bind (meets_readBe data _) ?_
  rintro ⟨txTime, _⟩ -
  refine meets_bind (meets_readBe data _) ?_
  rintro ⟨propagation, _⟩ -
  refine meets_bind (meets_readBe data _) ?_
  rintro ⟨infoCount, _⟩ -
  refine meets_guard fun _ => ?_
  refine meets_bind (meets_readMany (fun _ => True) (MimoRxAntennaInfo.meets_read data) _ _) ?_
  rintro ⟨infos, _⟩ -
  refine meets_bind (meets_readBe data _) ?_
  rintro ⟨dopplerCount, _⟩ -
  refine meets_bind (meets_orReject _) fun _ _ => ?_
  refine meets_bind (meets_orReject _) fun _ _ => ?_
  refine meets_guard fun _ => ?_
  refine meets_bind (meets_readMany (fun _ => True) (meets_readShift data) _ _) ?_
  rintro ⟨shifts, _⟩ -
  refine (meets_orReject _).mono fun self hself => ?_
  obtain ⟨c, hc, rfl⟩ := Option.map_eq_some_iff.mp hself
  exact ⟨c, hc⟩

theorem exact : Exact encode decode id :=
  Exact.of_meets
    (fun _ _ h => (encode_eq_some.mp h).1.decode_bytes (encode_eq_some.mp h).2)
    (fun b => (meets_decode b).mono fun _ hc => ⟨hc, rfl⟩)

end MimoRxProperties

/-! ## The codecs together -/

/-- **Every variable-length codec is exact.** What an encoder writes its decoder reads back, no
decoder indexes outside its input, and what a decoder returns can be encoded and decoded again. The
update of a receive antenna does not carry the antenna's frequency-group index. -/
theorem codecs_exact :
    Exact R2riQueueMetrics.encode R2riQueueMetrics.decode id ∧
    Exact R2riNeighborMetrics.encode R2riNeighborMetrics.decode id ∧
    Exact FrequencyOfInterest.encode FrequencyOfInterest.decode id ∧
    Exact TxFrequencySegments.encode TxFrequencySegments.decode id ∧
    Exact RxFrequencySegments.encode RxFrequencySegments.decode id ∧
    Exact TxTransmitters.encode TxTransmitters.decode id ∧
    ExactInPlace AntennaPattern.encode AntennaPattern.decode ∧
    Exact MimoTxProperties.encode MimoTxProperties.decode id ∧
    Exact RxAntennaAdd.encode RxAntennaAdd.decode RxAntennaAdd.onWire ∧
    Exact MimoRxProperties.encode MimoRxProperties.decode id :=
  ⟨R2riQueueMetrics.exact, R2riNeighborMetrics.exact, FrequencyOfInterest.exact,
    TxFrequencySegments.exact, RxFrequencySegments.exact, TxTransmitters.exact,
    AntennaPattern.exact, MimoTxProperties.exact, RxAntennaAdd.exact, MimoRxProperties.exact⟩

end Emane.PluginApi
