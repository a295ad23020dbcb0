import Emane.Lib.Decoding

/-!
# Tables of the plugin interface

The controls whose payload is a version byte, a 16-bit count and so many entries of one length:
queue metrics, neighbor metrics, transmit and receive frequency segments, transmitters. They differ
in the entry, in the entries they refuse and in whether an empty table is refused, so one codec
(`encodeTable`, `decodeTable`) with one exactness proof (`table_exact`) serves all five. The
frequencies of interest carry a bandwidth in front of the table and have a body of their own.
-/

set_option autoImplicit false

namespace Emane.PluginApi

open Emane.Lib

/-! ## Numbers on the wire -/

/-- `PROPERTIES_VERSION` -/
def propertiesVersion : UInt8 := 1

/-- A single-precision number, by its bits. -/
structure F32 where
  bits : UInt32
  deriving DecidableEq

/-- A double-precision number, by its bits. -/
structure F64 where
  bits : UInt64
  deriving DecidableEq

/-- Neither infinite nor a NaN: the exponent is not all ones. -/
def F32.isFinite (x : F32) : Bool := x.bits &&& 0x7f800000 != 0x7f800000

/-- Neither infinite nor a NaN: the exponent is not all ones. -/
def F64.isFinite (x : F64) : Bool := x.bits &&& 0x7ff0000000000000 != 0x7ff0000000000000

/-- `u16::try_from` on a size. -/
def u16TryFrom (n : Nat) : Option UInt16 := if n < 65536 then some (UInt16.ofNat n) else none

theorem u16TryFrom_some_iff {n : Nat} {count : UInt16} :
    u16TryFrom n = some count ↔ n < 65536 ∧ count = UInt16.ofNat n := by
  unfold u16TryFrom
  split
  · next h => simp [h, eq_comm]
  · next h => simp [h]

theorem u16TryFrom_eq_some {n : Nat} {count : UInt16} :
    u16TryFrom n = some count ↔ n < 65536 ∧ count.toNat = n := by
  rw [u16TryFrom_some_iff]
  constructor
  · rintro ⟨hn, rfl⟩
    exact ⟨hn, UInt16.toNat_ofNat_of_lt' hn⟩
  · rintro ⟨hn, rfl⟩
    exact ⟨hn, UInt16.ofNat_toNat.symm⟩

theorem ofNat_ne_zero {n : Nat} (hlt : n < 65536) (hne : n ≠ 0) : UInt16.ofNat n ≠ 0 := by
  intro h
  have htoNat := congrArg UInt16.toNat h
  rw [UInt16.toNat_ofNat_of_lt' hlt] at htoNat
  exact hne htoNat

/-- A count read from the wire can be written again. -/
theorem u16TryFrom_toNat (count : UInt16) : u16TryFrom count.toNat = some count :=
  u16TryFrom_eq_some.mpr ⟨count.toNat_lt, rfl⟩

theorem toNat_beq_zero (count : UInt16) : (count.toNat == 0) = (count == 0) := by
  rw [Bool.eq_iff_iff, beq_iff_eq, beq_iff_eq, ← UInt16.toNat_inj]
  rfl

/-- `get_u16` -/
def getU16 (data : Bytes) (offset : Nat) : Except Fault UInt16 := getBe UInt16 data offset

/-- `get_u32` -/
def getU32 (data : Bytes) (offset : Nat) : Except Fault UInt32 := getBe UInt32 data offset

/-- `get_u64` -/
def getU64 (data : Bytes) (offset : Nat) : Except Fault UInt64 := getBe UInt64 data offset

/-! ## One codec for all tables -/

section

variable {α : Type}

/-- How one entry of a table is written and read, and which entries are allowed. Reading takes the
entry from a fixed offset by indexing, so it is safe only where the whole entry fits. -/
structure Entry (α : Type) where
  len : Nat
  write : α → Bytes
  get : Bytes → Nat → Except Fault α
  allowed : α → Bool
  length_write : ∀ a, (write a).length = len
  get_write : ∀ {data o a}, StandsAt data o (write a) → get data o = .ok a
  meets_get : ∀ {data o}, o + len ≤ data.length → Meets (get data o) (fun _ => True)

/-- `encode` of a table. -/
def encodeTable (entry : Entry α) (refusesEmpty : Bool) (entries : List α) : Option Bytes := do
  let count ← u16TryFrom entries.length
  if (refusesEmpty && count == 0) || entries.any (fun a => !entry.allowed a) then
    none
  else
    some ([propertiesVersion] ++ toBeBytes count ++ entries.flatMap entry.write)

/-- `decode` of a table. -/
def decodeTable (entry : Entry α) (refusesEmpty : Bool) (data : Bytes) :
    Except Fault (List α) := do
  if data.length < 3 then .error .rejected else
  if (← indexByte data 0) ≠ propertiesVersion then .error .rejected else
  let count := (← getU16 data 1).toNat
  if refusesEmpty && count == 0 then .error .rejected else
  let size ← orReject (checkedMul count entry.len)
  let stop ← orReject (checkedAdd 3 size)
  if data.length ≠ stop then .error .rejected else
  let entries ← (List.range count).mapM fun index => entry.get data (3 + index * entry.len)
  if entries.any (fun a => !entry.allowed a) then .error .rejected else
  return entries

/-- What the encoder writes, and when. -/
theorem encodeTable_eq_some {entry : Entry α} {refusesEmpty : Bool} {entries : List α} {c : Bytes} :
    encodeTable entry refusesEmpty entries = some c ↔
      ∃ count : UInt16, count.toNat = entries.length ∧
        (refusesEmpty && count == 0) = false ∧ (entries.any fun a => !entry.allowed a) = false ∧
        c = [propertiesVersion] ++ toBeBytes count ++ entries.flatMap entry.write := by
  unfold encodeTable
  constructor
  · intro h
    obtain ⟨count, hcount, h⟩ := Option.bind_eq_some_iff.mp h
    split at h
    · cases h
    · next hok =>
        rw [Bool.or_eq_true, not_or, Bool.not_eq_true, Bool.not_eq_true] at hok
        exact ⟨count, (u16TryFrom_eq_some.mp hcount).2, hok.1, hok.2, (Option.some.inj h).symm⟩
  · rintro ⟨count, hcount, hempty, hallowed, rfl⟩
    rw [← hcount, u16TryFrom_toNat, Option.bind_eq_bind, Option.bind_some, hempty, hallowed]
    rfl

/-- The decoder reads back what the encoder wrote. -/
theorem decodeTable_encodeTable {entry : Entry α} {refusesEmpty : Bool} {entries : List α}
    {c : Bytes} (hlen : entry.len ≤ 2 ^ 32) (h : encodeTable entry refusesEmpty entries = some c) :
    decodeTable entry refusesEmpty c = .ok entries := by
  obtain ⟨count, hcount, hempty, hallowed, hc⟩ := encodeTable_eq_some.mp h
  have hstands : StandsAt c 0 ([propertiesVersion] ++ toBeBytes count ++ entries.flatMap entry.write) := by
    rw [← hc]
    exact standsAt_self c
  have hsize : c.length = 3 + count.toNat * entry.len := by
    rw [hc, List.length_append, length_flatMap_const fun a _ => entry.length_write a, hcount]
    rfl
  have hbound : count.toNat * entry.len ≤ 65535 * 2 ^ 32 :=
    Nat.mul_le_mul (Nat.le_of_lt_succ count.toNat_lt) hlen
  simp only [standsAt_append, List.length_append, List.length_singleton,
    BigEndian.length_toBeBytes, width_uint16, Nat.zero_add, Nat.reduceAdd] at hstands
  obtain ⟨⟨hversion, hcountAt⟩, htable⟩ := hstands
  have hentries : (List.range count.toNat).mapM
      (fun index => entry.get c (3 + index * entry.len)) = .ok entries := by
    rw [hcount]
    apply mapM_range_eq
    intro i hi
    exact entry.get_write (standsAt_entry (fun a _ => entry.length_write a) htable i hi)
  rw [← toNat_beq_zero] at hempty
  unfold decodeTable
  rw [if_neg (by omega), indexByte_eq hversion, ok_bind, if_neg (by simp), getU16, getBe_eq hcountAt,
    ok_bind]
  simp only [hempty, Bool.false_eq_true, if_false]
  rw [checkedMul_eq (by omega), orReject_some, ok_bind, checkedAdd_eq (by omega), orReject_some,
    ok_bind, if_neg (not_not.mpr hsize), hentries, ok_bind, hallowed]
  rfl

/-- On any input the decoder indexes inside it, and a table it returns can be encoded. -/
theorem meets_decodeTable (entry : Entry α) (refusesEmpty : Bool) (data : Bytes) :
    Meets (decodeTable entry refusesEmpty data)
      (fun entries => ∃ c, encodeTable entry refusesEmpty entries = some c) := by
  unfold decodeTable
  refine meets_guard fun hthree => ?_
  refine meets_bind (meets_indexByte (by omega)) fun version _ => ?_
  refine meets_guard fun _ => ?_
  refine meets_bind (meets_getBe (by rw [width_uint16]; omega)) fun count _ => ?_
  refine meets_guard fun hempty => ?_
  refine meets_bind (meets_orReject _) fun size hsize => ?_
  refine meets_bind (meets_orReject _) fun stop hstop => ?_
  refine meets_guard fun hlength => ?_
  have hfits : data.length = 3 + count.toNat * entry.len := by
    rw [not_not.mp hlength, (checkedAdd_eq_some hstop).1, (checkedMul_eq_some hsize).1]
  have hentry : ∀ i ∈ List.range count.toNat,
      Meets (entry.get data (3 + i * entry.len)) (fun _ => True) := by
    intro i hi
    apply entry.meets_get
    have hle : (i + 1) * entry.len ≤ count.toNat * entry.len :=
      Nat.mul_le_mul_right _ (List.mem_range.mp hi)
    rw [Nat.succ_mul] at hle
    omega
  refine meets_bind (meets_mapM hentry) fun entries hentries => ?_
  refine meets_guard fun hallowed => ?_
  rw [Bool.not_eq_true] at hempty hallowed
  rw [toNat_beq_zero] at hempty
  rw [List.length_range] at hentries
  exact ⟨_, encodeTable_eq_some.mpr ⟨count, hentries.1.symm, hempty, hallowed, rfl⟩⟩

/-- **Tables are exact.** -/
theorem table_exact (entry : Entry α) (refusesEmpty : Bool) (hlen : entry.len ≤ 2 ^ 32) :
    Exact (encodeTable entry refusesEmpty) (decodeTable entry refusesEmpty) id :=
  Exact.of_meets (fun _ _ h => decodeTable_encodeTable hlen h)
    (fun b => (meets_decodeTable entry refusesEmpty b).mono fun _ hc => ⟨hc, rfl⟩)

end

/-! ## Queue metrics -/

structure R2riQueueMetric where
  queueId : UInt16
  maxSize : UInt32
  currentDepthHighWater : UInt32
  numDiscardsHighWater : UInt32
  averageDelayMicroseconds : UInt64
  deriving DecidableEq

structure R2riQueueMetrics where
  metrics : List R2riQueueMetric
  deriving DecidableEq

def R2riQueueMetric.write (metric : R2riQueueMetric) : Bytes :=
  toBeBytes metric.queueId ++ toBeBytes metric.maxSize ++
    toBeBytes metric.currentDepthHighWater ++ toBeBytes metric.numDiscardsHighWater ++
    toBeBytes metric.averageDelayMicroseconds

def R2riQueueMetric.get (data : Bytes) (offset : Nat) : Except Fault R2riQueueMetric := do
  return {
    queueId := ← getU16 data offset
    maxSize := ← getU32 data (offset + 2)
    currentDepthHighWater := ← getU32 data (offset + 6)
    numDiscardsHighWater := ← getU32 data (offset + 10)
    averageDelayMicroseconds := ← getU64 data (offset + 14) }

/-- `R2riQueueMetrics::ENTRY_LEN` and its loops; every metric is allowed. -/
def R2riQueueMetric.entry : Entry R2riQueueMetric where
  len := 22
  write := write
  get := get
  allowed _ := true
  length_write _ := rfl
  get_write {data o a} h := by
    simp only [write, standsAt_append, List.length_append, BigEndian.length_toBeBytes,
      width_uint16, width_uint32, Nat.reduceAdd] at h
    obtain ⟨⟨⟨⟨hid, hmax⟩, hdepth⟩, hdiscards⟩, hdelay⟩ := h
    unfold get getU16 getU32 getU64
    rw [getBe_eq hid, getBe_eq hmax, getBe_eq hdepth, getBe_eq hdiscards, getBe_eq hdelay]
    rfl
  meets_get {data o} h := by
    unfold get getU16 getU32 getU64
    repeat
      refine meets_getBe_bind ?_ fun _ => ?_
      · simp only [width_uint16, width_uint32, width_uint64]
        omega
    trivial

/-- `R2riQueueMetrics::encode` -/
def R2riQueueMetrics.encode (self : R2riQueueMetrics) : Option Bytes :=
  encodeTable R2riQueueMetric.entry false self.metrics

/-- `R2riQueueMetrics::decode` -/
def R2riQueueMetrics.decode (data : Bytes) : Except Fault R2riQueueMetrics :=
  R2riQueueMetrics.mk <$> decodeTable R2riQueueMetric.entry false data

theorem R2riQueueMetrics.exact : Exact encode decode id :=
  (table_exact R2riQueueMetric.entry false (by decide)).rename R2riQueueMetrics.mk
    R2riQueueMetrics.metrics (fun _ => rfl) (fun _ => rfl)

/-! ## Neighbor metrics -/

structure R2riNeighborMetric where
  nemId : UInt16
  numRxFrames : UInt64
  numTxFrames : UInt64
  numMissedFrames : UInt64
  bandwidthConsumptionMicroseconds : UInt64
  sinrAverageDb : F32
  sinrStddev : F32
  noiseFloorAverageDbm : F32
  noiseFloorStddev : F32
  rxAverageDataRateBps : UInt64
  txAverageDataRateBps : UInt64
  deriving DecidableEq

structure R2riNeighborMetrics where
  metrics : List R2riNeighborMetric
  deriving DecidableEq

def R2riNeighborMetric.write (metric : R2riNeighborMetric) : Bytes :=
  toBeBytes metric.nemId ++ toBeBytes metric.numRxFrames ++ toBeBytes metric.numTxFrames ++
    toBeBytes metric.numMissedFrames ++ toBeBytes metric.bandwidthConsumptionMicroseconds ++
    toBeBytes metric.sinrAverageDb.bits ++ toBeBytes metric.sinrStddev.bits ++
    toBeBytes metric.noiseFloorAverageDbm.bits ++ toBeBytes metric.noiseFloorStddev.bits ++
    toBeBytes metric.rxAverageDataRateBps ++ toBeBytes metric.txAverageDataRateBps

def R2riNeighborMetric.get (data : Bytes) (offset : Nat) : Except Fault R2riNeighborMetric := do
  return {
    nemId := ← getU16 data offset
    numRxFrames := ← getU64 data (offset + 2)
    numTxFrames := ← getU64 data (offset + 10)
    numMissedFrames := ← getU64 data (offset + 18)
    bandwidthConsumptionMicroseconds := ← getU64 data (offset + 26)
    sinrAverageDb := ⟨← getU32 data (offset + 34)⟩
    sinrStddev := ⟨← getU32 data (offset + 38)⟩
    noiseFloorAverageDbm := ⟨← getU32 data (offset + 42)⟩
    noiseFloorStddev := ⟨← getU32 data (offset + 46)⟩
    rxAverageDataRateBps := ← getU64 data (offset + 50)
    txAverageDataRateBps := ← getU64 data (offset + 58) }

/-- `R2riNeighborMetrics::ENTRY_LEN`, its loops and its test for finite statistics. -/
def R2riNeighborMetric.entry : Entry R2riNeighborMetric where
  len := 66
  write := write
  get := get
  allowed metric := metric.sinrAverageDb.isFinite && metric.sinrStddev.isFinite &&
    metric.noiseFloorAverageDbm.isFinite && metric.noiseFloorStddev.isFinite
  length_write _ := rfl
  get_write {data o a} h := by
    simp only [write, standsAt_append, List.length_append, BigEndian.length_toBeBytes,
      width_uint16, width_uint32, width_uint64, Nat.reduceAdd] at h
    obtain ⟨⟨⟨⟨⟨⟨⟨⟨⟨⟨hid, hrx⟩, htx⟩, hmissed⟩, hused⟩, hsinr⟩, hsinrDev⟩, hfloor⟩, hfloorDev⟩,
      hrxRate⟩, htxRate⟩ := h
    unfold get getU16 getU32 getU64
    rw [getBe_eq hid, getBe_eq hrx, getBe_eq htx, getBe_eq hmissed, getBe_eq hused,
      getBe_eq hsinr, getBe_eq hsinrDev, getBe_eq hfloor, getBe_eq hfloorDev, getBe_eq hrxRate,
      getBe_eq htxRate]
    rfl
  meets_get {data o} h := by
    unfold get getU16 getU32 getU64
    repeat
      refine meets_getBe_bind ?_ fun _ => ?_
      · simp only [width_uint16, width_uint32, width_uint64]
        omega
    trivial

/-- `R2riNeighborMetrics::encode` -/
def R2riNeighborMetrics.encode (self : R2riNeighborMetrics) : Option Bytes :=
  encodeTable R2riNeighborMetric.entry false self.metrics

/-- `R2riNeighborMetrics::decode` -/
def R2riNeighborMetrics.decode (data : Bytes) : Except Fault R2riNeighborMetrics :=
  R2riNeighborMetrics.mk <$> decodeTable R2riNeighborMetric.entry false data

theorem R2riNeighborMetrics.exact : Exact encode decode id :=
  (table_exact R2riNeighborMetric.entry false (by decide)).rename R2riNeighborMetrics.mk
    R2riNeighborMetrics.metrics (fun _ => rfl) (fun _ => rfl)

/-! ## Frequency segments -/

structure TxFrequencySegment where
  frequencyHz : UInt64
  durationMicroseconds : UInt64
  offsetMicroseconds : UInt64
  deriving DecidableEq

structure TxFrequencySegments where
  segments : List TxFrequencySegment
  deriving DecidableEq

def TxFrequencySegment.write (segment : TxFrequencySegment) : Bytes :=
  toBeBytes segment.frequencyHz ++ toBeBytes segment.durationMicroseconds ++
    toBeBytes segment.offsetMicroseconds

def TxFrequencySegment.get (data : Bytes) (offset : Nat) : Except Fault TxFrequencySegment := do
  return {
    frequencyHz := ← getU64 data offset
    durationMicroseconds := ← getU64 data (offset + 8)
    offsetMicroseconds := ← getU64 data (offset + 16) }

/-- `TxFrequencySegments::ENTRY_LEN` and its loops; every segment is allowed. -/
def TxFrequencySegment.entry : Entry TxFrequencySegment where
  len := 24
  write := write
  get := get
  allowed _ := true
  length_write _ := rfl
  get_write {data o a} h := by
    simp only [write, standsAt_append, List.length_append, BigEndian.length_toBeBytes,
      width_uint64, Nat.reduceAdd] at h
    obtain ⟨⟨hfrequency, hduration⟩, hoffset⟩ := h
    unfold get getU64
    rw [getBe_eq hfrequency, getBe_eq hduration, getBe_eq hoffset]
    rfl
  meets_get {data o} h := by
    unfold get getU64
    repeat
      refine meets_getBe_bind ?_ fun _ => ?_
      · simp only [width_uint64]
        omega
    trivial

/-- `TxFrequencySegments::encode` -/
def TxFrequencySegments.encode (self : TxFrequencySegments) : Option Bytes :=
  encodeTable TxFrequencySegment.entry true self.segments

/-- `TxFrequencySegments::decode` -/
def TxFrequencySegments.decode (data : Bytes) : Except Fault TxFrequencySegments :=
  TxFrequencySegments.mk <$> decodeTable TxFrequencySegment.entry true data

theorem TxFrequencySegments.exact : Exact encode decode id :=
  (table_exact TxFrequencySegment.entry true (by decide)).rename TxFrequencySegments.mk
    TxFrequencySegments.segments (fun _ => rfl) (fun _ => rfl)

structure RxFrequencySegment where
  frequencyHz : UInt64
  rxPowerDbm : F64
  durationMicroseconds : UInt64
  offsetMicroseconds : UInt64
  deriving DecidableEq

structure RxFrequencySegments where
  segments : List RxFrequencySegment
  deriving DecidableEq

def RxFrequencySegment.write (segment : RxFrequencySegment) : Bytes :=
  toBeBytes segment.frequencyHz ++ toBeBytes segment.rxPowerDbm.bits ++
    toBeBytes segment.durationMicroseconds ++ toBeBytes segment.offsetMicroseconds

def RxFrequencySegment.get (data : Bytes) (offset : Nat) : Except Fault RxFrequencySegment := do
  return {
    frequencyHz := ← getU64 data offset
    rxPowerDbm := ⟨← getU64 data (offset + 8)⟩
    durationMicroseconds := ← getU64 data (offset + 16)
    offsetMicroseconds := ← getU64 data (offset + 24) }

/-- `RxFrequencySegments::ENTRY_LEN`, its loops and its test for finite powers. -/
def RxFrequencySegment.entry : Entry RxFrequencySegment where
  len := 32
  write := write
  get := get
  allowed segment := segment.rxPowerDbm.isFinite
  length_write _ := rfl
  get_write {data o a} h := by
    simp only [write, standsAt_append, List.length_append, BigEndian.length_toBeBytes,
      width_uint64, Nat.reduceAdd] at h
    obtain ⟨⟨⟨hfrequency, hpower⟩, hduration⟩, hoffset⟩ := h
    unfold get getU64
    rw [getBe_eq hfrequency, getBe_eq hpower, getBe_eq hduration, getBe_eq hoffset]
    rfl
  meets_get {data o} h := by
    unfold get getU64
    repeat
      refine meets_getBe_bind ?_ fun _ => ?_
      · simp only [width_uint64]
        omega
    trivial

/-- `RxFrequencySegments::encode` -/
def RxFrequencySegments.encode (self : RxFrequencySegments) : Option Bytes :=
  encodeTable RxFrequencySegment.entry true self.segments

/-- `RxFrequencySegments::decode` -/
def RxFrequencySegments.decode (data : Bytes) : Except Fault RxFrequencySegments :=
  RxFrequencySegments.mk <$> decodeTable RxFrequencySegment.entry true data

theorem RxFrequencySegments.exact : Exact encode decode id :=
  (table_exact RxFrequencySegment.entry true (by decide)).rename RxFrequencySegments.mk
    RxFrequencySegments.segments (fun _ => rfl) (fun _ => rfl)

/-! ## Transmitters -/

structure TxTransmitter where
  nemId : UInt16
  txPowerDbm : F64
  deriving DecidableEq

structure TxTransmitters where
  transmitters : List TxTransmitter
  deriving DecidableEq

def TxTransmitter.write (transmitter : TxTransmitter) : Bytes :=
  toBeBytes transmitter.nemId ++ toBeBytes transmitter.txPowerDbm.bits

def TxTransmitter.get (data : Bytes) (offset : Nat) : Except Fault TxTransmitter := do
  return {
    nemId := ← getU16 data offset
    txPowerDbm := ⟨← getU64 data (offset + 2)⟩ }

/-- `TxTransmitters::ENTRY_LEN`, its loops and its test for a NEM and a finite power. -/
def TxTransmitter.entry : Entry TxTransmitter where
  len := 10
  write := write
  get := get
  allowed transmitter := transmitter.nemId != 0 && transmitter.txPowerDbm.isFinite
  length_write _ := rfl
  get_write {data o a} h := by
    simp only [write, standsAt_append, BigEndian.length_toBeBytes, width_uint16] at h
    unfold get getU16 getU64
    rw [getBe_eq h.1, getBe_eq h.2]
    rfl
  meets_get {data o} h := by
    unfold get getU16 getU64
    repeat
      refine meets_getBe_bind ?_ fun _ => ?_
      · simp only [width_uint16, width_uint64]
        omega
    trivial

/-- `TxTransmitters::encode` -/
def TxTransmitters.encode (self : TxTransmitters) : Option Bytes :=
  encodeTable TxTransmitter.entry true self.transmitters

/-- `TxTransmitters::decode` -/
def TxTransmitters.decode (data : Bytes) : Except Fault TxTransmitters :=
  TxTransmitters.mk <$> decodeTable TxTransmitter.entry true data

theorem TxTransmitters.exact : Exact encode decode id :=
  (table_exact TxTransmitter.entry true (by decide)).rename TxTransmitters.mk
    TxTransmitters.transmitters (fun _ => rfl) (fun _ => rfl)

/-! ## Frequencies of interest -/

structure FrequencyOfInterest where
  bandwidthHz : UInt64
  frequenciesHz : List UInt64
  deriving DecidableEq

/-- `FrequencyOfInterest::encode` -/
def FrequencyOfInterest.encode (self : FrequencyOfInterest) : Option Bytes := do
  let count ← u16TryFrom self.frequenciesHz.length
  if self.bandwidthHz == 0 || count == 0 || self.frequenciesHz.contains 0 then
    none
  else
    some ([propertiesVersion] ++ toBeBytes count ++ toBeBytes self.bandwidthHz ++
      self.frequenciesHz.flatMap toBeBytes)

/-- `FrequencyOfInterest::decode` -/
def FrequencyOfInterest.decode (data : Bytes) : Except Fault FrequencyOfInterest := do
  if data.length < 19 then .error .rejected else
  if (← indexByte data 0) ≠ propertiesVersion then .error .rejected else
  let count := (← getU16 data 1).toNat
  if count == 0 then .error .rejected else
  let size ← orReject (checkedMul count 8)
  let stop ← orReject (checkedAdd 11 size)
  if data.length ≠ stop then .error .rejected else
  let bandwidthHz ← getU64 data 3
  let frequenciesHz ← (List.range count).mapM fun index => getU64 data (11 + index * 8)
  if bandwidthHz == 0 || frequenciesHz.contains 0 then .error .rejected else
  return { bandwidthHz, frequenciesHz }

theorem FrequencyOfInterest.encode_eq_some {self : FrequencyOfInterest} {c : Bytes} :
    self.encode = some c ↔
      ∃ count : UInt16, count.toNat = self.frequenciesHz.length ∧ self.bandwidthHz ≠ 0 ∧
        count ≠ 0 ∧ self.frequenciesHz.contains 0 = false ∧
        c = [propertiesVersion] ++ toBeBytes count ++ toBeBytes self.bandwidthHz ++
          self.frequenciesHz.flatMap toBeBytes := by
  unfold encode
  constructor
  · intro h
    obtain ⟨count, hcount, hif⟩ := Option.bind_eq_some_iff.mp h
    split at hif
    · cases hif
    · next hok =>
        simp only [Bool.or_eq_true, not_or, beq_iff_eq, Bool.not_eq_true] at hok
        exact ⟨count, (u16TryFrom_eq_some.mp hcount).2, hok.1.1, hok.1.2, hok.2,
          (Option.some.inj hif).symm⟩
  · rintro ⟨count, hcount, hbandwidth, hzero, hfrequencies, rfl⟩
    rw [← hcount, u16TryFrom_toNat, Option.bind_eq_bind, Option.bind_some, hfrequencies,
      beq_false_of_ne hbandwidth, beq_false_of_ne hzero]
    rfl

theorem FrequencyOfInterest.decode_encode {self : FrequencyOfInterest} {c : Bytes}
    (h : self.encode = some c) : decode c = .ok self := by
  obtain ⟨count, hcount, hbandwidth, hzero, hfrequencies, hc⟩ := encode_eq_some.mp h
  have hstands : StandsAt c 0 ([propertiesVersion] ++ toBeBytes count ++
      toBeBytes self.bandwidthHz ++ self.frequenciesHz.flatMap toBeBytes) := by
    rw [← hc]
    exact standsAt_self c
  have hsize : c.length = 11 + count.toNat * 8 := by
    rw [hc, List.length_append, length_flatMap_const fun x _ => BigEndian.length_toBeBytes x, hcount]
    rfl
  have hbound : count.toNat < 65536 := count.toNat_lt
  have hpos : count.toNat ≠ 0 := fun h0 => hzero (UInt16.toNat_inj.mp h0)
  simp only [standsAt_append, List.length_append, List.length_singleton,
    BigEndian.length_toBeBytes, width_uint16, width_uint64, Nat.zero_add, Nat.reduceAdd] at hstands
  obtain ⟨⟨⟨hversion, hcountAt⟩, hbandwidthAt⟩, htable⟩ := hstands
  have hentries : (List.range count.toNat).mapM (fun index => getU64 c (11 + index * 8)) =
      .ok self.frequenciesHz := by
    rw [hcount]
    apply mapM_range_eq
    intro i hi
    exact getBe_eq (standsAt_entry (fun x _ => BigEndian.length_toBeBytes x) htable i hi)
  unfold decode
  rw [if_neg (by omega), indexByte_eq hversion, ok_bind, if_neg (by simp), getU16,
    getBe_eq hcountAt, ok_bind]
  simp only [beq_false_of_ne hpos, Bool.false_eq_true, if_false]
  rw [checkedMul_eq (by omega), orReject_some, ok_bind, checkedAdd_eq (by omega), orReject_some,
    ok_bind, if_neg (not_not.mpr hsize), getU64, getBe_eq hbandwidthAt, ok_bind, hentries, ok_bind,
    hfrequencies, beq_false_of_ne hbandwidth]
  rfl

theorem FrequencyOfInterest.meets_decode (data : Bytes) :
    Meets (decode data) (fun self => ∃ c, self.encode = some c) := by
  unfold decode
  refine meets_guard fun hmin => ?_
  refine meets_bind (meets_indexByte (by omega)) fun version _ => ?_
  refine meets_guard fun _ => ?_
  refine meets_getBe_bind (by rw [width_uint16]; omega) fun count => ?_
  refine meets_guard fun hzero => ?_
  refine meets_bind (meets_orReject _) fun size hsize => ?_
  refine meets_bind (meets_orReject _) fun stop hstop => ?_
  refine meets_guard fun hlength => ?_
  have hfits : data.length = 11 + count.toNat * 8 := by
    rw [not_not.mp hlength, (checkedAdd_eq_some hstop).1, (checkedMul_eq_some hsize).1]
  refine meets_getBe_bind (by rw [width_uint64]; omega) fun bandwidth => ?_
  have hentry : ∀ i ∈ List.range count.toNat,
      Meets (getU64 data (11 + i * 8)) (fun _ => True) := by
    intro i hi
    apply meets_getBe
    rw [List.mem_range] at hi
    rw [width_uint64]
    omega
  refine meets_bind (meets_mapM hentry) fun frequencies hfrequencies => ?_
  refine meets_guard fun hok => ?_
  simp only [Bool.or_eq_true, not_or, beq_iff_eq, Bool.not_eq_true] at hok
  rw [List.length_range] at hfrequencies
  rw [toNat_beq_zero, beq_iff_eq] at hzero
  exact ⟨_, encode_eq_some.mpr ⟨count, hfrequencies.1.symm, hok.1, hzero, hok.2, rfl⟩⟩

theorem FrequencyOfInterest.exact : Exact encode decode id :=
  Exact.of_meets (fun _ _ h => decode_encode h)
    (fun b => (meets_decode b).mono fun _ hc => ⟨hc, rfl⟩)

end Emane.PluginApi
