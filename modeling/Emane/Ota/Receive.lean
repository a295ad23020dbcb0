import Mathlib
import Emane.Lib.Fragments
import Emane.Lib.Slicing

set_option autoImplicit false

/-! # The receive loop of the over-the-air manager

A datagram holds the length of an encoded header, the header, the nine bytes of a part info, and the
bytes of one part of a message. A message of one part is handed to `handleOtaMessage` at once. The
parts of other messages are kept in the part store, under the source and the sequence number of the
header, until their sizes add up and they lie one after the other.

The header's decoder is a parameter. An index or a slice outside the data ends the program and is
`none` in `receive`. Lengths are natural numbers, for the sums of three 32-bit numbers that the source
adds fit its machine words. A time is a number of nanoseconds, and the clock may go back.
-/

namespace Emane.Ota

open Emane.Lib
open Std (ExtTreeMap TransOrd TransCmp LawfulEqOrd)

/-! ## Data -/

/-- The largest payload of a message. -/
def maxOtaPayload : ℕ := 64 * 1024 * 1024

/-- The identity of an emulator: sixteen bytes. -/
abbrev Uuid := { bytes : Bytes // bytes.length = 16 }

instance : Inhabited Uuid := ⟨⟨List.replicate 16 0, rfl⟩⟩

/-- The lengths of the three strings of a message. -/
structure PayloadInfo where
  eventLength : UInt32
  controlLength : UInt32
  dataLength : UInt32
  deriving DecidableEq, Inhabited

structure OtaHeader where
  source : UInt32
  destination : UInt32
  sequence : UInt64
  uuid : Bytes
  payloadInfo : Option PayloadInfo
  deriving DecidableEq

/-- The bytes between the header and the payload. -/
structure PartInfo where
  more : UInt8
  offset : UInt32
  size : UInt32

/-- `size_of::<PartInfo>()`, which is packed. -/
def partInfoSize : ℕ := 9

structure PartKey where
  source : UInt16
  sequence : UInt64
  deriving DecidableEq

namespace PartKey

instance : Ord PartKey := ⟨compareLex (compareOn source) (compareOn sequence)⟩

instance : TransOrd PartKey :=
  inferInstanceAs (TransCmp (compareLex (compareOn source) (compareOn sequence)))

instance : LawfulEqOrd PartKey where
  eq_of_compare {a b} h := by
    have h : compareLex (compareOn source) (compareOn sequence) a b = .eq := h
    rw [compareLex_eq_eq] at h
    simp only [compareOn, Std.LawfulEqOrd.compare_eq_iff_eq] at h
    cases a
    cases b
    simp_all

end PartKey

/-- What is kept of a message until it is complete. -/
structure PartsData where
  totalSize : ℕ
  eventsSize : ℕ
  controlsSize : ℕ
  dataSize : ℕ
  parts : ExtTreeMap ℕ Bytes
  lastPartTime : ℤ
  uuid : Uuid

abbrev PartStore := ExtTreeMap PartKey PartsData

/-- The arguments of a call of `handle_ota_message`. -/
structure Call where
  source : UInt16
  destination : UInt16
  uuid : Uuid
  eventsSize : ℕ
  controlsSize : ℕ
  dataSize : ℕ
  payload : Bytes
  deriving DecidableEq

/-- One part of a message, as a datagram brings it. -/
@[ext]
structure Part where
  source : UInt16
  destination : UInt16
  sequence : UInt64
  uuid : Uuid
  eventsSize : ℕ
  controlsSize : ℕ
  dataSize : ℕ
  more : Bool
  offset : ℕ
  bytes : Bytes
  deriving DecidableEq

namespace Part

def key (part : Part) : PartKey := ⟨part.source, part.sequence⟩

/-- The size of the message that the part announces. -/
def expectedTotal (part : Part) : ℕ := part.eventsSize + part.controlsSize + part.dataSize

/-- The part is a whole message. -/
def Single (part : Part) : Prop := part.more = false ∧ part.offset = 0

instance (part : Part) : Decidable part.Single := inferInstanceAs (Decidable (_ ∧ _))

/-- The call for a message of one part. -/
def call (part : Part) : Call where
  source := part.source
  destination := part.destination
  uuid := part.uuid
  eventsSize := part.eventsSize
  controlsSize := part.controlsSize
  dataSize := part.dataSize
  payload := part.bytes

end Part

/-! ## Reading a datagram -/

/-- Where the loop goes on after a datagram that brings no part: with the next datagram, or with the
cleanup. -/
inductive Reason
  | next
  | ignored
  deriving DecidableEq

def parseUuid (bytes : Bytes) : Option Uuid :=
  if h : bytes.length = 16 then some ⟨bytes, h⟩ else none

/-- `read_unaligned` of the part info. -/
def readPartInfo (buf : Bytes) (o : ℕ) : Except (Stop Reason) PartInfo := do
  let more ← byteAt buf o
  let offset ← numberAt UInt32 buf (o + 1)
  let size ← numberAt UInt32 buf (o + 5)
  .ok ⟨more, offset, size⟩

section

variable (decode : Bytes → Option OtaHeader) (uuid : Uuid)

/-- What follows the header `header` that ends at `o`. -/
def readBody (header : OtaHeader) (buf : Bytes) (o : ℕ) : Except (Stop Reason) Part :=
  if 65535 < header.source.toNat ∨ 65535 < header.destination.toNat then .error (.refused .next)
  else do
    let info ← readPartInfo buf o
    if 1 < info.more then .error (.refused .next)
    else
      match parseUuid header.uuid with
      | none => .error (.refused .next)
      | some remote =>
          if remote = uuid then .error (.refused .ignored)
          else if o + partInfoSize + info.size.toNat ≠ buf.length then .error (.refused .ignored)
          else do
            let bytes ← slice buf (o + partInfoSize) (o + partInfoSize + info.size.toNat)
            let lengths := header.payloadInfo.getD default
            .ok {
              source := header.source.toUInt16
              destination := header.destination.toUInt16
              sequence := header.sequence
              uuid := remote
              eventsSize := lengths.eventLength.toNat
              controlsSize := lengths.controlLength.toNat
              dataSize := lengths.dataLength.toNat
              more := info.more = 1
              offset := info.offset.toNat
              bytes := bytes }

/-- The part that a datagram brings to the emulator `uuid`. -/
def readPart (buf : Bytes) : Except (Stop Reason) Part :=
  if buf.length < 2 then .error (.refused .ignored)
  else do
    let headerLen ← numberAt UInt16 buf 0
    if buf.length < 2 + headerLen.toNat + partInfoSize then .error (.refused .ignored)
    else do
      let bytes ← slice buf 2 (2 + headerLen.toNat)
      match decode bytes with
      | none => .error (.refused .ignored)
      | some header => readBody uuid header buf (2 + headerLen.toNat)

end

/-! ## The part store -/

/-- The scan of the parts in the order of their offsets, which stops at the first gap or overlap. It
returns whether it saw none, and the offset it reached. -/
def contiguous (expectedTotal : ℕ) : ℕ → List (ℕ × Bytes) → Bool × ℕ
  | nextOffset, [] => (true, nextOffset)
  | nextOffset, (offset, part) :: rest =>
      if offset ≠ nextOffset then (false, nextOffset)
      else if nextOffset + part.length ≤ expectedTotal then
        contiguous expectedTotal (nextOffset + part.length) rest
      else (false, nextOffset + part.length)

namespace PartsData

/-- The entry that the first part of a message makes. -/
def fresh (part : Part) (now : ℤ) : PartsData where
  totalSize := 0
  eventsSize := part.eventsSize
  controlsSize := part.controlsSize
  dataSize := part.dataSize
  parts := ∅
  lastPartTime := now
  uuid := part.uuid

/-- Lengths that are all zero are taken from the part. -/
def updateInfo (entry : PartsData) (part : Part) : PartsData :=
  if entry.eventsSize = 0 ∧ entry.controlsSize = 0 ∧ entry.dataSize = 0 then
    { entry with
      eventsSize := part.eventsSize
      controlsSize := part.controlsSize
      dataSize := part.dataSize }
  else entry

/-- The part belongs to the message of the entry. -/
def Matches (entry : PartsData) (part : Part) : Prop :=
  entry.eventsSize = part.eventsSize ∧ entry.controlsSize = part.controlsSize ∧
    entry.dataSize = part.dataSize ∧ entry.uuid = part.uuid

instance (entry : PartsData) (part : Part) : Decidable (entry.Matches part) :=
  inferInstanceAs (Decidable (_ ∧ _))

/-- The part takes the place of one with the same offset. -/
def insertPart (entry : PartsData) (part : Part) (now : ℤ) : PartsData :=
  { entry with
    parts := entry.parts.insert part.offset part.bytes
    totalSize :=
      entry.totalSize - (entry.parts[part.offset]?.elim 0 List.length) + part.bytes.length
    lastPartTime := now }

/-- The parts fill the message and lie one after the other. -/
def Complete (entry : PartsData) (expectedTotal : ℕ) : Prop :=
  entry.totalSize = expectedTotal ∧ contiguous expectedTotal 0 entry.parts.toList = (true, expectedTotal)

instance (entry : PartsData) (expectedTotal : ℕ) : Decidable (entry.Complete expectedTotal) :=
  inferInstanceAs (Decidable (_ ∧ _))

/-- The bytes of the parts in the order of their offsets. -/
def fullPayload (entry : PartsData) : Bytes := joined id entry.parts.toList

/-- The call for a message that `part` completes. -/
def call (entry : PartsData) (part : Part) : Call where
  source := part.source
  destination := part.destination
  uuid := entry.uuid
  eventsSize := entry.eventsSize
  controlsSize := entry.controlsSize
  dataSize := entry.dataSize
  payload := entry.fullPayload

end PartsData

/-- What a datagram does before the cleanup; `next` says that the cleanup is left out. -/
structure Arrival where
  store : PartStore
  call : Option Call
  next : Bool

/-- A part that its message cannot have is refused. -/
def Part.Refused (part : Part) : Prop :=
  maxOtaPayload < part.expectedTotal ∨ part.expectedTotal < part.offset + part.bytes.length ∨
    part.more = false ∧ part.offset + part.bytes.length ≠ part.expectedTotal

instance (part : Part) : Decidable part.Refused := inferInstanceAs (Decidable (_ ∨ _))

/-- A part of a fragmented message arrives at time `now`. -/
def addPart (store : PartStore) (part : Part) (now : ℤ) : Arrival :=
  if part.Refused then ⟨store, none, true⟩
  else
    let entry := (store[part.key]?.getD (.fresh part now)).updateInfo part
    if ¬ entry.Matches part then ⟨store.erase part.key, none, true⟩
    else
      let entry := entry.insertPart part now
      if entry.Complete part.expectedTotal then
        ⟨store.erase part.key, some (entry.call part), false⟩
      else ⟨store.insert part.key entry, none, false⟩

/-- What a datagram with a part does. -/
def acceptPart (store : PartStore) (part : Part) (now : ℤ) : Arrival :=
  if part.Single then ⟨store, some part.call, false⟩ else addPart store part now

/-! ## Messages -/

/-- What a message hands on: its events to the decoder of events, its data and its controls to the
users. A string of length zero is not handed on. -/
structure Delivery where
  events : Option Bytes
  controls : Option Bytes
  data : Option Bytes
  deriving DecidableEq

/-- `payload[offset..offset + size]`, if the size is positive. -/
def sliceOf (payload : Bytes) (offset size : ℕ) : Except (Stop Unit) (Option Bytes) :=
  if 0 < size then some <$> slice payload offset (offset + size) else .ok none

/-- A message whose lengths do not add up is refused. -/
def handleOtaMessage (call : Call) : Except (Stop Unit) Delivery :=
  let expectedSize := call.eventsSize + call.controlsSize + call.dataSize
  if expectedSize ≠ call.payload.length ∨ maxOtaPayload < expectedSize then .error (.refused ())
  else do
    let events ← sliceOf call.payload 0 call.eventsSize
    let controls ← sliceOf call.payload call.eventsSize call.controlsSize
    let data ← sliceOf call.payload (call.eventsSize + call.controlsSize) call.dataSize
    .ok ⟨events, controls, data⟩

/-! ## The loop -/

/-- What the receive loop uses of the manager. -/
structure Manager where
  uuid : Uuid
  partCheckThreshold : ℕ
  partTimeoutThreshold : ℕ
  partStore : PartStore
  lastPartCheckTime : ℤ
  reassemblyTimeouts : UInt64

/-- `now.duration_since(time).unwrap_or(Duration::ZERO)` -/
def durationSince (now time : ℤ) : ℕ := (now - time).toNat

/-- `saturating_add` of a 64-bit counter. -/
def saturatingAdd (count : UInt64) (n : ℕ) : UInt64 := UInt64.ofNat (min (count.toNat + n) (2 ^ 64 - 1))

namespace Manager

/-- A duration of whole seconds. -/
def seconds (n : ℕ) : ℕ := n * 10 ^ 9

/-- The manager that is made at time `now`. -/
def new (now : ℤ) : Manager where
  uuid := default
  partCheckThreshold := seconds 2
  partTimeoutThreshold := seconds 5
  partStore := ∅
  lastPartCheckTime := now
  reassemblyTimeouts := 0

/-- `emane_rs_ota_manager_open`, when the socket can be set up. -/
def openWith (m : Manager) (uuid : Uuid) (partCheckThreshold partTimeoutThreshold : UInt16) : Manager :=
  { m with
    uuid := uuid
    partCheckThreshold := seconds partCheckThreshold.toNat
    partTimeoutThreshold := seconds partTimeoutThreshold.toNat
    partStore := ∅ }

/-- The entry has waited too long for a part. -/
def expired (m : Manager) (now : ℤ) (entry : PartsData) : Bool :=
  m.partTimeoutThreshold ≤ durationSince now entry.lastPartTime

/-- Cleanup of old parts. -/
def cleanup (m : Manager) (now : ℤ) : Manager :=
  if m.partCheckThreshold ≤ durationSince now m.lastPartCheckTime then
    let kept := m.partStore.filter fun _ entry => !m.expired now entry
    { m with
      partStore := kept
      lastPartCheckTime := now
      reassemblyTimeouts := saturatingAdd m.reassemblyTimeouts (m.partStore.size - kept.size) }
  else m

/-- The end of the loop's body. -/
def settle (m : Manager) (arrival : Arrival) (now : ℤ) : Manager :=
  if arrival.next then { m with partStore := arrival.store }
  else cleanup { m with partStore := arrival.store } now

end Manager

section

variable (decode : Bytes → Option OtaHeader)

/-- The call of `handle_ota_message`, whose answer is not used. -/
def perform (call : Option Call) : Option Unit :=
  match call.map handleOtaMessage with
  | some (.error .panicked) => none
  | _ => some ()

/-- What a datagram that arrives at time `now` does before the cleanup. -/
def arrive (uuid : Uuid) (store : PartStore) (buf : Bytes) (now : ℤ) : Option Arrival :=
  match readPart decode uuid buf with
  | .error .panicked => none
  | .error (.refused reason) => some ⟨store, none, reason = .next⟩
  | .ok part => some (acceptPart store part now)

/-- The size of the buffer that `recv_from` fills; what does not fit is cut off. -/
def bufferSize : ℕ := 65536

/-- The body of the loop. -/
def receive (m : Manager) (datagram : Bytes × ℤ) : Option (Manager × Option Call) := do
  let arrival ← arrive decode m.uuid m.partStore (datagram.1.take bufferSize) datagram.2
  perform arrival.call
  some (m.settle arrival datagram.2, arrival.call)

/-- One datagram of a run, which keeps the calls in order. -/
def receiveStep (r : Manager × List Call) (datagram : Bytes × ℤ) : Option (Manager × List Call) := do
  let (m, call) ← receive decode r.1 datagram
  some (m, r.2 ++ call.toList)

/-- The loop over the datagrams that arrive, each with its time. -/
def receiveAll (m : Manager) (datagrams : List (Bytes × ℤ)) : Option (Manager × List Call) :=
  datagrams.foldlM (receiveStep decode) (m, [])

/-! ## Every slice is inside the data -/

variable {decode} {uuid : Uuid}

theorem readPartInfo_avoids {buf : Bytes} {o : ℕ} (h : o + partInfoSize ≤ buf.length) :
    Avoids .panicked (fun _ => True) (readPartInfo buf o) := by
  unfold partInfoSize at h
  refine (byteAt_avoids (by omega)).bind fun _ _ => ?_
  refine (numberAt_avoids (by rw [width_uint32]; omega)).bind fun _ _ => ?_
  exact (numberAt_avoids (by rw [width_uint32]; omega)).bind fun _ _ => trivial

theorem readBody_avoids (header : OtaHeader) {buf : Bytes} {o : ℕ} (h : o + partInfoSize ≤ buf.length) :
    Avoids .panicked (fun _ => True) (readBody uuid header buf o) := by
  unfold readBody
  refine Avoids.guard fun _ => (readPartInfo_avoids h).bind fun info _ => Avoids.guard fun _ => ?_
  split
  · exact fun heq => by cases heq
  · refine Avoids.guard fun _ => Avoids.guard fun hsize => ?_
    exact (slice_avoids (by omega) (by omega)).bind fun _ _ => trivial

theorem readPart_avoids (buf : Bytes) :
    Avoids .panicked (fun _ => True) (readPart decode uuid buf) := by
  unfold readPart
  refine Avoids.guard fun htwo => (numberAt_avoids (by rw [width_uint16]; omega)).bind fun _ _ => ?_
  refine Avoids.guard fun hsize => (slice_avoids (by omega) (by omega)).bind fun _ _ => ?_
  split
  · exact fun heq => by cases heq
  · exact readBody_avoids _ (by omega)

theorem sliceOf_avoids {payload : Bytes} {offset size : ℕ} (h : offset + size ≤ payload.length) :
    Avoids .panicked (fun _ => True) (sliceOf payload offset size) := by
  unfold sliceOf
  split
  · exact (slice_avoids (by omega) h).bind fun _ _ => trivial
  · trivial

theorem handleOtaMessage_avoids (call : Call) :
    Avoids .panicked (fun _ => True) (handleOtaMessage call) := by
  unfold handleOtaMessage
  refine Avoids.guard fun hsize => ?_
  refine (sliceOf_avoids (by omega)).bind fun _ _ => (sliceOf_avoids (by omega)).bind fun _ _ => ?_
  exact (sliceOf_avoids (by omega)).bind fun _ _ => trivial

theorem perform_eq (call : Option Call) : perform call = some () := by
  unfold perform
  cases call with
  | none => rfl
  | some call =>
      rw [Option.map_some]
      split
      · next heq => exact absurd (Option.some.inj heq) (handleOtaMessage_avoids call).ne_error
      · rfl

variable (decode uuid) in
/-- **A datagram is refused, or it brings a part.** -/
theorem arrive_cases (store : PartStore) (buf : Bytes) (now : ℤ) :
    (∃ reason, readPart decode uuid buf = .error (.refused reason) ∧
      arrive decode uuid store buf now = some ⟨store, none, reason = .next⟩) ∨
    ∃ part, readPart decode uuid buf = .ok part ∧
      arrive decode uuid store buf now = some (acceptPart store part now) := by
  unfold arrive
  cases hread : readPart decode uuid buf with
  | error stop =>
      cases stop with
      | panicked => exact absurd hread (readPart_avoids buf).ne_error
      | refused reason => exact Or.inl ⟨reason, rfl, rfl⟩
  | ok part => exact Or.inr ⟨part, rfl, rfl⟩

/-- The body of the loop is its arrival and what follows. -/
theorem receive_eq {m : Manager} {datagram : Bytes × ℤ} {arrival : Arrival}
    (h : arrive decode m.uuid m.partStore (datagram.1.take bufferSize) datagram.2 = some arrival) :
    receive decode m datagram = some (m.settle arrival datagram.2, arrival.call) := by
  simp [receive, h, perform_eq]

theorem receiveAll_concat (m : Manager) (datagrams : List (Bytes × ℤ)) (datagram : Bytes × ℤ) :
    receiveAll decode m (datagrams ++ [datagram]) =
      (receiveAll decode m datagrams).bind fun r => receiveStep decode r datagram := by
  simp [receiveAll, List.foldlM_append]

/-! ## What the cleanup keeps -/

theorem Manager.cleanup_uuid (m : Manager) (now : ℤ) : (m.cleanup now).uuid = m.uuid := by
  unfold Manager.cleanup
  split <;> rfl

theorem Manager.settle_uuid (m : Manager) (arrival : Arrival) (now : ℤ) :
    (m.settle arrival now).uuid = m.uuid := by
  unfold Manager.settle
  split
  · rfl
  · exact Manager.cleanup_uuid _ _

/-- The cleanup changes no entry that stays. -/
theorem Manager.of_cleanup {m : Manager} {now : ℤ} {key : PartKey} {entry : PartsData}
    (h : (m.cleanup now).partStore[key]? = some entry) : m.partStore[key]? = some entry := by
  unfold Manager.cleanup at h
  split at h
  · dsimp only at h
    rw [ExtTreeMap.getElem?_filter'] at h
    exact (Option.filter_eq_some_iff.mp h).1
  · exact h

theorem Manager.of_settle {m : Manager} {arrival : Arrival} {now : ℤ} {key : PartKey}
    {entry : PartsData} (h : (m.settle arrival now).partStore[key]? = some entry) :
    arrival.store[key]? = some entry := by
  unfold Manager.settle at h
  split at h
  · exact h
  · exact Manager.of_cleanup h

end

end Emane.Ota
