import Mathlib
import Emane.PluginApi.MimoTx
import Emane.PluginApi.Properties

set_option autoImplicit false

/-! # The controls of a packet

A packet comes with a list of controls, each a kind and a payload. The runtime looks for the controls it
knows, and it sends a whole list over the air as a count and the controls one after the other.
`decodeControls_encodeControls` is the round trip.
-/

namespace Emane.LegacyOta

open Emane.Lib Emane.PluginApi

/-! ## Controls -/

/-- A pointer with a length. The pointer may be null, whatever the length says. -/
inductive FfiSlice (α : Type)
  | data (items : List α)
  | null (len : ℕ)
  deriving DecidableEq

namespace FfiSlice

variable {α : Type}

def len : FfiSlice α → ℕ
  | data items => items.length
  | null len => len

/-- The items, `none` for a null pointer to something. -/
def get : FfiSlice α → Option (List α)
  | data items => some items
  | null 0 => some []
  | null (_ + 1) => none

theorem length_of_get {slice : FfiSlice α} {items : List α} (h : slice.get = some items) :
    items.length = slice.len := by
  match slice, h with
  | data _, rfl => rfl
  | null 0, rfl => rfl

end FfiSlice

structure FfiControlMessage where
  msgType : UInt32
  payload : FfiSlice UInt8
  deriving DecidableEq

/-- `CONTROL_TX_PROPERTIES` -/
def controlTxProperties : UInt32 := 0x454D0001

/-- `CONTROL_MODEL_HEADER` -/
def controlModelHeader : UInt32 := 0x454D0003

/-- `CONTROL_COMM_EFFECT_HEADER` -/
def controlCommEffectHeader : UInt32 := 0x454D0005

/-- `CONTROL_TX_FREQUENCY_SEGMENTS` -/
def controlTxFrequencySegments : UInt32 := 0x454D0007

/-- `CONTROL_TX_TRANSMITTERS` -/
def controlTxTransmitters : UInt32 := 0x454D0008

/-- `CONTROL_MIMO_TX_PROPERTIES` -/
def controlMimoTxProperties : UInt32 := 0x454D000C

/-- `MAX_CONTROL_WIRE_SIZE` -/
def maxControlWireSize : ℕ := 16 * 1024 * 1024

/-- `ffi_control_messages` -/
def ffiControlMessages (messages : FfiSlice FfiControlMessage) : Option (List FfiControlMessage) :=
  if 4096 < messages.len then none else messages.get

/-! ## Looking for a control -/

/-- `control_payload` -/
def controlPayload (messages : List FfiControlMessage) (kind : UInt32) : Option Bytes :=
  messages.findSome? fun message =>
    if message.msgType ≠ kind ∨ maxControlWireSize < message.payload.len then none
    else message.payload.get

/-- `find_tx_properties` -/
def findTxProperties (messages : List FfiControlMessage) : Option TxProperties :=
  messages.findSome? fun message =>
    if message.msgType ≠ controlTxProperties ∨ message.payload.len ≠ 55 then none
    else message.payload.get.bind fun data =>
      accepted (TxProperties.decode data) (meets_iff.mp (TxProperties.meets_decode data)).1

/-- `control_payload(..).and_then(ModelHeader::decode)` -/
def findModelHeader (messages : List FfiControlMessage) : Option ModelHeader :=
  (controlPayload messages controlModelHeader).bind fun data =>
    accepted (ModelHeader.decode data) (meets_iff.mp (ModelHeader.meets_decode data)).1

/-- `control_payload(..).and_then(CommEffectHeader::decode)` -/
def findCommEffectHeader (messages : List FfiControlMessage) : Option CommEffectHeader :=
  (controlPayload messages controlCommEffectHeader).bind fun data =>
    accepted (CommEffectHeader.decode data) (meets_iff.mp (CommEffectHeader.meets_decode data)).1

/-- `find_tx_frequency_segments` -/
def findTxFrequencySegments (messages : List FfiControlMessage) : Option TxFrequencySegments :=
  (controlPayload messages controlTxFrequencySegments).bind fun data =>
    accepted (TxFrequencySegments.decode data) (TxFrequencySegments.exact.inBounds data)

/-- `find_tx_transmitters` -/
def findTxTransmitters (messages : List FfiControlMessage) : Option TxTransmitters :=
  (controlPayload messages controlTxTransmitters).bind fun data =>
    accepted (TxTransmitters.decode data) (TxTransmitters.exact.inBounds data)

/-- `find_mimo_tx_properties` -/
def findMimoTxProperties (messages : List FfiControlMessage) : Option MimoTxProperties :=
  (controlPayload messages controlMimoTxProperties).bind fun data =>
    accepted (MimoTxProperties.decode data) (MimoTxProperties.exact.inBounds data)

/-! ## The list over the air -/

/-- One turn of the loop of `encode_controls`. -/
def appendControl (data : Bytes) (message : FfiControlMessage) : Option Bytes :=
  if 2 ^ 32 - 1 < message.payload.len then none
  else do
    let payload ← message.payload.get
    let required ← checkedAdd 8 message.payload.len
    let size ← checkedAdd data.length required
    if maxControlWireSize < size then none
    else some (data ++ toBeBytes message.msgType ++ toBeBytes (UInt32.ofNat message.payload.len) ++
      payload)

/-- `encode_controls` -/
def encodeControls (messages : FfiSlice FfiControlMessage) : Option Bytes := do
  let messages ← ffiControlMessages messages
  let count ← u16TryFrom messages.length
  messages.foldlM appendControl (toBeBytes count)

/-- One turn of the loop of `decode_controls`. -/
def readControl (data : Bytes) : Cursor FfiControlMessage := fun offset => do
  let headerEnd ← orReject (checkedAdd offset 8)
  if headerEnd > data.length then .error .rejected else
  let msgType ← getU32 data offset
  let len ← getU32 data (offset + 4)
  let stop ← orReject (checkedAdd headerEnd len.toNat)
  if stop > data.length then .error .rejected else
  let payload ← indexRange data headerEnd stop
  return (⟨msgType, .data payload⟩, stop)

/-- `decode_controls` -/
def decodeControls (data : Bytes) : Except Fault (List FfiControlMessage) := do
  if data.length < 2 ∨ maxControlWireSize < data.length then .error .rejected else
  let count := (← getU16 data 0).toNat
  let (entries, offset) ← readMany (readControl data) count 2
  if offset ≠ data.length then .error .rejected else
  return entries

/-! ## The round trip -/

/-- A control as it arrives: the pointer of an empty payload is not null. -/
def FfiControlMessage.received (message : FfiControlMessage) : FfiControlMessage :=
  { message with payload := .data (message.payload.get.getD []) }

/-- The controls that are handed up when `messages` was sent. -/
def receivedControls (messages : FfiSlice FfiControlMessage) : List FfiControlMessage :=
  ((ffiControlMessages messages).getD []).map FfiControlMessage.received

/-- The bytes of a control. -/
def FfiControlMessage.bytes (message : FfiControlMessage) : Bytes :=
  toBeBytes message.msgType ++ toBeBytes (UInt32.ofNat message.payload.len) ++
    message.payload.get.getD []

section

variable {data c : Bytes} {message : FfiControlMessage} {messages : List FfiControlMessage} {o : ℕ}

/-- What a turn of the encoder appends, and when. -/
theorem appendControl_eq_some (h : appendControl data message = some c) :
    message.payload.get.isSome = true ∧ message.payload.len < 2 ^ 32 ∧ c = data ++ message.bytes ∧
      c.length ≤ maxControlWireSize := by
  unfold appendControl at h
  split at h
  · cases h
  next hlen =>
  obtain ⟨payload, hpayload, h⟩ := Option.bind_eq_some_iff.mp h
  obtain ⟨required, hrequired, h⟩ := Option.bind_eq_some_iff.mp h
  obtain ⟨size, hsize, h⟩ := Option.bind_eq_some_iff.mp h
  split at h
  · cases h
  next hfits =>
  have hc : c = data ++ message.bytes := by
    rw [← Option.some.inj h, FfiControlMessage.bytes, hpayload]
    simp only [List.append_assoc, Option.getD_some]
  refine ⟨by rw [hpayload]; rfl, by omega, hc, ?_⟩
  have hlength := FfiSlice.length_of_get hpayload
  have hrequired := (checkedAdd_eq_some hrequired).1
  have hsize := (checkedAdd_eq_some hsize).1
  rw [← Option.some.inj h]
  simp only [List.length_append, BigEndian.length_toBeBytes, width_uint32]
  omega

/-- The loop of the encoder. -/
theorem foldlM_appendControl (h : messages.foldlM appendControl data = some c)
    (hdata : data.length ≤ maxControlWireSize) :
    (∀ message ∈ messages, message.payload.get.isSome = true ∧ message.payload.len < 2 ^ 32) ∧
      c = data ++ messages.flatMap FfiControlMessage.bytes ∧ c.length ≤ maxControlWireSize := by
  induction messages generalizing data with
  | nil =>
      obtain rfl := Option.some.inj h
      exact ⟨nofun, (List.append_nil _).symm, hdata⟩
  | cons message messages ih =>
      rw [List.foldlM_cons] at h
      obtain ⟨data', hdata', hrest⟩ := Option.bind_eq_some_iff.mp h
      obtain ⟨hsome, hlen, rfl, hle⟩ := appendControl_eq_some hdata'
      obtain ⟨hall, rfl, hlength⟩ := ih hrest hle
      refine ⟨?_, by rw [List.flatMap_cons, List.append_assoc], hlength⟩
      intro m hm
      rcases List.mem_cons.mp hm with rfl | hm
      · exact ⟨hsome, hlen⟩
      · exact hall m hm

theorem bytes_received (h : message.payload.get.isSome = true) :
    message.received.bytes = message.bytes := by
  obtain ⟨payload, hpayload⟩ := Option.isSome_iff_exists.mp h
  have hlength := FfiSlice.length_of_get hpayload
  unfold FfiControlMessage.received FfiControlMessage.bytes
  rw [hpayload, ← hlength]
  rfl

/-- A turn of the decoder reads the control that stands there. -/
theorem readControl_bytes (hdata : data.length ≤ maxControlWireSize)
    (hsome : message.payload.get.isSome = true) (hlen : message.payload.len < 2 ^ 32)
    (h : StandsAt data o message.bytes) :
    readControl data o = .ok (message.received, o + message.bytes.length) := by
  obtain ⟨payload, hpayload⟩ := Option.isSome_iff_exists.mp hsome
  have hlength := FfiSlice.length_of_get hpayload
  have htoNat : (UInt32.ofNat message.payload.len).toNat = payload.length := by
    rw [UInt32.toNat_ofNat_of_lt' hlen, hlength]
  have hbytes : message.bytes.length = 8 + payload.length := by
    rw [FfiControlMessage.bytes, hpayload]
    simp only [List.length_append, BigEndian.length_toBeBytes, width_uint32, Option.getD_some]
  have hfits := h.fits (by rw [← List.length_pos_iff]; omega)
  rw [FfiControlMessage.bytes, hpayload, Option.getD_some, standsAt_append, standsAt_append,
    List.length_append, BigEndian.length_toBeBytes, BigEndian.length_toBeBytes, width_uint32] at h
  obtain ⟨⟨htype, hlenAt⟩, hpayloadAt⟩ := h
  have hrange : indexRange data (o + 8) (o + 8 + payload.length) = .ok payload := by
    have hget : getRange data (o + 8) (o + 8 + payload.length) = some payload := by
      unfold getRange
      rw [if_pos ⟨by omega, by omega⟩, hpayloadAt.extract]
    rw [indexRange, hget]
  unfold maxControlWireSize at hdata
  unfold readControl getU32
  rw [checkedAdd_eq (by omega), orReject_some, ok_bind, if_neg (by omega), getBe_eq htype, ok_bind,
    getBe_eq hlenAt, ok_bind, htoNat, checkedAdd_eq (by omega), orReject_some, ok_bind,
    if_neg (by omega), hrange, hbytes, FfiControlMessage.received, hpayload, ← Nat.add_assoc]
  rfl

end

/-- **The controls are read back**, every list that can be encoded. -/
theorem decodeControls_encodeControls {messages : FfiSlice FfiControlMessage} {data : Bytes}
    (h : encodeControls messages = some data) :
    decodeControls data = .ok (receivedControls messages) := by
  obtain ⟨list, hlist, h⟩ := Option.bind_eq_some_iff.mp h
  obtain ⟨count, hcount, h⟩ := Option.bind_eq_some_iff.mp h
  have hcount := (u16TryFrom_eq_some.mp hcount).2
  have htwo : (toBeBytes count).length ≤ maxControlWireSize := by
    rw [BigEndian.length_toBeBytes]
    decide
  obtain ⟨hall, hdata, hle⟩ := foldlM_appendControl h htwo
  have hstands := standsAt_self data
  nth_rewrite 2 [hdata] at hstands
  rw [standsAt_append, BigEndian.length_toBeBytes, width_uint16] at hstands
  obtain ⟨hcountAt, hlistAt⟩ := hstands
  have hlength : data.length = 2 + (list.flatMap FfiControlMessage.bytes).length := by
    rw [hdata, List.length_append, BigEndian.length_toBeBytes, width_uint16]
  have hbytes : (list.map FfiControlMessage.received).flatMap FfiControlMessage.bytes =
      list.flatMap FfiControlMessage.bytes := by
    rw [List.flatMap_map]
    exact List.flatMap_congr fun message hmem => bytes_received (hall message hmem).1
  have hread : readMany (readControl data) (list.map FfiControlMessage.received).length 2 =
      .ok (list.map FfiControlMessage.received,
        2 + ((list.map FfiControlMessage.received).flatMap FfiControlMessage.bytes).length) := by
    apply readMany_eq
    · intro received hmem o hat
      obtain ⟨message, hmessage, rfl⟩ := List.mem_map.mp hmem
      obtain ⟨hsome, hlen⟩ := hall message hmessage
      rw [bytes_received hsome] at hat ⊢
      exact readControl_bytes hle hsome hlen hat
    · rw [hbytes]
      exact hlistAt
  rw [List.length_map, ← hcount, hbytes, ← hlength] at hread
  unfold decodeControls getU16
  rw [if_neg (by omega), getBe_eq hcountAt, ok_bind]
  dsimp only
  rw [hread, ok_bind]
  dsimp only
  rw [if_neg (not_not.mpr rfl), receivedControls, hlist, Option.getD_some]
  rfl

/-- On any input the decoder stays inside it. -/
theorem meets_decodeControls (data : Bytes) : Meets (decodeControls data) (fun _ => True) := by
  have hread : ∀ o, Meets (readControl data o) (fun _ => True) := by
    intro o
    refine meets_bind (meets_orReject _) fun headerEnd hheader => ?_
    have hend := (checkedAdd_eq_some hheader).1
    refine meets_guard fun hfits => ?_
    refine meets_getBe_bind (by rw [width_uint32]; omega) fun msgType => ?_
    refine meets_getBe_bind (by rw [width_uint32]; omega) fun len => ?_
    refine meets_bind (meets_orReject _) fun stop hstop => ?_
    have hstop := (checkedAdd_eq_some hstop).1
    refine meets_guard fun hinside => ?_
    have hget : getRange data headerEnd stop = some (data.extract headerEnd stop) :=
      if_pos ⟨by omega, by omega⟩
    rw [indexRange, hget]
    trivial
  unfold decodeControls
  refine meets_guard fun hlength => ?_
  refine meets_getBe_bind (by rw [width_uint16]; omega) fun count => ?_
  refine meets_bind (meets_readMany (fun _ => True) hread _ _) fun r _ => ?_
  exact meets_guard fun _ => trivial

end Emane.LegacyOta
