import Mathlib
import Emane.Lib.Slicing
import Emane.PluginApi.Properties

set_option autoImplicit false

/-! # The messages of a boundary connection

A boundary message is a packet with control messages, or control messages alone, with a length for the
message, for the payload, for the control messages and for each of them. `sendPacket` and `sendControl`
write a message and `decodeMessage` reads one; it accepts exactly what they write
(`decodeMessage_exact`).
-/

namespace Emane.Boundary

open Emane.Lib
open Emane.PluginApi (FfiPacketInfo)

/-! ## Messages -/

structure OwnedControlMessage where
  messageType : UInt32
  payload : Bytes
  deriving DecidableEq

/-- A packet on the wire; its creation time is not. -/
structure BoundaryPacket where
  info : FfiPacketInfo
  payload : Bytes
  controls : List OwnedControlMessage
  deriving DecidableEq

inductive BoundaryMessage
  | packet (packet : BoundaryPacket)
  | control (controls : List OwnedControlMessage)
  deriving DecidableEq

/-- `MAX_MESSAGE_LENGTH` -/
def maxMessageLength : ℕ := 64 * 1024 * 1024

/-! ## Encoding -/

/-- The loop body of `encode_controls`. -/
def encodeControl (data : Bytes) (control : OwnedControlMessage) : Except String Bytes :=
  if control.messageType.toNat > 65535 then
    .error ("control message id " ++ toString control.messageType ++ " is not legacy-compatible")
  else if control.payload.length > 65535 then
    .error ("control message " ++ toString control.messageType.toUInt16 ++
      " exceeds legacy boundary size limit")
  else
    .ok (data ++ toBeBytes control.messageType.toUInt16 ++
      toBeBytes (UInt16.ofNat control.payload.length) ++ control.payload)

/-- `encode_controls` -/
def encodeControls (controls : List OwnedControlMessage) : Except String Bytes :=
  if controls.length > 65535 then .error "too many boundary control messages"
  else controls.foldlM encodeControl (toBeBytes (UInt16.ofNat controls.length))

/-- `usize::checked_add`, with the reason of an overflow. -/
def sumLengths (reason : String) (x y : ℕ) : Except String ℕ :=
  if x + y ≥ 2 ^ 64 then .error reason else .ok (x + y)

/-- The message that `send_packet` sends. -/
def sendPacket (packet : BoundaryPacket) : Except String Bytes := do
  let controls ← encodeControls packet.controls
  let length ← sumLengths "boundary packet length overflow" (6 + 13) packet.payload.length
  let total ← sumLengths "boundary packet length overflow" length controls.length
  if total > maxMessageLength ∨ packet.payload.length > 2 ^ 32 - 1 then
    .error "boundary packet exceeds protocol size limit"
  else
    .ok (toBeBytes (1 : UInt16) ++ toBeBytes (UInt32.ofNat total) ++ toBeBytes packet.info.source ++
      toBeBytes packet.info.destination ++ toBeBytes (UInt32.ofNat packet.payload.length) ++
      toBeBytes (UInt32.ofNat controls.length) ++ [packet.info.priority] ++ packet.payload ++ controls)

/-- The message that `send_control` sends. -/
def sendControl (controls : List OwnedControlMessage) : Except String Bytes := do
  let controls ← encodeControls controls
  let total ← sumLengths "boundary control-message length overflow" (6 + 4) controls.length
  if total > maxMessageLength then .error "boundary control message exceeds protocol size limit"
  else
    .ok (toBeBytes (2 : UInt16) ++ toBeBytes (UInt32.ofNat total) ++
      toBeBytes (UInt32.ofNat controls.length) ++ controls)

/-- The message that is sent for a boundary message. -/
def encodeMessage : BoundaryMessage → Except String Bytes
  | .packet packet => sendPacket packet
  | .control controls => sendControl controls

/-! ## Decoding -/

/-- The loop body of `decode_controls`: a control message and the data after it. -/
def decodeControl (data : Bytes) : Except (Stop String) (OwnedControlMessage × Bytes) :=
  if data.length < 4 then .error (.refused "truncated boundary control-message header")
  else do
    let messageType ← numberAt UInt16 data 0
    let length ← numberAt UInt16 data 2
    let data ← slice data 4 data.length
    if data.length < length.toNat then
      .error (.refused "truncated boundary control-message payload")
    else do
      let payload ← slice data 0 length.toNat
      let data ← slice data length.toNat data.length
      .ok (⟨messageType.toUInt32, payload⟩, data)

/-- The loop of `decode_controls`. -/
def decodeControlList : ℕ → Bytes → Except (Stop String) (List OwnedControlMessage × Bytes)
  | 0, data => .ok ([], data)
  | count + 1, data => do
      let (control, data) ← decodeControl data
      let (controls, data) ← decodeControlList count data
      .ok (control :: controls, data)

/-- `decode_controls` -/
def decodeControls (data : Bytes) : Except (Stop String) (List OwnedControlMessage) :=
  if data.length < 2 then .error (.refused "truncated boundary control-message count")
  else do
    let count ← numberAt UInt16 data 0
    let data ← slice data 2 data.length
    let (controls, data) ← decodeControlList count.toNat data
    if data ≠ [] then .error (.refused "trailing bytes in boundary control-message payload")
    else .ok controls

/-- `usize::checked_add` in the decoder. -/
def addLengths (x y : ℕ) : Except (Stop String) ℕ :=
  if x + y ≥ 2 ^ 64 then .error (.refused "boundary packet length overflow") else .ok (x + y)

/-- The branch of `decode_message` for packets. -/
def decodePacket (data : Bytes) : Except (Stop String) BoundaryPacket :=
  if data.length < 6 + 13 then .error (.refused "truncated boundary packet header")
  else do
    let header ← slice data 6 (6 + 13)
    let source ← numberAt UInt16 header 0
    let destination ← numberAt UInt16 header 2
    let payloadLength ← numberAt UInt32 header 4
    let controlLength ← numberAt UInt32 header 8
    let length ← addLengths (6 + 13) payloadLength.toNat
    let expected ← addLengths length controlLength.toNat
    if expected ≠ data.length then .error (.refused "boundary packet payload length mismatch")
    else do
      let priority ← byteAt header 12
      let payload ← slice data (6 + 13) (6 + 13 + payloadLength.toNat)
      let rest ← slice data (6 + 13 + payloadLength.toNat) data.length
      let controls ← decodeControls rest
      .ok ⟨⟨source, destination, priority⟩, payload, controls⟩

/-- The branch of `decode_message` for control messages. -/
def decodeControlMessage (data : Bytes) : Except (Stop String) (List OwnedControlMessage) :=
  if data.length < 6 + 4 then .error (.refused "truncated boundary control header")
  else do
    let length ← numberAt UInt32 data 6
    if 6 + 4 + length.toNat ≠ data.length then
      .error (.refused "boundary control payload length mismatch")
    else do
      let rest ← slice data (6 + 4) data.length
      decodeControls rest

/-- `decode_message` -/
def decodeMessage (data : Bytes) : Except (Stop String) BoundaryMessage :=
  if data.length < 6 then .error (.refused "truncated boundary header")
  else do
    let messageType ← numberAt UInt16 data 0
    let total ← numberAt UInt32 data 2
    if total.toNat ≠ data.length ∨ total.toNat > maxMessageLength then
      .error (.refused "invalid boundary message length")
    else if messageType = 1 then do
      let packet ← decodePacket data
      .ok (.packet packet)
    else if messageType = 2 then do
      let controls ← decodeControlMessage data
      .ok (.control controls)
    else .error (.refused ("unknown boundary message type " ++ toString messageType))

/-! ## Control messages -/

/-- What fits into the fields of a control message. -/
def OwnedControlMessage.Fits (control : OwnedControlMessage) : Prop :=
  control.messageType.toNat ≤ 65535 ∧ control.payload.length ≤ 65535

/-- A control message on the wire. -/
def OwnedControlMessage.write (control : OwnedControlMessage) : Bytes :=
  toBeBytes control.messageType.toUInt16 ++ toBeBytes (UInt16.ofNat control.payload.length) ++
    control.payload

theorem encodeControl_eq_ok_iff {data c : Bytes} {control : OwnedControlMessage} :
    encodeControl data control = .ok c ↔ control.Fits ∧ c = data ++ control.write := by
  unfold encodeControl
  rw [guard_eq_ok_iff, guard_eq_ok_iff, not_lt, not_lt, ← and_assoc, Except.ok.injEq,
    OwnedControlMessage.write, List.append_assoc, List.append_assoc, List.append_assoc, eq_comm]
  rfl

/-- The control messages after their count. -/
theorem foldlM_encodeControl {controls : List OwnedControlMessage} {data c : Bytes} :
    controls.foldlM encodeControl data = .ok c ↔
      (∀ control ∈ controls, control.Fits) ∧ c = data ++ controls.flatMap OwnedControlMessage.write := by
  induction controls generalizing data with
  | nil => simp [pure, Except.pure, eq_comm]
  | cons control controls ih =>
      rw [List.foldlM_cons, bind_eq_ok_iff]
      constructor
      · rintro ⟨d, hd, hrest⟩
        obtain ⟨hfits, rfl⟩ := encodeControl_eq_ok_iff.mp hd
        obtain ⟨hall, rfl⟩ := ih.mp hrest
        exact ⟨by simpa using ⟨hfits, hall⟩, by rw [List.flatMap_cons, List.append_assoc]⟩
      · rintro ⟨hall, rfl⟩
        refine ⟨_, encodeControl_eq_ok_iff.mpr ⟨hall control List.mem_cons_self, rfl⟩, ih.mpr ⟨?_, ?_⟩⟩
        · exact fun control' h' => hall control' (List.mem_cons_of_mem control h')
        · rw [List.flatMap_cons, List.append_assoc]

/-- **What `encode_controls` writes.** -/
theorem encodeControls_eq_ok_iff {controls : List OwnedControlMessage} {data : Bytes} :
    encodeControls controls = .ok data ↔
      controls.length ≤ 65535 ∧ (∀ control ∈ controls, control.Fits) ∧
        data = toBeBytes (UInt16.ofNat controls.length) ++
          controls.flatMap OwnedControlMessage.write := by
  unfold encodeControls
  rw [guard_eq_ok_iff, not_lt, foldlM_encodeControl]

/-- A length that fits is read as it was written. -/
theorem toNat_ofNat_uint16 {n : ℕ} (h : n ≤ 65535) : (UInt16.ofNat n).toNat = n := by
  rw [UInt16.toNat_ofNat']
  exact Nat.mod_eq_of_lt (by omega)

theorem toNat_ofNat_uint32 {n : ℕ} (h : n ≤ maxMessageLength) : (UInt32.ofNat n).toNat = n := by
  rw [UInt32.toNat_ofNat']
  unfold maxMessageLength at h
  exact Nat.mod_eq_of_lt (by omega)

theorem uint16_eq_ofNat {x : UInt16} {n : ℕ} (h : n = x.toNat) : UInt16.ofNat n = x := by
  rw [h, UInt16.ofNat_toNat]

theorem uint32_eq_ofNat {x : UInt32} {n : ℕ} (h : n = x.toNat) : UInt32.ofNat n = x := by
  rw [h, UInt32.ofNat_toNat]

/-- One control message is read if it stands at the start of the data. -/
theorem decodeControl_eq_ok_iff {data rest : Bytes} {control : OwnedControlMessage} :
    decodeControl data = .ok (control, rest) ↔ control.Fits ∧ data = control.write ++ rest := by
  unfold decodeControl
  simp only [guard_eq_ok_iff, bind_eq_ok_iff, numberAt_eq_ok_iff, slice_eq_ok_iff]
  constructor
  · rintro ⟨-, messageType, htype, length, hlength, body, ⟨-, -, hbody, hbodyLength⟩, hshort, payload,
      ⟨-, -, hpayload, hpayloadLength⟩, _, ⟨-, -, hrest, hrestLength⟩, heq⟩
    cases heq
    have hsplit : payload ++ rest = body := by
      refine StandsAt.eq (standsAt_append.mpr ⟨hpayload, ?_⟩) ?_
      · rwa [hpayloadLength]
      · rw [List.length_append]
        omega
    have hdata : toBeBytes messageType ++ (toBeBytes length ++ body) = data := by
      refine StandsAt.eq (standsAt_append.mpr ⟨htype, standsAt_append.mpr ⟨?_, ?_⟩⟩) ?_
      · simpa using hlength
      · simpa using hbody
      · simp only [List.length_append, BigEndian.length_toBeBytes, width_uint16]
        omega
    have hle : length.toNat ≤ 65535 := Nat.le_of_lt_succ length.toNat_lt
    have htype : messageType.toUInt32.toUInt16 = messageType := by simp
    refine ⟨⟨?_, ?_⟩, ?_⟩
    · rw [UInt16.toNat_toUInt32]
      exact Nat.le_of_lt_succ messageType.toNat_lt
    · change payload.length ≤ 65535
      omega
    · rw [OwnedControlMessage.write, htype, uint16_eq_ofNat (by omega : payload.length = length.toNat),
        List.append_assoc, List.append_assoc, hsplit, hdata]
  · rintro ⟨⟨htype, hpayload⟩, rfl⟩
    obtain ⟨messageType, payload⟩ := control
    dsimp only at htype hpayload
    have hlength := toNat_ofNat_uint16 hpayload
    have hwrite : OwnedControlMessage.write ⟨messageType, payload⟩ ++ rest =
        toBeBytes messageType.toUInt16 ++ (toBeBytes (UInt16.ofNat payload.length) ++
          (payload ++ rest)) := by
      simp [OwnedControlMessage.write]
    rw [hwrite]
    obtain ⟨hfirst, hsecond⟩ := standsAt_append.mp (standsAt_self (toBeBytes messageType.toUInt16 ++
      (toBeBytes (UInt16.ofNat payload.length) ++ (payload ++ rest))))
    obtain ⟨hsecond, hthird⟩ := standsAt_append.mp hsecond
    obtain ⟨hfourth, hfifth⟩ := standsAt_append.mp (standsAt_self (payload ++ rest))
    simp only [BigEndian.length_toBeBytes, width_uint16, Nat.zero_add] at hsecond hthird hfifth
    have hsame : messageType.toUInt16.toUInt32 = messageType := by
      apply UInt32.toNat.inj
      rw [UInt16.toNat_toUInt32, UInt32.toNat_toUInt16]
      exact Nat.mod_eq_of_lt (by omega)
    have htotal : 4 + (payload ++ rest).length = (toBeBytes messageType.toUInt16 ++
        (toBeBytes (UInt16.ofNat payload.length) ++ (payload ++ rest))).length := by
      simp only [List.length_append, BigEndian.length_toBeBytes, width_uint16]
      omega
    refine ⟨by omega, _, hfirst, _, hsecond, payload ++ rest, ⟨by omega, le_rfl, hthird, htotal⟩, ?_,
      payload, ⟨by omega, ?_, hfourth, ?_⟩, rest, ⟨?_, le_rfl, ?_, ?_⟩, ?_⟩
    · rw [hlength, List.length_append]
      omega
    · rw [hlength, List.length_append]
      omega
    · rw [hlength, Nat.zero_add]
    · rw [hlength, List.length_append]
      omega
    · rw [hlength]
      exact hfifth
    · rw [hlength, List.length_append]
    · rw [hsame]

/-- The loop reads the control messages that stand at the start of the data. -/
theorem decodeControlList_eq_ok_iff {count : ℕ} {data rest : Bytes}
    {controls : List OwnedControlMessage} :
    decodeControlList count data = .ok (controls, rest) ↔
      controls.length = count ∧ (∀ control ∈ controls, control.Fits) ∧
        data = controls.flatMap OwnedControlMessage.write ++ rest := by
  induction count generalizing data controls rest with
  | zero =>
      rw [decodeControlList, Except.ok.injEq, Prod.mk.injEq]
      constructor
      · rintro ⟨rfl, rfl⟩
        exact ⟨rfl, by simp, rfl⟩
      · rintro ⟨hlength, -, rfl⟩
        rw [List.length_eq_zero_iff.mp hlength]
        exact ⟨rfl, rfl⟩
  | succ count ih =>
      simp only [decodeControlList, bind_eq_ok_iff, Except.ok.injEq, Prod.exists, Prod.mk.injEq,
        decodeControl_eq_ok_iff, ih]
      constructor
      · rintro ⟨control, _, ⟨hfits, rfl⟩, controls, _, ⟨rfl, hall, rfl⟩, rfl, rfl⟩
        exact ⟨rfl, by simpa using ⟨hfits, hall⟩, by rw [List.flatMap_cons, List.append_assoc]⟩
      · rintro ⟨hlength, hall, rfl⟩
        cases controls with
        | nil => cases hlength
        | cons control controls =>
            refine ⟨control, _, ⟨hall control List.mem_cons_self, ?_⟩, controls, rest,
              ⟨Nat.succ.inj hlength, fun c hc => hall c (List.mem_cons_of_mem control hc), rfl⟩, rfl, rfl⟩
            rw [List.flatMap_cons, List.append_assoc]

/-- **`decode_controls` accepts what `encode_controls` writes**, and nothing else. -/
theorem decodeControls_eq_ok_iff {data : Bytes} {controls : List OwnedControlMessage} :
    decodeControls data = .ok controls ↔ encodeControls controls = .ok data := by
  rw [encodeControls_eq_ok_iff]
  unfold decodeControls
  simp only [guard_eq_ok_iff, bind_eq_ok_iff, numberAt_eq_ok_iff, slice_eq_ok_iff, Prod.exists,
    decodeControlList_eq_ok_iff, not_not, Except.ok.injEq]
  constructor
  · rintro ⟨-, count, hcount, body, ⟨-, -, hbody, hlength⟩, controls, _, ⟨hcontrols, hall, rfl⟩, rfl,
      rfl⟩
    have hdata : toBeBytes count ++ (controls.flatMap OwnedControlMessage.write ++ []) = data := by
      refine StandsAt.eq (standsAt_append.mpr ⟨hcount, by simpa using hbody⟩) ?_
      simp only [List.length_append, BigEndian.length_toBeBytes, width_uint16] at hlength ⊢
      omega
    refine ⟨hcontrols ▸ Nat.le_of_lt_succ count.toNat_lt, hall, ?_⟩
    rw [uint16_eq_ofNat hcontrols, ← hdata, List.append_nil]
  · rintro ⟨hcount, hall, rfl⟩
    obtain ⟨hfirst, hsecond⟩ := standsAt_append.mp (standsAt_self
      (toBeBytes (UInt16.ofNat controls.length) ++ controls.flatMap OwnedControlMessage.write))
    simp only [BigEndian.length_toBeBytes, width_uint16, Nat.zero_add] at hsecond
    have htotal : 2 + (controls.flatMap OwnedControlMessage.write).length =
        (toBeBytes (UInt16.ofNat controls.length) ++
          controls.flatMap OwnedControlMessage.write).length := by
      rw [List.length_append, BigEndian.length_toBeBytes, width_uint16]
    refine ⟨by omega, _, hfirst, _, ⟨by omega, le_rfl, hsecond, htotal⟩, controls, [], ⟨?_, hall, ?_⟩, rfl,
      rfl⟩
    · rw [toNat_ofNat_uint16 hcount]
    · rw [List.append_nil]

/-! ## Messages on the wire -/

/-- A packet message with encoded control messages. -/
def writePacket (packet : BoundaryPacket) (controls : Bytes) : Bytes :=
  toBeBytes (1 : UInt16) ++
    (toBeBytes (UInt32.ofNat (19 + packet.payload.length + controls.length)) ++
      (toBeBytes packet.info.source ++ (toBeBytes packet.info.destination ++
        (toBeBytes (UInt32.ofNat packet.payload.length) ++
          (toBeBytes (UInt32.ofNat controls.length) ++
            ([packet.info.priority] ++ (packet.payload ++ controls)))))))

/-- A control message with encoded control messages. -/
def writeControl (controls : Bytes) : Bytes :=
  toBeBytes (2 : UInt16) ++ (toBeBytes (UInt32.ofNat (10 + controls.length)) ++
    (toBeBytes (UInt32.ofNat controls.length) ++ controls))

theorem length_writePacket (packet : BoundaryPacket) (controls : Bytes) :
    (writePacket packet controls).length = 19 + packet.payload.length + controls.length := by
  simp only [writePacket, List.length_append, BigEndian.length_toBeBytes, width_uint16, width_uint32,
    List.length_singleton]
  omega

theorem length_writeControl (controls : Bytes) :
    (writeControl controls).length = 10 + controls.length := by
  simp only [writeControl, List.length_append, BigEndian.length_toBeBytes, width_uint16, width_uint32]
  omega

theorem sumLengths_eq_ok_iff {reason : String} {x y z : ℕ} :
    sumLengths reason x y = .ok z ↔ z < 2 ^ 64 ∧ z = x + y := by
  unfold sumLengths
  rw [guard_eq_ok_iff, Except.ok.injEq, not_le]
  constructor
  · rintro ⟨hlt, rfl⟩
    exact ⟨hlt, rfl⟩
  · rintro ⟨hlt, rfl⟩
    exact ⟨hlt, rfl⟩

theorem addLengths_eq_ok_iff {x y z : ℕ} :
    addLengths x y = .ok z ↔ z < 2 ^ 64 ∧ z = x + y := by
  unfold addLengths
  rw [guard_eq_ok_iff, Except.ok.injEq, not_le]
  constructor
  · rintro ⟨hlt, rfl⟩
    exact ⟨hlt, rfl⟩
  · rintro ⟨hlt, rfl⟩
    exact ⟨hlt, rfl⟩

theorem sendPacket_eq_ok_iff {packet : BoundaryPacket} {data : Bytes} :
    sendPacket packet = .ok data ↔ ∃ controls, encodeControls packet.controls = .ok controls ∧
      19 + packet.payload.length + controls.length ≤ maxMessageLength ∧
      data = writePacket packet controls := by
  unfold sendPacket
  simp only [bind_eq_ok_iff, sumLengths_eq_ok_iff, guard_eq_ok_iff, Except.ok.injEq, not_or, not_lt]
  constructor
  · rintro ⟨controls, hcontrols, _, ⟨-, rfl⟩, _, ⟨-, rfl⟩, ⟨hmax, -⟩, rfl⟩
    exact ⟨controls, hcontrols, hmax, by simp [writePacket]⟩
  · rintro ⟨controls, hcontrols, hmax, rfl⟩
    have hmax' := hmax
    unfold maxMessageLength at hmax'
    exact ⟨controls, hcontrols, _, ⟨by omega, rfl⟩, _, ⟨by omega, rfl⟩, ⟨hmax, by omega⟩,
      by simp [writePacket]⟩

theorem sendControl_eq_ok_iff {controls : List OwnedControlMessage} {data : Bytes} :
    sendControl controls = .ok data ↔ ∃ bytes, encodeControls controls = .ok bytes ∧
      10 + bytes.length ≤ maxMessageLength ∧ data = writeControl bytes := by
  unfold sendControl
  simp only [bind_eq_ok_iff, sumLengths_eq_ok_iff, guard_eq_ok_iff, Except.ok.injEq, not_lt]
  constructor
  · rintro ⟨bytes, hbytes, _, ⟨-, rfl⟩, hmax, rfl⟩
    exact ⟨bytes, hbytes, hmax, by simp [writeControl]⟩
  · rintro ⟨bytes, hbytes, hmax, rfl⟩
    have hmax' := hmax
    unfold maxMessageLength at hmax'
    exact ⟨bytes, hbytes, _, ⟨by omega, rfl⟩, hmax, by simp [writeControl]⟩

/-- A message header at the start of the data, and the length it announces. -/
structure HasHeader (data : Bytes) (messageType : UInt16) : Prop where
  stands : StandsAt data 0 (toBeBytes messageType ++ toBeBytes (UInt32.ofNat data.length))
  le : data.length ≤ maxMessageLength

/-- A packet message is read after its message header. -/
theorem decodePacket_eq_ok_iff {data : Bytes} {packet : BoundaryPacket} (hheader : HasHeader data 1) :
    decodePacket data = .ok packet ↔ ∃ controls, encodeControls packet.controls = .ok controls ∧
      data = writePacket packet controls := by
  unfold decodePacket
  simp only [guard_eq_ok_iff, bind_eq_ok_iff, numberAt_eq_ok_iff, slice_eq_ok_iff, byteAt_eq_ok_iff,
    addLengths_eq_ok_iff, decodeControls_eq_ok_iff, not_not, Except.ok.injEq]
  constructor
  · rintro ⟨-, header, ⟨-, -, hstands, -⟩, source, hsource, destination, hdestination, payloadLength,
      hpayloadLength, controlLength, hcontrolLength, _, ⟨-, rfl⟩, _, ⟨-, rfl⟩, hexpected, priority,
      hpriority, payload, ⟨-, -, hpayload, hpayloadEnd⟩, rest, ⟨-, -, hrest, hrestEnd⟩, controls,
      hcontrols, rfl⟩
    refine ⟨rest, hcontrols, ?_⟩
    have hpayloadEq : payload.length = payloadLength.toNat := by omega
    have hrestEq : rest.length = controlLength.toNat := by omega
    have htotal : 19 + payload.length + rest.length = data.length := by omega
    obtain ⟨htype, htotalField⟩ := standsAt_append.mp hheader.stands
    unfold writePacket
    rw [htotal, uint32_eq_ofNat hpayloadEq, uint32_eq_ofNat hrestEq]
    refine (StandsAt.eq ?_ ?_).symm
    · -- the fields stand one after the other
      have hfield : ∀ {bs : Bytes} {k : ℕ}, StandsAt header k bs → StandsAt data (6 + k) bs :=
        fun h => hstands.inside h
      refine standsAt_append.mpr ⟨htype, standsAt_append.mpr ⟨htotalField, standsAt_append.mpr
        ⟨hfield hsource, standsAt_append.mpr ⟨hfield hdestination, standsAt_append.mpr
        ⟨hfield hpayloadLength, standsAt_append.mpr ⟨hfield hcontrolLength, standsAt_append.mpr
        ⟨hfield hpriority, standsAt_append.mpr ⟨hpayload, ?_⟩⟩⟩⟩⟩⟩⟩⟩
      rw [hpayloadEq]
      exact hrest
    · simp only [List.length_append, BigEndian.length_toBeBytes, width_uint16, width_uint32,
        List.length_singleton]
      omega
  · rintro ⟨controls, hcontrols, rfl⟩
    obtain ⟨⟨source, destination, priority⟩, payload, messages⟩ := packet
    have hle := hheader.le
    have htotal : (writePacket ⟨⟨source, destination, priority⟩, payload, messages⟩ controls).length =
        19 + payload.length + controls.length := length_writePacket _ _
    rw [htotal] at hle
    have hle' := hle
    unfold maxMessageLength at hle'
    have hpayloadLength := toNat_ofNat_uint32 (n := payload.length) (by omega)
    have hcontrolLength := toNat_ofNat_uint32 (n := controls.length) (by omega)
    -- the packet header, and what stands in it
    let header : Bytes := toBeBytes source ++ (toBeBytes destination ++
      (toBeBytes (UInt32.ofNat payload.length) ++ (toBeBytes (UInt32.ofNat controls.length) ++ [priority])))
    have hregroup : writePacket ⟨⟨source, destination, priority⟩, payload, messages⟩ controls =
        toBeBytes (1 : UInt16) ++ (toBeBytes (UInt32.ofNat (19 + payload.length + controls.length)) ++
          (header ++ (payload ++ controls))) := by
      simp [writePacket, header]
    have hheaderLength : header.length = 13 := by
      simp only [header, List.length_append, BigEndian.length_toBeBytes, width_uint16, width_uint32,
        List.length_singleton]
    have hself := standsAt_self (writePacket ⟨⟨source, destination, priority⟩, payload, messages⟩ controls)
    nth_rewrite 2 [hregroup] at hself
    simp only [standsAt_append, BigEndian.length_toBeBytes, width_uint16, width_uint32,
      hheaderLength] at hself
    obtain ⟨-, -, hheaderStands, hpayload, hcontrolsStands⟩ := hself
    have hfields := standsAt_self header
    simp only [header, standsAt_append, BigEndian.length_toBeBytes, width_uint16, width_uint32] at hfields
    obtain ⟨hsource, hdestination, hpayloadField, hcontrolField, hpriority⟩ := hfields
    rw [← hpayloadLength] at hcontrolsStands
    refine ⟨by omega, header, ⟨by omega, by omega, hheaderStands, by omega⟩, source, hsource, destination,
      hdestination, _, hpayloadField, _, hcontrolField, _, ⟨by omega, rfl⟩, _, ⟨by omega, rfl⟩, by omega,
      priority, hpriority, payload, ⟨by omega, by omega, hpayload, by omega⟩, controls,
      ⟨by omega, le_rfl, hcontrolsStands, by omega⟩, messages, hcontrols, rfl⟩

/-- A control message is read after its message header. -/
theorem decodeControlMessage_eq_ok_iff {data : Bytes} {controls : List OwnedControlMessage}
    (hheader : HasHeader data 2) :
    decodeControlMessage data = .ok controls ↔ ∃ bytes, encodeControls controls = .ok bytes ∧
      data = writeControl bytes := by
  unfold decodeControlMessage
  simp only [guard_eq_ok_iff, bind_eq_ok_iff, numberAt_eq_ok_iff, slice_eq_ok_iff,
    decodeControls_eq_ok_iff, not_not]
  constructor
  · rintro ⟨-, length, hlength, hexpected, rest, ⟨-, -, hrest, hrestEnd⟩, hcontrols⟩
    refine ⟨rest, hcontrols, ?_⟩
    have hrestEq : rest.length = length.toNat := by omega
    have htotal : 10 + rest.length = data.length := by omega
    obtain ⟨htype, htotalField⟩ := standsAt_append.mp hheader.stands
    unfold writeControl
    rw [htotal, uint32_eq_ofNat hrestEq]
    refine (StandsAt.eq ?_ ?_).symm
    · exact standsAt_append.mpr ⟨htype, standsAt_append.mpr ⟨htotalField, standsAt_append.mpr
        ⟨hlength, hrest⟩⟩⟩
    · simp only [List.length_append, BigEndian.length_toBeBytes, width_uint16, width_uint32]
      omega
  · rintro ⟨bytes, hbytes, rfl⟩
    have hle := hheader.le
    have htotal := length_writeControl bytes
    rw [htotal] at hle
    have hlength := toNat_ofNat_uint32 (n := bytes.length) (by omega)
    have hself := standsAt_self (writeControl bytes)
    nth_rewrite 2 [writeControl] at hself
    simp only [standsAt_append, BigEndian.length_toBeBytes, width_uint16, width_uint32] at hself
    obtain ⟨-, -, hfield, hrest⟩ := hself
    exact ⟨by omega, _, hfield, by omega, bytes, ⟨by omega, le_rfl, hrest, by omega⟩, hbytes⟩

/-! ## Exactness -/

/-- What is written has a message header. -/
theorem hasHeader_writePacket {packet : BoundaryPacket} {controls : Bytes}
    (h : 19 + packet.payload.length + controls.length ≤ maxMessageLength) :
    HasHeader (writePacket packet controls) 1 := by
  refine ⟨?_, by rwa [length_writePacket]⟩
  have hself := standsAt_self (writePacket packet controls)
  nth_rewrite 2 [writePacket] at hself
  rw [← List.append_assoc, standsAt_append] at hself
  rw [length_writePacket]
  exact hself.1

theorem hasHeader_writeControl {controls : Bytes} (h : 10 + controls.length ≤ maxMessageLength) :
    HasHeader (writeControl controls) 2 := by
  refine ⟨?_, by rwa [length_writeControl]⟩
  have hself := standsAt_self (writeControl controls)
  nth_rewrite 2 [writeControl] at hself
  rw [← List.append_assoc, standsAt_append] at hself
  rw [length_writeControl]
  exact hself.1

/-- A message header is read. -/
theorem hasHeader_of_read {data : Bytes} {messageType : UInt16} {total : UInt32}
    (htype : StandsAt data 0 (toBeBytes messageType)) (htotal : StandsAt data 2 (toBeBytes total))
    (hlength : ¬ (total.toNat ≠ data.length ∨ total.toNat > maxMessageLength)) :
    HasHeader data messageType := by
  obtain ⟨heq, hle⟩ := not_or.mp hlength
  rw [not_not] at heq
  refine ⟨standsAt_append.mpr ⟨htype, ?_⟩, heq ▸ not_lt.mp hle⟩
  rw [uint32_eq_ofNat heq.symm]
  simpa using htotal

theorem HasHeader.length_ge {data : Bytes} {messageType : UInt16} (h : HasHeader data messageType) :
    6 ≤ data.length := by
  have hfits := h.stands.length_le
  simpa using hfits

/-- The message header is accepted. -/
theorem HasHeader.read {data : Bytes} {messageType : UInt16} (h : HasHeader data messageType)
    {k : Except (Stop String) BoundaryMessage} {message : BoundaryMessage} (hk : k = .ok message)
    {next : UInt16 → Except (Stop String) BoundaryMessage} (hnext : next messageType = k) :
    (if data.length < 6 then .error (.refused "truncated boundary header")
      else do
        let messageType ← numberAt UInt16 data 0
        let total ← numberAt UInt32 data 2
        if total.toNat ≠ data.length ∨ total.toNat > maxMessageLength then
          .error (.refused "invalid boundary message length")
        else next messageType) = .ok message := by
  obtain ⟨htype, htotal⟩ := standsAt_append.mp h.stands
  have hlength := toNat_ofNat_uint32 h.le
  simp only [guard_eq_ok_iff, bind_eq_ok_iff, numberAt_eq_ok_iff]
  refine ⟨not_lt.mpr h.length_ge, messageType, htype, _, by simpa using htotal, ?_, hnext.trans hk⟩
  rw [hlength]
  exact not_or.mpr ⟨not_not.mpr rfl, not_lt.mpr h.le⟩

/-- A message that is accepted was written. -/
theorem encode_of_decode {data : Bytes} {message : BoundaryMessage}
    (h : decodeMessage data = .ok message) : encodeMessage message = .ok data := by
  unfold decodeMessage at h
  simp only [guard_eq_ok_iff, bind_eq_ok_iff] at h
  obtain ⟨-, messageType, htype, total, htotal, hlength, hbody⟩ := h
  have hheader := hasHeader_of_read (numberAt_eq_ok_iff.mp htype) (numberAt_eq_ok_iff.mp htotal) hlength
  split at hbody
  · next hpacket =>
      subst hpacket
      obtain ⟨packet, hdecode, heq⟩ := bind_eq_ok_iff.mp hbody
      cases heq
      obtain ⟨controls, hcontrols, rfl⟩ := (decodePacket_eq_ok_iff hheader).mp hdecode
      refine sendPacket_eq_ok_iff.mpr ⟨controls, hcontrols, ?_, rfl⟩
      rw [← length_writePacket]
      exact hheader.le
  split at hbody
  · next hcontrol =>
      subst hcontrol
      obtain ⟨controls, hdecode, heq⟩ := bind_eq_ok_iff.mp hbody
      cases heq
      obtain ⟨bytes, hbytes, rfl⟩ := (decodeControlMessage_eq_ok_iff hheader).mp hdecode
      refine sendControl_eq_ok_iff.mpr ⟨bytes, hbytes, ?_, rfl⟩
      rw [← length_writeControl]
      exact hheader.le
  · cases hbody

/-- A message that was written is accepted. -/
theorem decode_of_encode {data : Bytes} {message : BoundaryMessage}
    (h : encodeMessage message = .ok data) : decodeMessage data = .ok message := by
  cases message with
  | packet packet =>
      obtain ⟨controls, hcontrols, hmax, rfl⟩ := sendPacket_eq_ok_iff.mp h
      have hheader := hasHeader_writePacket hmax
      have hdecode := (decodePacket_eq_ok_iff hheader).mpr ⟨controls, hcontrols, rfl⟩
      refine hheader.read (k := .ok (.packet packet)) rfl ?_
      rw [if_pos rfl, hdecode]
      rfl
  | control controls =>
      obtain ⟨bytes, hbytes, hmax, rfl⟩ := sendControl_eq_ok_iff.mp h
      have hheader := hasHeader_writeControl hmax
      have hdecode := (decodeControlMessage_eq_ok_iff hheader).mpr ⟨bytes, hbytes, rfl⟩
      refine hheader.read (k := .ok (.control controls)) rfl ?_
      rw [if_neg (by decide), if_pos rfl, hdecode]
      rfl

/-! ## No slice outside the data -/

theorem decodeControl_avoids (data : Bytes) :
    Avoids .panicked (fun _ => True) (decodeControl data) := by
  unfold decodeControl
  refine Avoids.guard fun hlength => ?_
  refine (numberAt_avoids (by rw [width_uint16]; omega)).bind fun _ _ => ?_
  refine (numberAt_avoids (by rw [width_uint16]; omega)).bind fun length _ => ?_
  refine (slice_avoids (by omega) le_rfl).bind fun body _ => ?_
  refine Avoids.guard fun hshort => ?_
  refine (slice_avoids (Nat.zero_le _) (by omega)).bind fun _ _ => ?_
  exact (slice_avoids (by omega) le_rfl).bind fun _ _ => trivial

theorem decodeControlList_avoids (count : ℕ) (data : Bytes) :
    Avoids .panicked (fun _ => True) (decodeControlList count data) := by
  induction count generalizing data with
  | zero => trivial
  | succ count ih =>
      exact (decodeControl_avoids data).bind fun r _ => (ih r.2).bind fun _ _ => trivial

theorem decodeControls_avoids (data : Bytes) :
    Avoids .panicked (fun _ => True) (decodeControls data) := by
  unfold decodeControls
  refine Avoids.guard fun hlength => ?_
  refine (numberAt_avoids (by rw [width_uint16]; omega)).bind fun count _ => ?_
  refine (slice_avoids (by omega) le_rfl).bind fun body _ => ?_
  exact (decodeControlList_avoids count.toNat body).bind fun _ _ => Avoids.guard fun _ => trivial

theorem addLengths_avoids (x y : ℕ) : Avoids .panicked (fun z => z = x + y) (addLengths x y) :=
  Avoids.guard fun _ => rfl

theorem decodePacket_avoids (data : Bytes) : Avoids .panicked (fun _ => True) (decodePacket data) := by
  unfold decodePacket
  refine Avoids.guard fun hlength => ?_
  refine (slice_avoids (by omega) (by omega)).bind fun header hheader => ?_
  refine (numberAt_avoids (by rw [width_uint16]; omega)).bind fun _ _ => ?_
  refine (numberAt_avoids (by rw [width_uint16]; omega)).bind fun _ _ => ?_
  refine (numberAt_avoids (by rw [width_uint32]; omega)).bind fun payloadLength _ => ?_
  refine (numberAt_avoids (by rw [width_uint32]; omega)).bind fun _ _ => ?_
  refine (addLengths_avoids _ _).bind fun length hsum => ?_
  refine (addLengths_avoids _ _).bind fun expected hsum' => ?_
  refine Avoids.guard fun hexpected => ?_
  rw [not_not] at hexpected
  refine (byteAt_avoids (by omega)).bind fun _ _ => ?_
  refine (slice_avoids (by omega) (by omega)).bind fun _ _ => ?_
  refine (slice_avoids (by omega) le_rfl).bind fun rest _ => ?_
  exact (decodeControls_avoids rest).bind fun _ _ => trivial

theorem decodeControlMessage_avoids (data : Bytes) :
    Avoids .panicked (fun _ => True) (decodeControlMessage data) := by
  unfold decodeControlMessage
  refine Avoids.guard fun hlength => ?_
  refine (numberAt_avoids (by rw [width_uint32]; omega)).bind fun _ _ => ?_
  refine Avoids.guard fun hexpected => ?_
  exact (slice_avoids (by omega) le_rfl).bind fun rest _ => decodeControls_avoids rest

theorem decodeMessage_avoids (data : Bytes) :
    Avoids .panicked (fun _ => True) (decodeMessage data) := by
  unfold decodeMessage
  refine Avoids.guard fun hlength => ?_
  refine (numberAt_avoids (by rw [width_uint16]; omega)).bind fun _ _ => ?_
  refine (numberAt_avoids (by rw [width_uint32]; omega)).bind fun _ _ => ?_
  refine Avoids.guard fun _ => ?_
  split
  · exact (decodePacket_avoids data).bind fun _ _ => trivial
  split
  · exact (decodeControlMessage_avoids data).bind fun _ _ => trivial
  · exact fun heq => by cases heq

/-- **`decode_message` is exact.** It accepts a byte string with a message as the result if and only if
this is the string that `send_packet` or `send_control` writes for the message, and it never slices
outside its input. -/
theorem decodeMessage_exact (data : Bytes) :
    (∀ message, decodeMessage data = .ok message ↔ encodeMessage message = .ok data) ∧
      decodeMessage data ≠ .error .panicked :=
  ⟨fun _ => ⟨encode_of_decode, decode_of_encode⟩, (decodeMessage_avoids data).ne_error⟩

end Emane.Boundary
