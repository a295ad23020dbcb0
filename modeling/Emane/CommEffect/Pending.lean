import Mathlib
import Emane.Lib.Decoding
import Emane.Lib.Slicing
import Emane.PluginApi.Properties

set_option autoImplicit false

/-! # Packets that wait in a timer

A packet that is delivered later is written into the data of a timer and read back when the timer
fires. The time spent on the packet is patched into the data once it is known. `decodePending` reads
what `pendingBytes` writes, and nothing else (`decodePending_eq_ok`), so a packet that waited is
delivered as one that did not (`delayed_delivery`).
-/

namespace Emane.CommEffect

open Emane.Lib

/-! ## Packets and deliveries -/

structure FfiPacketInfo extends PluginApi.FfiPacketInfo where
  creationTimeSec : UInt64
  creationTimeUsec : UInt32
  deriving DecidableEq

structure FfiPacket where
  info : FfiPacketInfo
  payload : Bytes
  deriving DecidableEq

structure FfiControlMessage where
  msgType : UInt32
  payload : Bytes
  deriving DecidableEq

/-- `CONTROL_COMM_EFFECT_HEADER` -/
def controlCommEffectHeader : UInt32 := 0x454D0005

/-- What goes up: the packet, its controls, and the processing delay that is counted for it. -/
structure Pending where
  packet : FfiPacket
  messages : List FfiControlMessage
  processingDelayMicroseconds : UInt64
  deriving DecidableEq

/-- The controls that go on: all but the header of this layer. -/
def outgoing (messages : List FfiControlMessage) : List FfiControlMessage :=
  messages.filter fun message => message.msgType != controlCommEffectHeader

/-- What `send_upstream_now` sends up. -/
def sendUpstreamNow (packet : FfiPacket) (incoming : List FfiControlMessage)
    (processingDelayMicroseconds : UInt64) : Pending :=
  ⟨packet, outgoing incoming, processingDelayMicroseconds⟩

/-! ## Writing -/

/-- A control in the data; the length is cut to 32 bits. -/
def FfiControlMessage.write (message : FfiControlMessage) : Bytes :=
  toBeBytes message.msgType ++ (toBeBytes (UInt32.ofNat message.payload.length) ++ message.payload)

/-- The data of a delivery; the lengths are cut to 32 bits, and the number of controls to 16. -/
def pendingBytes (pending : Pending) : Bytes :=
  toBeBytes pending.packet.info.source ++ (toBeBytes pending.packet.info.destination ++
    ([pending.packet.info.priority] ++ (toBeBytes pending.packet.info.creationTimeSec ++
      (toBeBytes pending.packet.info.creationTimeUsec ++
        (toBeBytes pending.processingDelayMicroseconds ++
          (toBeBytes (UInt32.ofNat pending.packet.payload.length) ++ (pending.packet.payload ++
            (toBeBytes (UInt16.ofNat pending.messages.length) ++
              pending.messages.flatMap FfiControlMessage.write))))))))

/-- `encode_pending` -/
def encodePending (packet : FfiPacket) (messages : List FfiControlMessage)
    (processingDelayMicroseconds : UInt64) : Bytes :=
  pendingBytes ⟨packet, outgoing messages, processingDelayMicroseconds⟩

/-- `data[17..25].copy_from_slice(&delay.to_be_bytes())` of `upstream`. -/
def patchDelay (data : Bytes) (delay : UInt64) : Except (Stop Unit) Bytes :=
  if ¬ 25 ≤ data.length then .error .panicked
  else .ok (data.take 17 ++ toBeBytes delay ++ data.drop 25)

/-! ## Reading -/

/-- `checked_add`; a sum that overflows refuses the data. -/
def checkedSum (x y : ℕ) : Except (Stop Unit) ℕ :=
  if x + y ≥ 2 ^ 64 then .error (.refused ()) else .ok (x + y)

/-- One turn of the loop of `decode_pending`: a control, and where the next one begins. -/
def readControl (data : Bytes) (offset : ℕ) : Except (Stop Unit) (FfiControlMessage × ℕ) := do
  let headerEnd ← checkedSum offset 8
  if headerEnd > data.length then .error (.refused ())
  else do
    let kind ← numberAt UInt32 data offset
    let len ← numberAt UInt32 data (offset + 4)
    let stop ← checkedSum (offset + 8) len.toNat
    if stop > data.length then .error (.refused ())
    else do
      let body ← slice data (offset + 8) stop
      .ok (⟨kind, body⟩, stop)

/-- The loop of `decode_pending`. -/
def readControls (data : Bytes) : ℕ → ℕ → Except (Stop Unit) (List FfiControlMessage × ℕ)
  | 0, offset => .ok ([], offset)
  | count + 1, offset => do
      let (message, offset) ← readControl data offset
      let (messages, offset) ← readControls data count offset
      .ok (message :: messages, offset)

/-- `decode_pending` -/
def decodePending (data : Bytes) : Except (Stop Unit) Pending :=
  if data.length < 31 then .error (.refused ())
  else do
    let source ← numberAt UInt16 data 0
    let destination ← numberAt UInt16 data 2
    let priority ← byteAt data 4
    let creationTimeSec ← numberAt UInt64 data 5
    let creationTimeUsec ← numberAt UInt32 data 13
    let processingDelayMicroseconds ← numberAt UInt64 data 17
    let payloadLen ← numberAt UInt32 data 25
    let payloadEnd ← checkedSum 29 payloadLen.toNat
    let countEnd ← checkedSum payloadEnd 2
    if countEnd > data.length then .error (.refused ())
    else do
      let payload ← slice data 29 payloadEnd
      let count ← numberAt UInt16 data payloadEnd
      let (messages, offset) ← readControls data count.toNat (payloadEnd + 2)
      if offset ≠ data.length then .error (.refused ())
      else
        .ok ⟨⟨⟨⟨source, destination, priority⟩, creationTimeSec, creationTimeUsec⟩, payload⟩, messages,
          processingDelayMicroseconds⟩

/-! ## What is read -/

theorem checkedSum_eq_ok_iff {x y z : ℕ} : checkedSum x y = .ok z ↔ z < 2 ^ 64 ∧ z = x + y := by
  unfold checkedSum
  rw [guard_eq_ok_iff, Except.ok.injEq, not_le]
  constructor
  · rintro ⟨hlt, rfl⟩
    exact ⟨hlt, rfl⟩
  · rintro ⟨hlt, rfl⟩
    exact ⟨hlt, rfl⟩

/-- The control can be written. -/
def FfiControlMessage.Fits (message : FfiControlMessage) : Prop := message.payload.length < 2 ^ 32

theorem length_write (message : FfiControlMessage) :
    message.write.length = 8 + message.payload.length := by
  simp only [FfiControlMessage.write, List.length_append, BigEndian.length_toBeBytes, width_uint32]
  omega

/-- A control that is read stands at its place. -/
theorem readControl_eq_ok {data : Bytes} {o o' : ℕ} {message : FfiControlMessage}
    (h : readControl data o = .ok (message, o')) :
    message.Fits ∧ StandsAt data o message.write ∧ o' = o + message.write.length := by
  unfold readControl at h
  simp only [guard_eq_ok_iff, bind_eq_ok_iff, numberAt_eq_ok_iff, slice_eq_ok_iff,
    checkedSum_eq_ok_iff, Except.ok.injEq, Prod.mk.injEq] at h
  obtain ⟨_, ⟨-, rfl⟩, -, kind, hkind, len, hlen, stop, ⟨-, rfl⟩, -, body, ⟨-, -, hbody, hlength⟩,
    rfl, rfl⟩ := h
  have hlen' : UInt32.ofNat body.length = len := by
    rw [show body.length = len.toNat by omega, UInt32.ofNat_toNat]
  have hlt := len.toNat_lt
  refine ⟨?_, ?_, ?_⟩
  · change body.length < 2 ^ 32
    omega
  · rw [FfiControlMessage.write, standsAt_append, standsAt_append, BigEndian.length_toBeBytes,
      BigEndian.length_toBeBytes, width_uint32]
    dsimp only
    rw [hlen']
    exact ⟨hkind, hlen, hbody⟩
  · rw [length_write]
    dsimp only
    omega

/-- A control that stands at its place is read. -/
theorem readControl_of_standsAt {data : Bytes} (hdata : data.length < 2 ^ 64) {o : ℕ}
    {message : FfiControlMessage} (hfits : message.Fits) (h : StandsAt data o message.write) :
    readControl data o = .ok (message, o + message.write.length) := by
  obtain ⟨kind, body⟩ := message
  rw [FfiControlMessage.write, standsAt_append, standsAt_append, BigEndian.length_toBeBytes,
    BigEndian.length_toBeBytes, width_uint32] at h
  obtain ⟨hkind, hlen, hbody⟩ := h
  dsimp only at hlen hbody
  have hend := hlen.fits (toBeBytes_ne_nil _)
  rw [BigEndian.length_toBeBytes, width_uint32] at hend
  -- an empty payload stands anywhere, so the length before it says that it is in the data
  have hstop : o + 8 + body.length ≤ data.length := by
    by_cases hempty : body = []
    · rw [hempty, List.length_nil]
      omega
    · exact hbody.fits hempty
  have hlength : (UInt32.ofNat body.length).toNat = body.length := UInt32.toNat_ofNat_of_lt' hfits
  unfold readControl
  simp only [guard_eq_ok_iff, bind_eq_ok_iff, numberAt_eq_ok_iff, slice_eq_ok_iff,
    checkedSum_eq_ok_iff, Except.ok.injEq, Prod.mk.injEq, length_write]
  exact ⟨_, ⟨by omega, rfl⟩, by omega, kind, hkind, _, hlen, _, ⟨by omega, rfl⟩, by omega, body,
    ⟨by omega, by omega, hbody, by omega⟩, rfl, by omega⟩

/-- The loop reads controls that stand one after the other. -/
theorem readControls_eq_ok {data : Bytes} : ∀ {count o o' : ℕ} {messages : List FfiControlMessage},
    readControls data count o = .ok (messages, o') →
      messages.length = count ∧ (∀ message ∈ messages, message.Fits) ∧
      StandsAt data o (messages.flatMap FfiControlMessage.write) ∧
      o' = o + (messages.flatMap FfiControlMessage.write).length := by
  intro count
  induction count with
  | zero =>
      intro o o' messages h
      cases h
      exact ⟨rfl, by simp, List.nil_prefix, rfl⟩
  | succ count ih =>
      intro o o' messages h
      obtain ⟨⟨message, o₁⟩, hmessage, h⟩ := exists_of_bind_eq_ok h
      obtain ⟨⟨rest, o₂⟩, hrest, h⟩ := exists_of_bind_eq_ok h
      cases h
      obtain ⟨hfits, hstands, rfl⟩ := readControl_eq_ok hmessage
      obtain ⟨hlength, hall, hstands', rfl⟩ := ih hrest
      refine ⟨by simp [hlength], by simpa using ⟨hfits, hall⟩, ?_, ?_⟩
      · rw [List.flatMap_cons, standsAt_append]
        exact ⟨hstands, hstands'⟩
      · rw [List.flatMap_cons, List.length_append, Nat.add_assoc]

theorem readControls_of_standsAt {data : Bytes} (hdata : data.length < 2 ^ 64) :
    ∀ {messages : List FfiControlMessage} {o : ℕ}, (∀ message ∈ messages, message.Fits) →
      StandsAt data o (messages.flatMap FfiControlMessage.write) →
      readControls data messages.length o =
        .ok (messages, o + (messages.flatMap FfiControlMessage.write).length) := by
  intro messages
  induction messages with
  | nil => exact fun _ _ => rfl
  | cons message messages ih =>
      intro o hfits h
      rw [List.flatMap_cons, standsAt_append] at h
      have hhead := readControl_of_standsAt hdata (hfits message List.mem_cons_self) h.1
      have htail := ih (fun m hm => hfits m (List.mem_cons_of_mem message hm)) h.2
      refine bind_eq_ok_iff.mpr ⟨_, hhead, bind_eq_ok_iff.mpr ⟨_, htail, ?_⟩⟩
      rw [List.flatMap_cons, List.length_append, Nat.add_assoc]

/-- The lengths of the delivery fit into their fields. -/
structure Pending.Fits (pending : Pending) : Prop where
  payload : pending.packet.payload.length < 2 ^ 32
  count : pending.messages.length < 2 ^ 16
  messages : ∀ message ∈ pending.messages, message.Fits

theorem length_pendingBytes (pending : Pending) : (pendingBytes pending).length =
    31 + pending.packet.payload.length +
      (pending.messages.flatMap FfiControlMessage.write).length := by
  simp only [pendingBytes, List.length_append, BigEndian.length_toBeBytes, width_uint16, width_uint32,
    width_uint64, List.length_singleton]
  omega

/-- A delivery that fits is shorter than any overflow. -/
theorem Pending.Fits.length_lt {pending : Pending} (h : pending.Fits) :
    (pendingBytes pending).length < 2 ^ 64 := by
  have hcontrols : (pending.messages.map fun message => message.write.length).sum ≤
      pending.messages.length * (2 ^ 33) := by
    apply sum_map_le
    intro message hmessage
    have hfits := h.messages message hmessage
    unfold FfiControlMessage.Fits at hfits
    rw [length_write]
    omega
  have hpayload := h.payload
  have hcount := h.count
  rw [length_pendingBytes, List.length_flatMap]
  omega

/-- The fields of a delivery, each at its place. -/
theorem standsAt_pendingBytes {data : Bytes} {p : Pending} : StandsAt data 0 (pendingBytes p) ↔
    StandsAt data 0 (toBeBytes p.packet.info.source) ∧
    StandsAt data 2 (toBeBytes p.packet.info.destination) ∧
    StandsAt data 4 [p.packet.info.priority] ∧
    StandsAt data 5 (toBeBytes p.packet.info.creationTimeSec) ∧
    StandsAt data 13 (toBeBytes p.packet.info.creationTimeUsec) ∧
    StandsAt data 17 (toBeBytes p.processingDelayMicroseconds) ∧
    StandsAt data 25 (toBeBytes (UInt32.ofNat p.packet.payload.length)) ∧
    StandsAt data 29 p.packet.payload ∧
    StandsAt data (29 + p.packet.payload.length) (toBeBytes (UInt16.ofNat p.messages.length)) ∧
    StandsAt data (29 + p.packet.payload.length + 2)
      (p.messages.flatMap FfiControlMessage.write) := by
  unfold pendingBytes
  simp only [standsAt_append, BigEndian.length_toBeBytes, width_uint16, width_uint32, width_uint64,
    List.length_singleton, Nat.zero_add, Nat.reduceAdd]

/-- **What is accepted is what was written.** -/
theorem decodePending_eq_ok {data : Bytes} {p : Pending} (h : decodePending data = .ok p) :
    p.Fits ∧ data = pendingBytes p := by
  unfold decodePending at h
  simp only [guard_eq_ok_iff, bind_eq_ok_iff, numberAt_eq_ok_iff, byteAt_eq_ok_iff, slice_eq_ok_iff,
    checkedSum_eq_ok_iff, Except.ok.injEq] at h
  obtain ⟨-, source, hsource, destination, hdestination, priority, hpriority, sec, hsec, usec, husec,
    delay, hdelay, payloadLen, hpayloadLen, _, ⟨-, rfl⟩, _, ⟨-, rfl⟩, -, payload,
    ⟨-, -, hpayload, hlength⟩, count, hcount, ⟨messages, o⟩, hmessages, hend, rfl⟩ := h
  obtain ⟨hcountEq, hfits, hstands, rfl⟩ := readControls_eq_ok hmessages
  -- the numbers that were read are the lengths of what was read
  have hpayloadEq : payload.length = payloadLen.toNat := by omega
  have hpayloadLt := payloadLen.toNat_lt
  have hcountLt := count.toNat_lt
  refine ⟨⟨by dsimp only; omega, by dsimp only; omega, hfits⟩, ?_⟩
  symm
  apply StandsAt.eq
  · rw [standsAt_pendingBytes]
    dsimp only
    rw [hpayloadEq, hcountEq, UInt32.ofNat_toNat, UInt16.ofNat_toNat]
    exact ⟨hsource, hdestination, hpriority, hsec, husec, hdelay, hpayloadLen, hpayload, hcount, hstands⟩
  · rw [length_pendingBytes]
    dsimp only
    omega

/-- What was written is accepted. -/
theorem decodePending_pendingBytes {p : Pending} (h : p.Fits) :
    decodePending (pendingBytes p) = .ok p := by
  have hdata := h.length_lt
  have hlength := length_pendingBytes p
  obtain ⟨hsource, hdestination, hpriority, hsec, husec, hdelay, hpayloadLen, hpayload, hcount,
    hstands⟩ := standsAt_pendingBytes.mp (standsAt_self (pendingBytes p))
  have hpayloadLt : (UInt32.ofNat p.packet.payload.length).toNat = p.packet.payload.length :=
    UInt32.toNat_ofNat_of_lt' h.payload
  have hcountLt : (UInt16.ofNat p.messages.length).toNat = p.messages.length :=
    UInt16.toNat_ofNat_of_lt' h.count
  have hmessages := readControls_of_standsAt hdata h.messages hstands
  rw [show 29 + p.packet.payload.length + 2 + (p.messages.flatMap FfiControlMessage.write).length =
    (pendingBytes p).length by omega] at hmessages
  unfold decodePending
  simp only [guard_eq_ok_iff, bind_eq_ok_iff, numberAt_eq_ok_iff, byteAt_eq_ok_iff, slice_eq_ok_iff,
    checkedSum_eq_ok_iff, Except.ok.injEq]
  refine ⟨by omega, _, hsource, _, hdestination, _, hpriority, _, hsec, _, husec, _, hdelay, _,
    hpayloadLen, _, ⟨by omega, rfl⟩, _, ⟨by omega, rfl⟩, by omega, p.packet.payload,
    ⟨by omega, by omega, hpayload, by omega⟩, UInt16.ofNat p.messages.length, ?_,
    (p.messages, (pendingBytes p).length), ?_, not_not.mpr rfl, rfl⟩
  · rwa [hpayloadLt]
  · rw [hpayloadLt, hcountLt]
    exact hmessages

/-! ## Damaged data -/

theorem checkedSum_avoids (x y : ℕ) :
    Avoids (.panicked : Stop Unit) (fun z => z = x + y) (checkedSum x y) := by
  unfold checkedSum
  split
  · exact fun heq => by cases heq
  · rfl

theorem readControl_avoids (data : Bytes) (o : ℕ) :
    Avoids (.panicked : Stop Unit) (fun _ => True) (readControl data o) := by
  refine (checkedSum_avoids o 8).bind fun headerEnd hheaderEnd => ?_
  refine Avoids.guard fun hheader => ?_
  refine (numberAt_avoids (by rw [width_uint32]; omega)).bind fun kind _ => ?_
  refine (numberAt_avoids (by rw [width_uint32]; omega)).bind fun len _ => ?_
  refine (checkedSum_avoids _ _).bind fun stop hstop => ?_
  refine Avoids.guard fun hfits => ?_
  exact (slice_avoids (by omega) (by omega)).bind fun body _ => trivial

theorem readControls_avoids (data : Bytes) : ∀ count o : ℕ,
    Avoids (.panicked : Stop Unit) (fun _ => True) (readControls data count o) := by
  intro count
  induction count with
  | zero => exact fun _ => trivial
  | succ count ih =>
      intro o
      refine (readControl_avoids data o).bind fun r _ => ?_
      exact (ih r.2).bind fun _ _ => trivial

/-- **Damaged data is refused** without indexing outside of it. -/
theorem decodePending_ne_panicked (data : Bytes) : decodePending data ≠ .error .panicked := by
  apply Avoids.ne_error (Q := fun _ => True)
  unfold decodePending
  refine Avoids.guard fun hshort => ?_
  refine (numberAt_avoids (by rw [width_uint16]; omega)).bind fun source _ => ?_
  refine (numberAt_avoids (by rw [width_uint16]; omega)).bind fun destination _ => ?_
  refine (byteAt_avoids (by omega)).bind fun priority _ => ?_
  refine (numberAt_avoids (by rw [width_uint64]; omega)).bind fun sec _ => ?_
  refine (numberAt_avoids (by rw [width_uint32]; omega)).bind fun usec _ => ?_
  refine (numberAt_avoids (by rw [width_uint64]; omega)).bind fun delay _ => ?_
  refine (numberAt_avoids (by rw [width_uint32]; omega)).bind fun payloadLen _ => ?_
  refine (checkedSum_avoids _ _).bind fun payloadEnd hpayloadEnd => ?_
  refine (checkedSum_avoids _ _).bind fun countEnd hcountEnd => ?_
  refine Avoids.guard fun hfits => ?_
  refine (slice_avoids (by omega) (by omega)).bind fun payload _ => ?_
  refine (numberAt_avoids (by rw [width_uint16]; omega)).bind fun count _ => ?_
  refine (readControls_avoids data _ _).bind fun r _ => ?_
  exact Avoids.guard fun _ => trivial

/-! ## Delayed deliveries -/

/-- What is written before the delay. -/
def headBytes (info : FfiPacketInfo) : Bytes :=
  toBeBytes info.source ++ (toBeBytes info.destination ++ ([info.priority] ++
    (toBeBytes info.creationTimeSec ++ toBeBytes info.creationTimeUsec)))

/-- What is written after it. -/
def tailBytes (payload : Bytes) (messages : List FfiControlMessage) : Bytes :=
  toBeBytes (UInt32.ofNat payload.length) ++ (payload ++ (toBeBytes (UInt16.ofNat messages.length) ++
    messages.flatMap FfiControlMessage.write))

theorem pendingBytes_eq (p : Pending) : pendingBytes p = headBytes p.packet.info ++
    (toBeBytes p.processingDelayMicroseconds ++ tailBytes p.packet.payload p.messages) := by
  simp only [pendingBytes, headBytes, tailBytes, List.append_assoc]

theorem length_headBytes (info : FfiPacketInfo) : (headBytes info).length = 17 := by
  simp only [headBytes, List.length_append, BigEndian.length_toBeBytes, width_uint16, width_uint32,
    width_uint64, List.length_singleton]

/-- **The patched data is that of the delivery with the delay.** -/
theorem patchDelay_pendingBytes (p : Pending) (delay : UInt64) :
    patchDelay (pendingBytes p) delay =
      .ok (pendingBytes { p with processingDelayMicroseconds := delay }) := by
  have hlength := length_pendingBytes p
  have hhead := length_headBytes p.packet.info
  have hdelay : (toBeBytes p.processingDelayMicroseconds).length = 8 :=
    BigEndian.length_toBeBytes _
  unfold patchDelay
  rw [if_neg (by omega), Except.ok.injEq, pendingBytes_eq, pendingBytes_eq]
  rw [List.take_left' hhead, ← List.append_assoc (headBytes _),
    List.drop_left' (by rw [List.length_append]; omega)]
  exact List.append_assoc ..

theorem outgoing_length_le (messages : List FfiControlMessage) :
    (outgoing messages).length ≤ messages.length := List.length_filter_le ..

/-- **A packet that waited is delivered as one that did not**, with the time that was spent on it. -/
theorem decode_patched {packet : FfiPacket} {messages : List FfiControlMessage}
    (hpayload : packet.payload.length < 2 ^ 32) (hcount : messages.length ≤ 65535)
    (hmessages : ∀ message ∈ messages, message.payload.length < 2 ^ 32) (d delay : UInt64) :
    (patchDelay (encodePending packet messages d) delay).bind decodePending =
      .ok (sendUpstreamNow packet messages delay) := by
  have hfits : (sendUpstreamNow packet messages delay).Fits := {
    payload := hpayload
    count := Nat.lt_succ_of_le ((outgoing_length_le messages).trans hcount)
    messages := fun message hmessage => hmessages message (List.mem_of_mem_filter hmessage) }
  unfold encodePending
  rw [patchDelay_pendingBytes]
  exact decodePending_pendingBytes hfits

/-- The data is that of a call of `encode_pending` exactly if it has no header of this layer. -/
theorem encodePending_eq_iff {data : Bytes} {p : Pending} (h : decodePending data = .ok p) :
    encodePending p.packet p.messages p.processingDelayMicroseconds = data ↔
      ∀ message ∈ p.messages, message.msgType ≠ controlCommEffectHeader := by
  obtain ⟨hfits, rfl⟩ := decodePending_eq_ok h
  unfold encodePending
  constructor
  · intro heq
    have houtgoing : outgoing p.messages = p.messages := by
      -- both deliveries can be read back from the same data
      have hread : decodePending (pendingBytes ⟨p.packet, outgoing p.messages,
          p.processingDelayMicroseconds⟩) = .ok ⟨p.packet, outgoing p.messages,
          p.processingDelayMicroseconds⟩ := decodePending_pendingBytes {
        payload := hfits.payload
        count := (outgoing_length_le p.messages).trans_lt hfits.count
        messages := fun message hmessage => hfits.messages message (List.mem_of_mem_filter hmessage) }
      rw [heq, h] at hread
      exact congrArg Pending.messages (Except.ok.inj hread).symm
    intro message hmessage
    rw [← houtgoing] at hmessage
    simpa using List.of_mem_filter hmessage
  · intro hall
    have houtgoing : outgoing p.messages = p.messages := by
      unfold outgoing
      rw [List.filter_eq_self]
      simpa using hall
    rw [houtgoing]

/-- **Delayed deliveries.** A packet that waited is delivered as one that did not, with the delay that
was patched in. Whatever is in the data of a timer, reading it stays inside of it, and what is accepted
is the data of what it returns, written by `encode_pending` if no header of this layer is in it. -/
theorem delayed_delivery :
    (∀ (packet : FfiPacket) (messages : List FfiControlMessage) (d delay : UInt64),
      packet.payload.length < 2 ^ 32 → messages.length ≤ 65535 →
      (∀ message ∈ messages, message.payload.length < 2 ^ 32) →
      (patchDelay (encodePending packet messages d) delay).bind decodePending =
        .ok (sendUpstreamNow packet messages delay)) ∧
    (∀ data : Bytes, decodePending data ≠ .error .panicked) ∧
    ∀ (data : Bytes) (p : Pending), decodePending data = .ok p →
      data = pendingBytes p ∧
      (encodePending p.packet p.messages p.processingDelayMicroseconds = data ↔
        ∀ message ∈ p.messages, message.msgType ≠ controlCommEffectHeader) := by
  refine ⟨?_, decodePending_ne_panicked, ?_⟩
  · intro packet messages d delay hpayload hcount hmessages
    exact decode_patched hpayload hcount hmessages d delay
  · intro data p h
    exact ⟨(decodePending_eq_ok h).2, encodePending_eq_iff h⟩

/-- A packet with a header of this layer between two controls of others waits for 5 microseconds. -/
example :
    let packet : FfiPacket := ⟨⟨⟨2, 1, 0⟩, 1, 2⟩, [1, 2, 3]⟩
    (patchDelay (encodePending packet [⟨7, [4]⟩, ⟨controlCommEffectHeader, [5, 6]⟩, ⟨8, []⟩] 0)
        5).bind decodePending = .ok ⟨packet, [⟨7, [4]⟩, ⟨8, []⟩], 5⟩ :=
  rfl

/-- Data with a header of this layer is accepted, but `encode_pending` never writes one. -/
theorem decode_accepts_header :
    ∃ data p, decodePending data = .ok p ∧
      encodePending p.packet p.messages p.processingDelayMicroseconds ≠ data := by
  refine ⟨pendingBytes ⟨⟨⟨⟨2, 1, 0⟩, 1, 2⟩, [1, 2, 3]⟩, [⟨controlCommEffectHeader, [7]⟩], 0⟩, _,
    decodePending_pendingBytes ⟨by decide, by decide, ?_⟩, by decide +kernel⟩
  intro message hmessage
  rw [List.mem_singleton.mp hmessage]
  change 1 < 2 ^ 32
  decide

end Emane.CommEffect
