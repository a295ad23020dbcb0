import Mathlib
import Emane.Lib.Cutting
import Emane.Ota.Receive

set_option autoImplicit false

/-! # Sending a message over the air

A message is three byte strings: events, controls and the packet. Its datagrams carry the strings,
one after the other, in pieces that fit the sender's MTU. `send_parts` says that the datagrams of a
call that succeeds are the wire forms of the successive pieces of the payload, and `readPart_wire` that
a receiver reads each piece back.

The encoder of headers and the socket's answer to a datagram are parameters.
-/

namespace Emane.Ota

open Emane.Lib

/-- The arguments of a call to send. -/
structure Message where
  source : UInt16
  destination : UInt16
  packet : Bytes
  controls : Bytes
  events : Bytes
  deriving Inhabited

namespace Message

/-- The bytes of the message in the order in which they are sent. -/
def payload (message : Message) : Bytes := message.events ++ message.controls ++ message.packet

/-- `total_payload_size` -/
def totalSize (message : Message) : ℕ :=
  message.events.length + message.controls.length + message.packet.length

theorem length_payload (message : Message) : message.payload.length = message.totalSize := by
  simp [payload, totalSize, Nat.add_assoc]

end Message

/-- What a call to send uses of the manager. -/
structure Sender where
  uuid : Uuid
  otaMtu : ℕ
  sequence : UInt64
  socket : Bool
  group : Bool
  deriving Inhabited

/-- The header of a message, with the sender's current sequence number. -/
def Sender.header (s : Sender) (message : Message) : OtaHeader where
  source := message.source.toUInt32
  destination := message.destination.toUInt32
  sequence := s.sequence
  uuid := s.uuid.1
  payloadInfo := some {
    eventLength := UInt32.ofNat message.events.length
    controlLength := UInt32.ofNat message.controls.length
    dataLength := UInt32.ofNat message.packet.length }

/-- The datagrams that were handed to the socket, and how the call ended: `refused` is `false`. -/
structure Sent where
  datagrams : List Bytes
  result : Except (Stop Unit) Unit

/-- A datagram under construction, and the range of the payload that it still lacks. -/
structure Building where
  message : Bytes
  pOffset : ℕ
  pSize : ℕ

/-- What a datagram takes from the string `source` that begins at offset `start` of the payload. -/
def Building.append (b : Building) (source : Bytes) (start : ℕ) : Except (Stop Unit) Building :=
  if start ≤ b.pOffset ∧ b.pOffset < start + source.length ∧ 0 < b.pSize then do
    let offsetIn := b.pOffset - start
    let take := min b.pSize (source.length - offsetIn)
    let bytes ← slice source offsetIn (offsetIn + take)
    .ok ⟨b.message ++ bytes, b.pOffset + take, b.pSize - take⟩
  else .ok b

/-- The length of a datagram without its payload. -/
def overhead (header : Bytes) : ℕ := 2 + header.length + partInfoSize

/-- The bytes of a datagram before its payload. -/
def preamble (header : Bytes) (more : Bool) (offset size : ℕ) : Bytes :=
  toBeBytes (UInt16.ofNat header.length) ++ header ++ [if more then 1 else 0] ++
    toBeBytes (UInt32.ofNat offset) ++ toBeBytes (UInt32.ofNat size)

/-- One datagram of a message. -/
def build (header : Bytes) (message : Message) (more : Bool) (sentBytes payloadSize : ℕ) :
    Except (Stop Unit) Bytes := do
  let b : Building := ⟨preamble header more sentBytes payloadSize, sentBytes, payloadSize⟩
  let b ← b.append message.events 0
  let b ← b.append message.controls message.events.length
  let b ← b.append message.packet (message.events.length + message.controls.length)
  .ok b.message

/-- More datagrams follow the one that begins at `sentBytes`. -/
def needsMore (header : Bytes) (mtu total sentBytes : ℕ) : Bool :=
  mtu ≠ 0 ∧ mtu < total - sentBytes + header.length + 2 + partInfoSize

/-- The size of the piece that begins at `sentBytes`. -/
def payloadSize (header : Bytes) (mtu total sentBytes : ℕ) : ℕ :=
  if needsMore header mtu total sentBytes then mtu - overhead header else total - sentBytes

/-- The loop over the datagrams of a message. -/
def sendParts (sendTo : Bytes → Bool) (header : Bytes) (mtu : ℕ) (message : Message)
    (sentBytes : ℕ) : Sent :=
  if _hmore : sentBytes < message.totalSize then
    let size := payloadSize header mtu message.totalSize sentBytes
    if _hsize : size = 0 ∨ 2 ^ 32 - 1 < size then ⟨[], .error (.refused ())⟩
    else
      match build header message (needsMore header mtu message.totalSize sentBytes) sentBytes size with
      | .error stop => ⟨[], .error stop⟩
      | .ok datagram =>
          if datagram.length ≠ overhead header + size then ⟨[], .error (.refused ())⟩
          else if ¬ sendTo datagram then ⟨[], .error (.refused ())⟩
          else
            let rest := sendParts sendTo header mtu message (sentBytes + size)
            ⟨datagram :: rest.datagrams, rest.result⟩
  else ⟨[], .ok ()⟩
termination_by message.totalSize - sentBytes
decreasing_by omega

/-- `emane_rs_ota_manager_send_ota_packet` -/
def send (encode : OtaHeader → Bytes) (sendTo : Bytes → Bool) (s : Sender) (message : Message) :
    Sender × Sent :=
  if 2 ^ 32 - 1 < message.packet.length ∨ 2 ^ 32 - 1 < message.controls.length ∨
      2 ^ 32 - 1 < message.events.length then (s, ⟨[], .error (.refused ())⟩)
  else if maxOtaPayload < message.totalSize then (s, ⟨[], .error (.refused ())⟩)
  else if ¬ s.socket then (s, ⟨[], .error (.refused ())⟩)
  else
    let s := { s with sequence := s.sequence + 1 }
    if ¬ s.group then (s, ⟨[], .error (.refused ())⟩)
    else
      let header := encode (s.header message)
      if 2 ^ 16 - 1 < header.length then (s, ⟨[], .error (.refused ())⟩)
      else if s.otaMtu ≠ 0 ∧ s.otaMtu ≤ overhead header ∧ message.totalSize ≠ 0 then
        (s, ⟨[], .error (.refused ())⟩)
      else (s, sendParts sendTo header s.otaMtu message 0)

/-! ## The payload of a datagram -/

/-- The datagram holds the payload from `sent` up to its offset, and everything up to `start` that it
has to hold. -/
structure Building.Holds (whole head : Bytes) (sent stop start : ℕ) (b : Building) : Prop where
  message : b.message = head ++ whole.extract sent b.pOffset
  end_eq : b.pOffset + b.pSize = stop
  sent_le : sent ≤ b.pOffset
  reached : min stop start ≤ b.pOffset

theorem extract_append_extract {whole : Bytes} {i j k : ℕ} (hij : i ≤ j) (hjk : j ≤ k) :
    whole.extract i j ++ whole.extract j k = whole.extract i k := by
  simp only [List.extract_eq_take_drop]
  have hdrop : whole.drop j = (whole.drop i).drop (j - i) := by
    rw [List.drop_drop, Nat.add_sub_cancel' hij]
  have hsum : k - i = j - i + (k - j) := by omega
  rw [hdrop, hsum, List.take_add]

/-- Each of the three strings adds what the datagram needs of it. -/
theorem Building.Holds.append {whole head : Bytes} {sent stop start : ℕ} {b : Building}
    (h : b.Holds whole head sent stop start) (before source after : Bytes)
    (hwhole : whole = before ++ source ++ after) (hlength : before.length = start) :
    ∃ b', b.append source start = .ok b' ∧ b'.Holds whole head sent stop (start + source.length) := by
  obtain ⟨hmessage, hend, hsent, hreached⟩ := h
  unfold Building.append
  split
  · next hcond =>
      obtain ⟨hstart, hinside, hpos⟩ := hcond
      dsimp only
      generalize htake : min b.pSize (source.length - (b.pOffset - start)) = take
      have hslice : (slice source (b.pOffset - start) (b.pOffset - start + take) :
          Except (Stop Unit) Bytes) =
          .ok (source.extract (b.pOffset - start) (b.pOffset - start + take)) := by
        unfold slice
        rw [if_neg (by omega)]
      have hbytes : source.extract (b.pOffset - start) (b.pOffset - start + take) =
          whole.extract b.pOffset (b.pOffset + take) := by
        have hstands := (standsAt_mid before source after).inside
          (standsAt_extract source (b.pOffset - start) (b.pOffset - start + take))
        have hextract := hstands.extract
        rw [List.extract_eq_take_drop, List.length_take, List.length_drop, ← hwhole, hlength,
          ← List.extract_eq_take_drop] at hextract
        rw [← hextract]
        congr 1 <;> omega
      rw [hslice, hbytes]
      refine ⟨_, rfl, ?_, ?_, by dsimp only; omega, by dsimp only; omega⟩
      · dsimp only
        rw [hmessage, List.append_assoc, extract_append_extract hsent (by omega)]
      · dsimp only
        omega
  · next hcond => exact ⟨b, rfl, hmessage, hend, hsent, by omega⟩

/-- **A datagram is its preamble and its piece of the payload.** -/
theorem build_eq (header : Bytes) (message : Message) (more : Bool) {sentBytes size : ℕ}
    (hfits : sentBytes + size ≤ message.totalSize) :
    build header message more sentBytes size =
      .ok (preamble header more sentBytes size ++
        message.payload.extract sentBytes (sentBytes + size)) := by
  have hinit : Building.Holds message.payload (preamble header more sentBytes size) sentBytes
      (sentBytes + size) 0 ⟨preamble header more sentBytes size, sentBytes, size⟩ :=
    ⟨by simp, rfl, le_rfl, by simp⟩
  obtain ⟨b₁, heq₁, h₁⟩ := hinit.append [] message.events (message.controls ++ message.packet)
    (by simp [Message.payload]) rfl
  rw [Nat.zero_add] at h₁
  obtain ⟨b₂, heq₂, h₂⟩ := h₁.append message.events message.controls message.packet rfl rfl
  obtain ⟨b₃, heq₃, h₃⟩ := h₂.append (message.events ++ message.controls) message.packet []
    (by simp [Message.payload]) List.length_append
  -- the three strings are the payload, so the datagram lacks nothing
  have hoffset : b₃.pOffset = sentBytes + size := by
    have hreached := h₃.reached
    have hend := h₃.end_eq
    have htotal : message.totalSize =
        message.events.length + message.controls.length + message.packet.length := rfl
    omega
  unfold build
  simp only [heq₁, heq₂, heq₃, bind, Except.bind]
  rw [h₃.message, hoffset]

/-! ## The pieces of a message -/

/-- A message and the state of its sender when it is sent. -/
structure Outgoing where
  sender : Sender
  message : Message
  deriving Inhabited

namespace Outgoing

/-- The key under which a receiver keeps the parts of the message. -/
def key (out : Outgoing) : PartKey := ⟨out.message.source, out.sender.sequence + 1⟩

/-- The header of the datagrams, for which the sequence number was counted up. -/
def header (out : Outgoing) : OtaHeader :=
  Sender.header { out.sender with sequence := out.sender.sequence + 1 } out.message

/-- What a receiver has to hand on. -/
def call (out : Outgoing) : Call where
  source := out.message.source
  destination := out.message.destination
  uuid := out.sender.uuid
  eventsSize := out.message.events.length
  controlsSize := out.message.controls.length
  dataSize := out.message.packet.length
  payload := out.message.payload

end Outgoing

/-- How the payload of a message is cut into parts. -/
def cutting : Cutting PartKey Outgoing Part Bytes UInt8 where
  bytes out := out.message.payload
  piece k out o _ s := {
    source := k.source
    destination := out.message.destination
    sequence := k.sequence
    uuid := out.sender.uuid
    eventsSize := out.message.events.length
    controlsSize := out.message.controls.length
    dataSize := out.message.packet.length
    more := o + s < out.message.totalSize
    offset := o
    bytes := out.message.payload.extract o (o + s) }
  clip _ := 0
  owner := Part.key
  place part := (part.offset, part.bytes)
  data := id
  owner_piece _ _ _ _ _ := rfl
  place_piece _ _ _ _ _ := rfl
  data_piece _ _ _ _ _ := rfl

/-- The datagram of a part. -/
def wire (header : Bytes) (part : Part) : Bytes :=
  preamble header part.more part.offset part.bytes.length ++ part.bytes

theorem length_preamble (header : Bytes) (more : Bool) (offset size : ℕ) :
    (preamble header more offset size).length = overhead header := by
  simp only [preamble, List.length_append, BigEndian.length_toBeBytes, width_uint16, width_uint32,
    List.length_singleton, overhead, partInfoSize]

/-- Where the fields of a datagram stand. -/
theorem standsAt_wire {data header : Bytes} {part : Part} (h : StandsAt data 0 (wire header part)) :
    StandsAt data 0 (toBeBytes (UInt16.ofNat header.length)) ∧ StandsAt data 2 header ∧
      StandsAt data (2 + header.length) [if part.more then 1 else 0] ∧
      StandsAt data (2 + header.length + 1) (toBeBytes (UInt32.ofNat part.offset)) ∧
      StandsAt data (2 + header.length + 5) (toBeBytes (UInt32.ofNat part.bytes.length)) ∧
      StandsAt data (2 + header.length + partInfoSize) part.bytes := by
  unfold wire preamble at h
  simp only [standsAt_append, List.length_append, BigEndian.length_toBeBytes, width_uint16,
    width_uint32, List.length_singleton, Nat.zero_add] at h
  obtain ⟨⟨⟨⟨⟨hlen, hheader⟩, hmore⟩, hoffset⟩, hsize⟩, hbytes⟩ := h
  exact ⟨hlen, hheader, hmore, hoffset, hsize, hbytes⟩

/-- The part info is read back. -/
theorem readPartInfo_eq {buf : Bytes} {o : ℕ} {info : PartInfo}
    (hmore : StandsAt buf o [info.more]) (hoffset : StandsAt buf (o + 1) (toBeBytes info.offset))
    (hsize : StandsAt buf (o + 5) (toBeBytes info.size)) : readPartInfo buf o = .ok info := by
  unfold readPartInfo
  rw [byteAt_eq_ok_iff.mpr hmore, numberAt_eq_ok_iff.mpr hoffset, numberAt_eq_ok_iff.mpr hsize]
  rfl

section

variable {encode : OtaHeader → Bytes} {decode : Bytes → Option OtaHeader} {uuid : Uuid} {out : Outgoing}

theorem toNat_ofNat_of_le_max {n : ℕ} (h : n ≤ maxOtaPayload) : (UInt32.ofNat n).toNat = n := by
  unfold maxOtaPayload at h
  rw [UInt32.toNat_ofNat']
  omega

/-- What stands behind the header is read back as the part it was made from. -/
theorem readBody_wire (huuid : out.sender.uuid ≠ uuid) (hmax : out.message.totalSize ≤ maxOtaPayload)
    {o n s : ℕ} (hfits : o + s ≤ out.message.totalSize) (header : Bytes) {part : Part}
    (hpart : part = cutting.piece out.key out o n s) :
    readBody uuid out.header (wire header part) (2 + header.length) = .ok part := by
  obtain ⟨-, -, hmore, hoffset, hsize, hpayload⟩ := standsAt_wire (standsAt_self (wire header part))
  have hlength : (wire header part).length = 2 + header.length + partInfoSize + part.bytes.length := by
    rw [wire, List.length_append, length_preamble, overhead]
  generalize wire header part = data at hmore hoffset hsize hpayload hlength
  have hbytes : part.bytes.length = s := by
    rw [hpart]
    change (out.message.payload.extract o (o + s)).length = s
    rw [List.extract_eq_take_drop, List.length_take, List.length_drop, out.message.length_payload]
    omega
  have hoffset' : part.offset = o := by rw [hpart]; rfl
  have hsizeNat := toNat_ofNat_of_le_max (n := part.bytes.length) (by omega)
  have hinfo : readPartInfo data (2 + header.length) =
      .ok ⟨if part.more then 1 else 0, UInt32.ofNat part.offset, UInt32.ofNat part.bytes.length⟩ :=
    readPartInfo_eq hmore hoffset hsize
  have hslice : (slice data (2 + header.length + partInfoSize)
      (2 + header.length + partInfoSize + part.bytes.length) : Except (Stop Reason) Bytes) =
      .ok part.bytes :=
    slice_eq_ok_iff.mpr ⟨by omega, by omega, hpayload, rfl⟩
  have hparse : parseUuid out.header.uuid = some out.sender.uuid := by
    unfold parseUuid
    exact dif_pos out.sender.uuid.2
  have hsource : ¬ (65535 < out.header.source.toNat ∨ 65535 < out.header.destination.toNat) := by
    have hs := out.message.source.toNat_lt
    have hd := out.message.destination.toNat_lt
    change ¬ (65535 < out.message.source.toNat ∨ 65535 < out.message.destination.toNat)
    omega
  have hflag : ¬ (1 : UInt8) < if part.more then 1 else 0 := by
    cases part.more <;> decide
  unfold readBody
  rw [if_neg hsource, hinfo]
  simp only [bind, Except.bind]
  rw [if_neg hflag, hparse]
  simp only
  rw [if_neg huuid, hsizeNat, if_neg (not_not.mpr hlength.symm), hslice]
  have htotal : out.message.totalSize =
      out.message.events.length + out.message.controls.length + out.message.packet.length := rfl
  refine congrArg Except.ok (Part.ext ?_ ?_ ?_ ?_ ?_ ?_ ?_ ?_ ?_ rfl)
  · rw [hpart]
    exact UInt16.toUInt16_toUInt32 _
  · rw [hpart]
    exact UInt16.toUInt16_toUInt32 _
  · rw [hpart]
    rfl
  · rw [hpart]
    rfl
  · rw [hpart]
    exact toNat_ofNat_of_le_max (by omega)
  · rw [hpart]
    exact toNat_ofNat_of_le_max (by omega)
  · rw [hpart]
    exact toNat_ofNat_of_le_max (by omega)
  · cases part.more <;> rfl
  · exact toNat_ofNat_of_le_max (by omega)

/-- **A receiver reads each part back from its datagram.** -/
theorem readPart_wire (hcodec : ∀ header, decode (encode header) = some header)
    (huuid : out.sender.uuid ≠ uuid) (hmax : out.message.totalSize ≤ maxOtaPayload)
    (hheader : (encode out.header).length < 2 ^ 16) {o n s : ℕ}
    (hfits : o + s ≤ out.message.totalSize) {part : Part}
    (hpart : part = cutting.piece out.key out o n s) :
    readPart decode uuid (wire (encode out.header) part) = .ok part := by
  have hbody := readBody_wire huuid hmax hfits (encode out.header) hpart
  obtain ⟨hlen, hbytes, -⟩ := standsAt_wire (standsAt_self (wire (encode out.header) part))
  have hlength : (wire (encode out.header) part).length =
      2 + (encode out.header).length + partInfoSize + part.bytes.length := by
    rw [wire, List.length_append, length_preamble, overhead]
  generalize wire (encode out.header) part = data at hbody hlen hbytes hlength
  have hnat : (UInt16.ofNat (encode out.header).length).toNat = (encode out.header).length := by
    rw [UInt16.toNat_ofNat']
    omega
  have hslice : (slice data 2 (2 + (encode out.header).length) : Except (Stop Reason) Bytes) =
      .ok (encode out.header) :=
    slice_eq_ok_iff.mpr ⟨by omega, by omega, hbytes, rfl⟩
  unfold readPart
  rw [if_neg (by omega), numberAt_eq_ok_iff.mpr hlen]
  simp only [bind, Except.bind]
  rw [hnat, if_neg (by omega), hslice]
  simp only
  rw [hcodec]
  exact hbody

/-! ## The datagrams of a call that succeeds -/

/-- The sizes of the pieces: a piece is followed by others exactly when it does not end the payload. -/
theorem payloadSize_fits (header : Bytes) (mtu : ℕ) {total sent : ℕ} (hsent : sent < total) :
    sent + payloadSize header mtu total sent ≤ total ∧
      needsMore header mtu total sent = decide (sent + payloadSize header mtu total sent < total) := by
  unfold payloadSize overhead at *
  cases hmore : needsMore header mtu total sent with
  | false => simp; omega
  | true =>
      unfold needsMore at hmore
      simp only [ne_eq, decide_eq_true_eq] at hmore
      simp only [if_true, eq_comm (a := true), decide_eq_true_eq]
      omega

/-- One round of the loop of a call that succeeds. -/
theorem sendParts_step {sendTo : Bytes → Bool} {header : Bytes} {mtu : ℕ} {message : Message} {sent : ℕ}
    (hsent : sent < message.totalSize)
    (hresult : (sendParts sendTo header mtu message sent).result = .ok ()) :
    let size := payloadSize header mtu message.totalSize sent
    let datagram := preamble header (sent + size < message.totalSize) sent size ++
      message.payload.extract sent (sent + size)
    0 < size ∧ sendTo datagram = true ∧
      (sendParts sendTo header mtu message (sent + size)).result = .ok () ∧
      (sendParts sendTo header mtu message sent).datagrams =
        datagram :: (sendParts sendTo header mtu message (sent + size)).datagrams := by
  intro size datagram
  obtain ⟨hfits, hmore⟩ := payloadSize_fits header mtu hsent
  have hbuild := build_eq header message (needsMore header mtu message.totalSize sent) hfits
  have heq := sendParts.eq_1 sendTo header mtu message sent
  rw [dif_pos hsent] at heq
  dsimp only at heq
  rw [hbuild, hmore] at heq
  rw [heq] at hresult ⊢
  split at hresult
  · cases hresult
  next hsize =>
  rw [dif_neg hsize]
  dsimp only at hresult ⊢
  split at hresult
  · cases hresult
  next hlength =>
  rw [if_neg hlength]
  split at hresult
  · cases hresult
  next hsendTo =>
  rw [if_neg hsendTo]
  exact ⟨by omega, not_not.mp hsendTo, hresult, rfl⟩

/-- **The loop sends the pieces that are left.** -/
theorem sendParts_cut (sendTo : Bytes → Bool) (header : Bytes) (sent : ℕ) (ps : List Part)
    (hcut : cutting.CutTo out.key out sent ps)
    (hresult : (sendParts sendTo header out.sender.otaMtu out.message sent).result = .ok ()) :
    ∃ qs, cutting.CutTo out.key out out.message.totalSize (ps ++ qs) ∧
      (sendParts sendTo header out.sender.otaMtu out.message sent).datagrams = qs.map (wire header) ∧
      ∀ q ∈ qs, sendTo (wire header q) = true := by
  have htotal : (cutting.bytes out).length = out.message.totalSize := out.message.length_payload
  induction hrest : out.message.totalSize - sent using Nat.strong_induction_on generalizing sent ps with
  | _ rest ih =>
      by_cases hsent : sent < out.message.totalSize
      · obtain ⟨hpos, hsendTo, hresult', hdatagrams⟩ := sendParts_step hsent hresult
        obtain ⟨hfits, -⟩ := payloadSize_fits header out.sender.otaMtu hsent
        generalize payloadSize header out.sender.otaMtu out.message.totalSize sent = size at *
        -- the datagram is that of the next piece
        have hwire : wire header (cutting.piece out.key out sent (cutting.clip ps.length) size) =
            preamble header (sent + size < out.message.totalSize) sent size ++
              out.message.payload.extract sent (sent + size) := by
          have hbytes : (out.message.payload.extract sent (sent + size)).length = size := by
            rw [List.extract_eq_take_drop, List.length_take, List.length_drop,
              out.message.length_payload]
            omega
          change preamble header _ sent (out.message.payload.extract sent (sent + size)).length ++ _ = _
          rw [hbytes]
          rfl
        have hcut' := hcut.cut size (Or.inl hpos) (htotal.symm ▸ hfits)
        obtain ⟨qs, hqs, hmap, hall⟩ := ih _ (by omega) (sent + size) _ hcut' hresult' rfl
        refine ⟨_ :: qs, by rwa [List.append_assoc] at hqs, ?_, ?_⟩
        · rw [hdatagrams, hmap, List.map_cons, hwire]
        · intro q hq
          rcases List.mem_cons.mp hq with rfl | hq
          · rw [hwire]
            exact hsendTo
          · exact hall q hq
      · have hend : sent = out.message.totalSize :=
          le_antisymm (htotal ▸ hcut.offset_le) (not_lt.mp hsent)
        refine ⟨[], ?_, ?_, by simp⟩
        · rw [List.append_nil, ← hend]
          exact hcut
        · rw [sendParts, dif_neg hsent]
          rfl

end

/-- What a call that succeeds has checked. -/
theorem send_ok {encode : OtaHeader → Bytes} {sendTo : Bytes → Bool} {out : Outgoing}
    (h : (send encode sendTo out.sender out.message).2.result = .ok ()) :
    out.message.totalSize ≤ maxOtaPayload ∧ (encode out.header).length < 2 ^ 16 ∧
      (send encode sendTo out.sender out.message).2 =
        sendParts sendTo (encode out.header) out.sender.otaMtu out.message 0 := by
  unfold send at h ⊢
  split at h
  · cases h
  next hlong =>
  split at h
  · cases h
  next hmax =>
  split at h
  · cases h
  next hsocket =>
  dsimp only at h
  split at h
  · cases h
  next hgroup =>
  split at h
  · cases h
  next hheader =>
  split at h
  · cases h
  next hmtu =>
  rw [if_neg hlong, if_neg hmax, if_neg hsocket]
  dsimp only
  rw [if_neg hgroup, if_neg hheader, if_neg hmtu]
  exact ⟨not_lt.mp hmax, Nat.lt_of_le_of_lt (not_lt.mp hheader) (by decide), rfl⟩

/-- **The datagrams of a call that succeeds are the pieces of the message**, and the socket took each of
them. -/
theorem send_parts {encode : OtaHeader → Bytes} {sendTo : Bytes → Bool} {out : Outgoing}
    (h : (send encode sendTo out.sender out.message).2.result = .ok ()) :
    ∃ ps, cutting.CutTo out.key out out.message.totalSize ps ∧
      (send encode sendTo out.sender out.message).2.datagrams = ps.map (wire (encode out.header)) ∧
      ∀ p ∈ ps, sendTo (wire (encode out.header) p) = true := by
  obtain ⟨-, -, heq⟩ := send_ok h
  rw [heq] at h ⊢
  exact sendParts_cut sendTo (encode out.header) 0 [] .start h

end Emane.Ota
