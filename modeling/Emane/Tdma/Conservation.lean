import Mathlib
import Emane.Lib.Accounting
import Emane.Tdma.Transmit

set_option autoImplicit false

/-! # Conservation of bytes on the transmit side

Every byte of an accepted packet is queued, in a frame, or was dropped with the rest of its packet.
What is taken from the queues is conserved in every run (`Sender.run_balanced`). What is taken is also sent,
unless the message of a slot is too long for the 16-bit length field: then it is gone
(`long_frame_vanishes`).
-/

namespace Emane.Tdma

open Emane.Lib
open Emane.PluginApi (FfiPacketInfo)

/-! ## Bytes -/

/-- A byte of a packet: the packet's number and information, the position and the value. -/
structure PacketByte where
  sequence : UInt64
  info : FfiPacketInfo
  position : ℕ
  value : UInt8
  deriving DecidableEq

/-- The bytes of a packet from `offset` on, which are `bytes`. -/
def packetBytes (sequence : UInt64) (info : FfiPacketInfo) : ℕ → Bytes → Multiset PacketByte
  | _, [] => 0
  | offset, value :: rest =>
      {⟨sequence, info, offset, value⟩} + packetBytes sequence info (offset + 1) rest

/-- All bytes of a packet. -/
def OwnedPacket.bytes (packet : OwnedPacket) (sequence : UInt64) : Multiset PacketByte :=
  packetBytes sequence packet.info 0 packet.payload

/-- The bytes that a component carries. -/
def Component.carries (component : Component) : Multiset PacketByte :=
  packetBytes component.sequence component.info component.offset component.bytes

/-- The bytes of a queued packet that were not taken yet. -/
def QueuedPacket.rest (queued : QueuedPacket) : Multiset PacketByte :=
  packetBytes queued.sequence queued.packet.info queued.offset (queued.packet.payload.drop queued.offset)

/-- All bytes of a packet that was queued. -/
def QueuedPacket.whole (queued : QueuedPacket) : Multiset PacketByte :=
  queued.packet.bytes queued.sequence

section

variable {sequence : UInt64} {info : FfiPacketInfo}

theorem packetBytes_append (offset : ℕ) (left right : Bytes) :
    packetBytes sequence info offset (left ++ right) =
      packetBytes sequence info offset left +
        packetBytes sequence info (offset + left.length) right := by
  induction left generalizing offset with
  | nil => simp [packetBytes]
  | cons value left ih =>
      have hoffset : offset + 1 + left.length = offset + (left.length + 1) := by omega
      rw [List.cons_append, packetBytes, packetBytes, ih, List.length_cons, hoffset, add_assoc]

theorem card_packetBytes (offset : ℕ) (bytes : Bytes) :
    (packetBytes sequence info offset bytes).card = bytes.length := by
  induction bytes generalizing offset with
  | nil => rfl
  | cons value bytes ih =>
      rw [packetBytes, Multiset.card_add, Multiset.card_singleton, ih, List.length_cons, Nat.add_comm]

/-- **A component carries the next bytes of its entry**, and the rest stays. -/
theorem QueuedPacket.rest_eq (front : QueuedPacket) {take : ℕ}
    (h : take ≤ front.packet.payload.length - front.offset) :
    front.rest = (front.component take).carries + (front.advance take).rest := by
  have hlength : ((front.packet.payload.drop front.offset).take take).length = take := by
    rw [List.length_take, List.length_drop]
    omega
  unfold rest Component.carries component advance
  dsimp only
  rw [← List.take_append_drop take (front.packet.payload.drop front.offset), packetBytes_append,
    hlength, List.drop_drop, List.extract_eq_take_drop, Nat.add_sub_cancel_left]

theorem QueuedPacket.rest_eq_zero {queued : QueuedPacket}
    (h : queued.packet.payload.length ≤ queued.offset) : queued.rest = 0 := by
  rw [rest, List.drop_eq_nil_of_le h]
  rfl

/-- Nothing was taken from a packet yet. -/
theorem QueuedPacket.rest_eq_whole {queued : QueuedPacket} (h : queued.offset = 0) :
    queued.rest = queued.whole := by
  rw [rest, h]
  rfl

end

/-! ## Single operations -/

/-- The bytes in the queues. -/
def State.bytes (state : State) : Multiset PacketByte := account QueuedPacket.rest state.queues

/-- The bytes of components. -/
def carried (components : List Component) : Multiset PacketByte :=
  (components.map Component.carries).sum

/-- The bytes with which packets were dropped. -/
def lost (dropped : List QueuedPacket) : Multiset PacketByte := (dropped.map QueuedPacket.rest).sum

theorem carried_append (left right : List Component) :
    carried (left ++ right) = carried left + carried right := by
  simp [carried]

theorem lost_append (left right : List QueuedPacket) :
    lost (left ++ right) = lost left + lost right := by
  simp [lost]

section

variable {state : State}

theorem State.bytes_returnToken (state : State) : state.returnToken.bytes = state.bytes := by
  rw [bytes, returnToken_queues, bytes]

theorem State.bytes_removeAt {index : Fin 5} {position : ℕ} {queued : QueuedPacket}
    (h : (state.queues index)[position]? = some queued) :
    state.bytes = queued.rest + (state.removeAt index position).bytes :=
  account_erase h

/-- Taking from an entry moves bytes from the queues to the component. -/
theorem State.bytes_takeFrom {index : Fin 5} {position : ℕ} {front : QueuedPacket} {take : ℕ}
    (h : (state.queues index)[position]? = some front)
    (htake : take ≤ front.packet.payload.length - front.offset) :
    state.bytes = (front.component take).carries + (state.takeFrom index position front take).bytes := by
  have hrest := front.rest_eq htake
  unfold takeFrom
  split
  · exact account_set h hrest
  · next hlast =>
      rw [bytes_returnToken, bytes_removeAt h, hrest, QueuedPacket.rest_eq_zero (not_lt.mp hlast),
        add_zero]

/-- `take_transmission` keeps the bytes. -/
theorem takeTransmission_bytes (state : State) (absoluteSlot used : ℕ) :
    state.bytes = carried ((takeTransmission state absoluteSlot used).transmission.map
          Transmission.toComponent).toList +
        lost (takeTransmission state absoluteSlot used).dropped +
        (takeTransmission state absoluteSlot used).state.bytes := by
  have hnone : ∀ state : State, state.bytes = carried ((none : Option Transmission).map
      Transmission.toComponent).toList + lost [] + state.bytes := by
    simp [carried, lost]
  fun_induction takeTransmission state absoluteSlot used with
  | case1 => exact hnone _
  | case2 => exact hnone _
  | case3 => exact hnone _
  | case4 => exact hnone _
  | case5 => exact hnone _
  | case6 => exact hnone _
  | case7 state schedule _ _ _ _ _ _ _ index _ available _ position h front remaining _ _ r ih =>
      -- the entry is dropped with its rest
      rw [State.bytes_returnToken] at ih
      rw [State.bytes_removeAt (List.getElem?_eq_getElem h), ih]
      simp only [lost, List.map_cons, List.sum_cons]
      change front.rest + _ = _
      abel
  | case8 state schedule _ _ _ _ _ _ _ index _ available havailable position h front remaining _ take =>
      have htake : take ≤ front.packet.payload.length - front.offset := Nat.min_le_left _ _
      rw [State.bytes_takeFrom (List.getElem?_eq_getElem h) htake]
      simp [carried, lost]
      rfl
  | case9 => exact hnone _

/-- The loop of `transmit_slot` keeps the bytes. -/
theorem fillSlot_bytes (reaches : ℕ → ℕ → Bool) (absoluteSlot capacity used : ℕ) (state : State) :
    state.bytes = carried ((fillSlot reaches absoluteSlot capacity used state).items.map
          Transmission.toComponent) +
        lost (fillSlot reaches absoluteSlot capacity used state).dropped +
        (fillSlot reaches absoluteSlot capacity used state).state.bytes := by
  fun_induction fillSlot reaches absoluteSlot capacity used state with
  | case1 used state hnone =>
      have htake := takeTransmission_bytes state absoluteSlot used
      rwa [hnone] at htake
  | case2 used state item hitem used' hstop =>
      have htake := takeTransmission_bytes state absoluteSlot used
      rwa [hitem] at htake
  | case3 used state item hitem used' hstop r ih =>
      have htake := takeTransmission_bytes state absoluteSlot used
      rw [hitem, ih] at htake
      rw [htake, lost_append]
      simp only [carried, Option.map_some, Option.toList_some, List.map_cons, List.map_nil,
        List.sum_cons, List.sum_nil, add_zero]
      abel

/-- `transmit_slot` keeps the bytes: those it takes, those it drops and those that stay queued. -/
theorem transmitSlot_bytes (encodedLen : TdmaBaseModelMessage → ℕ) (reaches : ℕ → ℕ → Bool)
    (state : State) (absoluteSlot : ℕ) (now : ℤ) :
    let r := transmitSlot encodedLen reaches state absoluteSlot now
    state.bytes = carried r.taken + lost r.dropped + r.state.bytes := by
  have hidle : state.bytes = carried [] + lost [] + state.bytes := by simp [carried, lost]
  unfold transmitSlot
  split
  · exact hidle
  split
  · exact hidle
  split
  · exact hidle
  · exact hidle
  next schedule _ _ _ _ dataRateBps _ _ _ _ =>
  have hfill := fillSlot_bytes reaches absoluteSlot (schedule.capacity dataRateBps) 0 state
  dsimp only
  split
  · next hitems =>
      rw [hitems] at hfill
      exact hfill
  · next first rest hitems =>
      rw [hitems] at hfill
      split
      · exact hfill
      · exact hfill

/-- A packet that joins its queue brings its bytes. -/
theorem bytes_pushBack (state : State) (index : Fin 5) (packet : OwnedPacket) :
    (pushBack state index packet).bytes = state.bytes + packet.bytes (state.sequence + 1) :=
  account_push state.queues index _

/-- Making room keeps the bytes. -/
theorem makeRoom_bytes (state : State) (index : Fin 5) :
    state.bytes = lost (makeRoom state index).2 + (makeRoom state index).1.bytes := by
  unfold makeRoom
  split
  · dsimp only
    rw [State.bytes_returnToken]
    cases hentry : (state.queues index)[dropPosition (state.queues index)]? with
    | none =>
        have hge := List.getElem?_eq_none_iff.mp hentry
        rw [State.removeAt, List.eraseIdx_of_length_le hge, Function.update_eq_self]
        simp [lost]
    | some queued =>
        rw [State.bytes_removeAt hentry]
        simp [lost]
  · simp [lost]

/-- The bytes of a packet that was given a number. -/
def numberedBytes (numbered : List (UInt64 × OwnedPacket)) : Multiset PacketByte :=
  (numbered.map fun e => e.2.bytes e.1).sum

/-- `downstream` adds the bytes of the packet if it is accepted. -/
theorem downstream_bytes (state : State) (packet : OwnedPacket) :
    let r := downstream state packet
    state.bytes + numberedBytes (r.sequence.toOption.map fun n => (n, packet)).toList =
      lost r.dropped + r.state.bytes := by
  unfold downstream
  split
  · simp [numberedBytes, lost, Except.toOption]
  split
  · simp [numberedBytes, lost, Except.toOption]
  · dsimp only
    rw [bytes_pushBack, makeRoom_bytes state (priorityToQueue packet.info.priority)]
    simp only [numberedBytes, Except.toOption, Option.map_some, Option.toList_some, List.map_cons,
      List.map_nil, List.sum_cons, List.sum_nil, add_zero]
    abel

end

/-! ## Runs -/

/-- The bytes of the accepted packets. -/
def Sender.accepted (s : Sender) : Multiset PacketByte := numberedBytes s.numbered

/-- The bytes in the frames that were handed to the layer below. -/
def Sender.sent (s : Sender) : Multiset PacketByte := carried (s.frames.flatMap Frame.components)

/-- The bytes that belong to the packets recorded as dropped. -/
def Sender.ofDropped (s : Sender) : Multiset PacketByte := (s.dropped.map QueuedPacket.whole).sum

namespace Sender

variable {encodedLen : TdmaBaseModelMessage → ℕ} {reaches : ℕ → ℕ → Bool}

/-- What a sender has taken from the queues, dropped and still has is what it accepted. -/
def Balanced (s : Sender) : Prop := s.accepted = s.state.bytes + carried s.taken + lost s.dropped

theorem step_balanced {s : Sender} (h : s.Balanced) (op : Op) :
    (s.step encodedLen reaches op).Balanced := by
  unfold Balanced accepted at h ⊢
  cases op with
  | downstream info payload =>
      rw [step]
      split
      · exact h
      next packet _ =>
      have hbytes := downstream_bytes s.state packet
      dsimp only at hbytes ⊢
      rw [lost_append, numberedBytes, List.map_append, List.sum_append, ← numberedBytes, ← numberedBytes,
        h]
      calc s.state.bytes + carried s.taken + lost s.dropped + numberedBytes _
          = s.state.bytes + numberedBytes _ + carried s.taken + lost s.dropped := by abel
        _ = _ := by
            rw [hbytes]
            abel
  | schedule schedule => exact h
  | transmit absoluteSlot now =>
      have hbytes := transmitSlot_bytes encodedLen reaches s.state absoluteSlot now
      rw [step]
      dsimp only at hbytes ⊢
      rw [lost_append, carried_append, h, hbytes]
      abel

/-- **What is taken from the queues is conserved in every run.** -/
theorem run_balanced (ops : List Op) {s : Sender} (h : s.Balanced) :
    (s.run encodedLen reaches ops).Balanced := by
  induction ops generalizing s with
  | nil => exact h
  | cons op ops ih => exact ih (step_balanced h op)

theorem fresh_balanced (config : Config) : (fresh config).Balanced := by
  simp [Balanced, accepted, fresh, numberedBytes, carried, lost, State.bytes]

end Sender

/-! ## Messages that fit -/

/-- The message a slot would carry: what the queues yield for the slot, if it is due and a transmit
slot. -/
def slotMessage (reaches : ℕ → ℕ → Bool) (state : State) (absoluteSlot : ℕ) (now : ℤ) :
    Option TdmaBaseModelMessage :=
  match state.schedule with
  | none => none
  | some schedule =>
      if schedule.absoluteSlot now ≠ absoluteSlot then none
      else
        match schedule.slot absoluteSlot with
        | .rx _ => none
        | .idle => none
        | .tx _ dataRateBps _ _ _ =>
            let items := (fillSlot reaches absoluteSlot (schedule.capacity dataRateBps) 0 state).items
            items.head?.map fun first =>
              ⟨absoluteSlot, first.rate, (items.map Transmission.toComponent).map wireMessage⟩

/-- The operation does not build a message that is too long for the 16-bit length field. -/
def Op.Fits (encodedLen : TdmaBaseModelMessage → ℕ) (reaches : ℕ → ℕ → Bool) (state : State) :
    Op → Prop
  | .transmit absoluteSlot now =>
      ∀ message ∈ slotMessage reaches state absoluteSlot now, encodedLen message ≤ 65535
  | .downstream _ _ => True
  | .schedule _ => True

/-- A message that fits is sent with all that was taken. -/
theorem transmitSlot_sent {encodedLen : TdmaBaseModelMessage → ℕ} {reaches : ℕ → ℕ → Bool}
    {state : State} {absoluteSlot : ℕ} {now : ℤ}
    (hfits : ∀ message ∈ slotMessage reaches state absoluteSlot now, encodedLen message ≤ 65535) :
    (transmitSlot encodedLen reaches state absoluteSlot now).frame.toList.flatMap Frame.components =
      (transmitSlot encodedLen reaches state absoluteSlot now).taken := by
  unfold slotMessage at hfits
  unfold transmitSlot
  split
  · rfl
  next schedule hschedule =>
  rw [hschedule] at hfits
  dsimp only at hfits
  split
  · rfl
  next hdue =>
  rw [if_neg hdue] at hfits
  split
  · rfl
  · rfl
  next hslot =>
  rw [hslot] at hfits
  dsimp only at hfits ⊢
  split
  · rfl
  next first rest hitems =>
  rw [hitems] at hfits
  have hlen := hfits _ rfl
  split
  · simp
  · next hlong => exact absurd (Nat.lt_succ_of_le hlen) hlong

/-! ## Packets of which nothing was sent -/

/-- A packet with index 0 is queued from its start; others are there only with fragmentation. -/
def State.Cut (state : State) : Prop :=
  ∀ index, ∀ queued ∈ state.queues index,
    queued.offset = 0 ∨ queued.fragmentIndex ≠ 0 ∧ state.fragmentationEnable = true

/-- The operation does not drop a packet of which a fragment was sent: a full queue has a packet of
which none was sent. -/
def Op.Spares (state : State) : Op → Prop
  | .downstream info _ =>
      (state.queues (priorityToQueue info.priority)).length < state.queueDepth ∨
        ∃ queued ∈ state.queues (priorityToQueue info.priority), queued.fragmentIndex = 0
  | .transmit _ _ => True
  | .schedule _ => True

namespace State.Cut

variable {state : State}

theorem returnToken (h : state.Cut) : state.returnToken.Cut := by
  unfold Cut at h ⊢
  rw [returnToken_queues, returnToken_fragmentationEnable]
  exact h

/-- The entries of one queue are replaced by others that are cut. -/
theorem update (h : state.Cut) (index : Fin 5) {queue : List QueuedPacket}
    (hqueue : ∀ queued ∈ queue,
      queued.offset = 0 ∨ queued.fragmentIndex ≠ 0 ∧ state.fragmentationEnable = true) :
    Cut { state with queues := Function.update state.queues index queue } := by
  intro index' queued hqueued
  by_cases hindex : index' = index
  · subst hindex
    simp only [Function.update_self] at hqueued
    exact hqueue queued hqueued
  · simp only [Function.update_of_ne hindex] at hqueued
    exact h index' queued hqueued

theorem removeAt (h : state.Cut) (index : Fin 5) (position : ℕ) :
    (state.removeAt index position).Cut :=
  h.update index fun queued hqueued => h index queued (List.mem_of_mem_eraseIdx hqueued)

/-- With fragmentation, or if nothing stays, an entry can be taken from. -/
theorem takeFrom (h : state.Cut) {index : Fin 5} {position : ℕ} {front : QueuedPacket} {take : ℕ}
    (henable : front.offset + take < front.packet.payload.length → state.fragmentationEnable = true) :
    (state.takeFrom index position front take).Cut := by
  unfold State.takeFrom
  split
  · next hmore =>
      refine h.update index fun queued hqueued => ?_
      rcases List.mem_or_eq_of_mem_set hqueued with hqueued | rfl
      · exact h index queued hqueued
      · refine Or.inr ⟨?_, henable hmore⟩
        simp only [QueuedPacket.advance]
        omega
  · exact (h.removeAt index position).returnToken

end State.Cut

theorem takeTransmission_cut {state : State} (h : state.Cut) (absoluteSlot used : ℕ) :
    (takeTransmission state absoluteSlot used).state.Cut ∧
      ∀ queued ∈ (takeTransmission state absoluteSlot used).dropped, queued.offset = 0 := by
  have hnone : ∀ state : State, state.Cut →
      state.Cut ∧ ∀ queued ∈ ([] : List QueuedPacket), queued.offset = 0 := by
    simp
  fun_induction takeTransmission state absoluteSlot used with
  | case1 => exact hnone _ h
  | case2 => exact hnone _ h
  | case3 => exact hnone _ h
  | case4 => exact hnone _ h
  | case5 => exact hnone _ h
  | case6 => exact hnone _ h
  | case7 state schedule _ _ _ _ _ _ _ index _ available _ position hlt front remaining hbig _ r ih =>
      -- without fragmentation nothing of the dropped packet was sent
      obtain ⟨hcut, hdropped⟩ := ih (h.removeAt index position).returnToken
      refine ⟨hcut, fun queued hqueued => ?_⟩
      rcases List.mem_cons.mp hqueued with rfl | hqueued
      · refine (h index front (List.get_mem ..)).resolve_right ?_
        rintro ⟨-, henable⟩
        rw [hbig.2] at henable
        cases henable
      · exact hdropped queued hqueued
  | case8 state schedule _ _ _ _ _ _ _ index _ available _ position hlt front remaining hsmall take =>
      refine ⟨h.takeFrom fun hmore => ?_, by simp⟩
      have hmore' : front.offset + min remaining available < front.packet.payload.length := hmore
      have hbig : remaining > available := by
        simp only [remaining] at hmore' ⊢
        omega
      simpa using fun hdisabled => hsmall ⟨hbig, hdisabled⟩
  | case9 => exact hnone _ h

theorem fillSlot_cut (reaches : ℕ → ℕ → Bool) (absoluteSlot capacity used : ℕ) (state : State)
    (h : state.Cut) :
    (fillSlot reaches absoluteSlot capacity used state).state.Cut ∧
      ∀ queued ∈ (fillSlot reaches absoluteSlot capacity used state).dropped, queued.offset = 0 := by
  fun_induction fillSlot reaches absoluteSlot capacity used state with
  | case1 used state _ => exact takeTransmission_cut h absoluteSlot used
  | case2 used state _ _ _ _ => exact takeTransmission_cut h absoluteSlot used
  | case3 used state item hitem used' hstop r ih =>
      obtain ⟨hcut, hdropped⟩ := takeTransmission_cut h absoluteSlot used
      obtain ⟨hcut', hdropped'⟩ := ih hcut
      refine ⟨hcut', fun queued hqueued => ?_⟩
      rcases List.mem_append.mp hqueued with hqueued | hqueued
      · exact hdropped queued hqueued
      · exact hdropped' queued hqueued

theorem transmitSlot_cut (encodedLen : TdmaBaseModelMessage → ℕ) (reaches : ℕ → ℕ → Bool)
    {state : State} (h : state.Cut) (absoluteSlot : ℕ) (now : ℤ) :
    (transmitSlot encodedLen reaches state absoluteSlot now).state.Cut ∧
      ∀ queued ∈ (transmitSlot encodedLen reaches state absoluteSlot now).dropped,
        queued.offset = 0 := by
  have hidle : state.Cut ∧ ∀ queued ∈ ([] : List QueuedPacket), queued.offset = 0 := ⟨h, by simp⟩
  unfold transmitSlot
  split
  · exact hidle
  split
  · exact hidle
  split
  · exact hidle
  · exact hidle
  next schedule _ _ _ _ dataRateBps _ _ _ _ =>
  have hfill := fillSlot_cut reaches absoluteSlot (schedule.capacity dataRateBps) 0 state h
  dsimp only
  split
  · exact hfill
  · split
    · exact hfill
    · exact hfill

/-- A full queue drops a packet of which nothing was sent, if it has one. -/
theorem dropPosition_index {queue : List QueuedPacket}
    (h : ∃ queued ∈ queue, queued.fragmentIndex = 0) :
    ∀ queued ∈ queue[dropPosition queue]?, queued.fragmentIndex = 0 := by
  intro queued hqueued
  unfold dropPosition at hqueued
  cases hfind : queue.findIdx? fun queued => queued.fragmentIndex == 0 with
  | none =>
      obtain ⟨first, hfirst, hzero⟩ := h
      have hnot := List.findIdx?_eq_none_iff.mp hfind first hfirst
      simp [hzero] at hnot
  | some position =>
      rw [hfind, Option.getD_some] at hqueued
      obtain ⟨hlt, hzero, -⟩ := List.findIdx?_eq_some_iff_getElem.mp hfind
      rw [List.getElem?_eq_getElem hlt, Option.mem_some_iff] at hqueued
      rw [← hqueued]
      simpa using hzero

theorem makeRoom_cut {state : State} (h : state.Cut) (index : Fin 5) :
    (makeRoom state index).1.Cut ∧
      ((state.queues index).length < state.queueDepth ∨
          (∃ queued ∈ state.queues index, queued.fragmentIndex = 0) →
        ∀ queued ∈ (makeRoom state index).2, queued.offset = 0) := by
  unfold makeRoom
  split
  · next hfull =>
      refine ⟨(h.removeAt index _).returnToken, fun hspares queued hqueued => ?_⟩
      have hentry := Option.mem_toList.mp hqueued
      have hzero := dropPosition_index (hspares.resolve_left (by omega)) queued hentry
      exact (h index queued (List.mem_of_getElem? hentry)).resolve_right fun hne => hne.1 hzero
  · exact ⟨h, by simp⟩

theorem downstream_cut {state : State} (h : state.Cut) (info : FfiPacketInfo) (payload : Bytes) :
    (downstream state ⟨info, payload⟩).state.Cut ∧
      (Op.Spares state (.downstream info payload) →
        ∀ queued ∈ (downstream state ⟨info, payload⟩).dropped, queued.offset = 0) := by
  unfold downstream
  split
  · exact ⟨h, by simp⟩
  split
  · exact ⟨h, by simp⟩
  · obtain ⟨hroom, hdropped⟩ := makeRoom_cut h (priorityToQueue info.priority)
    refine ⟨?_, hdropped⟩
    refine State.Cut.update hroom _ fun queued hqueued => ?_
    rcases List.mem_append.mp hqueued with hqueued | hqueued
    · exact hroom _ queued hqueued
    · rw [List.mem_singleton.mp hqueued]
      exact Or.inl rfl

/-! ## Conservation -/

namespace Sender

section

variable (encodedLen : TdmaBaseModelMessage → ℕ) (reaches : ℕ → ℕ → Bool)

/-- Every step of a run meets a condition on the state before it. -/
def Always (condition : State → Op → Prop) : Sender → List Op → Prop
  | _, [] => True
  | s, op :: ops =>
      condition s.state op ∧ Always condition (s.step encodedLen reaches op) ops

end

variable {encodedLen : TdmaBaseModelMessage → ℕ} {reaches : ℕ → ℕ → Bool}

theorem step_sent {s : Sender} (h : s.frames.flatMap Frame.components = s.taken) {op : Op}
    (hfits : op.Fits encodedLen reaches s.state) :
    (s.step encodedLen reaches op).frames.flatMap Frame.components =
      (s.step encodedLen reaches op).taken := by
  cases op with
  | downstream info payload =>
      rw [step]
      split
      · exact h
      · exact h
  | schedule schedule => exact h
  | transmit absoluteSlot now =>
      rw [step]
      dsimp only
      rw [List.flatMap_append, h, transmitSlot_sent hfits]

/-- If every message fits, then all that is taken from the queues is sent. -/
theorem run_sent (ops : List Op) {s : Sender} (h : s.frames.flatMap Frame.components = s.taken)
    (hfits : Always encodedLen reaches (Op.Fits encodedLen reaches) s ops) :
    (s.run encodedLen reaches ops).frames.flatMap Frame.components =
      (s.run encodedLen reaches ops).taken := by
  induction ops generalizing s with
  | nil => exact h
  | cons op ops ih => exact ih (step_sent h hfits.1) hfits.2

/-- Nothing was sent of the packets that were dropped. -/
def DropsWhole (s : Sender) : Prop := s.state.Cut ∧ ∀ queued ∈ s.dropped, queued.offset = 0

theorem step_dropsWhole {s : Sender} (h : s.DropsWhole) {op : Op} (hspares : op.Spares s.state) :
    (s.step encodedLen reaches op).DropsWhole := by
  have happend : ∀ {state : State} {dropped : List QueuedPacket}, state.Cut →
      (∀ queued ∈ dropped, queued.offset = 0) →
      state.Cut ∧ ∀ queued ∈ s.dropped ++ dropped, queued.offset = 0 := by
    intro state dropped hcut hdropped
    exact ⟨hcut, List.forall_mem_append.mpr ⟨h.2, hdropped⟩⟩
  cases op with
  | downstream info payload =>
      rw [step]
      split
      · exact h
      next packet hpacket =>
      obtain rfl : packet = ⟨info, payload⟩ := by
        unfold ownPacket at hpacket
        split at hpacket
        · cases hpacket
        · exact (Option.some.inj hpacket).symm
      obtain ⟨hcut, hdropped⟩ := downstream_cut h.1 info payload
      exact happend hcut (hdropped hspares)
  | schedule schedule => exact h
  | transmit absoluteSlot now =>
      obtain ⟨hcut, hdropped⟩ := transmitSlot_cut encodedLen reaches h.1 absoluteSlot now
      exact happend hcut hdropped

theorem run_dropsWhole (ops : List Op) {s : Sender} (h : s.DropsWhole)
    (hspares : Always encodedLen reaches Op.Spares s ops) :
    (s.run encodedLen reaches ops).DropsWhole := by
  induction ops generalizing s with
  | nil => exact h
  | cons op ops ih => exact ih (step_dropsWhole h hspares.1) hspares.2

theorem DropsWhole.lost_eq {s : Sender} (h : s.DropsWhole) : lost s.dropped = s.ofDropped := by
  unfold lost ofDropped
  rw [List.map_congr_left fun queued hqueued => QueuedPacket.rest_eq_whole (h.2 queued hqueued)]

end Sender

/-- **Bytes are conserved as long as messages fit.** In every run in which no slot yields a message
that is too long for the 16-bit length field, the bytes of the accepted packets are, each once, the
bytes in the queues, those in frames handed to the layer below and those with which packets were
dropped. If moreover no packet is dropped of which a fragment was sent, then the last are all bytes
of the dropped packets. -/
theorem transmit_conserves (encodedLen : TdmaBaseModelMessage → ℕ) (reaches : ℕ → ℕ → Bool)
    (config : Config) (ops : List Op)
    (hfits : Sender.Always encodedLen reaches (Op.Fits encodedLen reaches) (Sender.fresh config) ops) :
    let s := (Sender.fresh config).run encodedLen reaches ops
    s.accepted = s.state.bytes + s.sent + lost s.dropped ∧
      (Sender.Always encodedLen reaches Op.Spares (Sender.fresh config) ops →
        s.accepted = s.state.bytes + s.sent + s.ofDropped) := by
  intro s
  have hsent : s.sent = carried s.taken := congrArg carried (Sender.run_sent ops rfl hfits)
  have hbalanced : s.Balanced := Sender.run_balanced ops (Sender.fresh_balanced config)
  have hpart : s.accepted = s.state.bytes + s.sent + lost s.dropped := by
    rw [hsent]
    exact hbalanced
  refine ⟨hpart, fun hspares => ?_⟩
  have hfresh : (Sender.fresh config).DropsWhole := by
    simp [Sender.DropsWhole, Sender.fresh, State.Cut]
  have hwhole : s.DropsWhole := Sender.run_dropsWhole ops hfresh hspares
  rw [hpart, hwhole.lost_eq]

/-- A packet of two bytes is sent in two slots. -/
theorem transmit_conserves_two :
    let s := byteRun (twoBytes 2)
    s.accepted = s.state.bytes + s.sent + s.ofDropped := by
  refine (transmit_conserves TdmaBaseModelMessage.encodedLen (fun _ _ => false) byteConfig
    (twoBytes 2) ⟨trivial, trivial, ?_, ?_, trivial⟩).2 ⟨trivial, Or.inl ?_, trivial, trivial, trivial⟩
  · unfold Op.Fits
    decide +kernel
  · unfold Op.Fits
    decide +kernel
  · decide

/-! ## Messages that are too long -/

/-- A schedule with one transmit slot of a second. -/
def secondSchedule : ValidSchedule where
  slotsPerFrame := 1
  framesPerMultiframe := 1
  slotDurationUs := 1000000
  overheadUs := 0
  bandwidthHz := 1
  slots := [.tx 1 1000000 0 ⟨0⟩ 0]
  wellFormed := ⟨rfl, by decide, by decide, by simp [Schedule.SlotOk]⟩

/-- The sender's state with one packet in its queue. -/
def oneQueued (payload : Bytes) : State :=
  { (Sender.fresh byteConfig).state with
    schedule := some secondSchedule
    sequence := 1
    queues := Function.update (fun _ => []) (priorityToQueue 0) [⟨⟨⟨1, 2, 0⟩, payload⟩, 1, 0, 0⟩] }

/-- The packet is taken as a whole if the slot has room for it. -/
theorem takeTransmission_oneQueued {payload : Bytes} (h : payload.length ≤ 125000) :
    (takeTransmission (oneQueued payload) 0 0).state.queues = (fun _ => []) ∧
      (takeTransmission (oneQueued payload) 0 0).dropped = [] ∧
      (takeTransmission (oneQueued payload) 0 0).transmission.map Transmission.toComponent =
        some ⟨⟨1, 2, 0⟩, payload, 1, 0, 0, false⟩ := by
  have hslot : secondSchedule.slot 0 = .tx 1 1000000 0 ⟨0⟩ 0 := rfl
  have hcapacity : secondSchedule.capacity 1000000 = 125000 := rfl
  have hroom : ¬ 125000 < payload.length := not_lt.mpr h
  have hindex : priorityToQueue 0 = 0 := rfl
  rw [takeTransmission]
  simp [oneQueued, hindex, hslot, hcapacity, hroom, h, State.takeFrom, State.removeAt, State.returnToken,
    serves, Sender.fresh, byteConfig, queueIndex, QueuedPacket.component]

theorem le_encodedLen (slot rate : ℕ) (component : Component) :
    component.bytes.length ≤
      TdmaBaseModelMessage.encodedLen ⟨slot, rate, [wireMessage component]⟩ := by
  simp only [TdmaBaseModelMessage.encodedLen, TdmaMessage.encodedLen, fieldLen, wireMessage,
    List.map_cons, List.map_nil, List.sum_cons, List.sum_nil]
  omega

/-- The packet is taken, but its frame is not sent. -/
theorem transmitSlot_oneQueued {payload : Bytes} (h : 65536 ≤ payload.length)
    (hle : payload.length ≤ 125000) :
    let r := transmitSlot TdmaBaseModelMessage.encodedLen (fun _ _ => false) (oneQueued payload) 0 0
    r.state.queues = (fun _ => []) ∧ r.frame = none ∧ r.dropped = [] := by
  obtain ⟨hqueues, hdropped, hcomponent⟩ := takeTransmission_oneQueued hle
  obtain ⟨item, hitem, hitem'⟩ := Option.map_eq_some_iff.mp hcomponent
  have hfill : fillSlot (fun _ _ => false) 0 125000 0 (oneQueued payload) =
      ⟨(takeTransmission (oneQueued payload) 0 0).state, [item], []⟩ := by
    rw [fillSlot]
    split
    · next hnone => rw [hitem] at hnone; cases hnone
    · next item' hitem'' =>
        rw [hitem] at hitem''
        cases hitem''
        rw [dif_pos (Or.inl (by simp [oneQueued, Sender.fresh, byteConfig])), hdropped]
  have hlong : ¬ TdmaBaseModelMessage.encodedLen ⟨0, item.rate, [wireMessage item.toComponent]⟩ < 65536 := by
    have hlength := le_encodedLen 0 item.rate item.toComponent
    rw [hitem'] at hlength ⊢
    exact not_lt.mpr (h.trans hlength)
  have hschedule : (oneQueued payload).schedule = some secondSchedule := rfl
  have hnow : secondSchedule.absoluteSlot 0 = 0 := rfl
  have hslot : secondSchedule.slot 0 = .tx 1 1000000 0 ⟨0⟩ 0 := rfl
  have hcapacity : secondSchedule.capacity 1000000 = 125000 := rfl
  simp [transmitSlot, hschedule, hnow, hslot, hcapacity, hfill, Frame.wire, hlong, hqueues]

/-- What the sender has after a long packet was due. -/
theorem longRun {payload : Bytes} (h : 65536 ≤ payload.length) (hle : payload.length ≤ 125000) :
    let s := byteRun [.schedule secondSchedule, .downstream ⟨1, 2, 0⟩ payload, .transmit 0 0]
    s.numbered = [(1, ⟨⟨1, 2, 0⟩, payload⟩)] ∧ s.state.queues = (fun _ => []) ∧ s.frames = [] ∧
      s.dropped = [] := by
  have hown : ownPacket ⟨1, 2, 0⟩ payload = some ⟨⟨1, 2, 0⟩, payload⟩ := if_neg (by omega)
  have hindex : priorityToQueue 0 = 0 := rfl
  have hqueued : downstream { (Sender.fresh byteConfig).state with schedule := some secondSchedule }
      ⟨⟨1, 2, 0⟩, payload⟩ = ⟨oneQueued payload, .ok 1, []⟩ := by
    simp [downstream, makeRoom, oneQueued, Sender.fresh, byteConfig, pushBack, hindex]
  obtain ⟨hqueues, hframe, hdropped⟩ := transmitSlot_oneQueued h hle
  simp only [byteRun, Sender.run, List.foldl_cons, List.foldl_nil, Sender.step, hown, hqueued, hqueues,
    hframe, hdropped]
  exact ⟨rfl, trivial, rfl, rfl⟩

/-- **The bytes of a message that is too long are gone**: they are neither queued nor sent, and no
packet was dropped. -/
theorem long_frame_vanishes :
    let s := byteRun [.schedule secondSchedule, .downstream ⟨1, 2, 0⟩ (List.replicate 65536 0),
      .transmit 0 0]
    s.accepted.card = 65536 ∧ s.state.bytes = 0 ∧ s.sent = 0 ∧ s.ofDropped = 0 := by
  intro s
  have hlength : (List.replicate 65536 (0 : UInt8)).length = 65536 := List.length_replicate
  obtain ⟨hnumbered, hqueues, hframes, hdropped⟩ := longRun hlength.ge (by rw [hlength]; decide)
  refine ⟨?_, ?_, ?_, ?_⟩
  · change (numberedBytes s.numbered).card = _
    rw [hnumbered, numberedBytes, List.map_singleton, List.sum_singleton, OwnedPacket.bytes,
      card_packetBytes, hlength]
  · change account QueuedPacket.rest s.state.queues = 0
    rw [hqueues, account_nil]
  · change carried (s.frames.flatMap Frame.components) = 0
    rw [hframes]
    rfl
  · change (s.dropped.map QueuedPacket.whole).sum = 0
    rw [hdropped]
    rfl
end Emane.Tdma
