import Mathlib
import Emane.Lib.Bytes
import Emane.Lib.Cutting
import Emane.PluginApi.Properties
import Emane.Tdma.Schedule

set_option autoImplicit false

/-! # The transmit side of the TDMA layer

`downstream` numbers a packet and puts it into one of five queues; `takeTransmission` takes a packet,
or as much of it as fits, for a transmit slot; `transmitSlot` puts such components into a frame.

The components of a packet are its cuts in the sense of `Emane.Lib.Cutting` (`cutting`). A sender's
whole run keeps the invariant of that library (`Sender.run_inv`) as long as the 64-bit packet numbers
do not wrap around.
-/

namespace Emane.Tdma

open Emane.Lib
open Emane.PluginApi (F64 FfiPacketInfo ModelHeader)

/-! ## Packets and state -/

/-- The packet information the layer uses. -/
structure OwnedPacket where
  info : FfiPacketInfo
  payload : Bytes
  deriving DecidableEq

/-- `own_packet`: a payload of more than 64 MiB is refused. -/
def ownPacket (info : FfiPacketInfo) (payload : Bytes) : Option OwnedPacket :=
  if payload.length > 64 * 2 ^ 20 then none else some { info, payload }

structure QueuedPacket where
  packet : OwnedPacket
  sequence : UInt64
  offset : ℕ
  fragmentIndex : ℕ
  deriving DecidableEq

/-- The part of the layer's state that the transmit side uses. -/
@[ext]
structure State where
  queueDepth : ℕ
  flowControlEnable : Bool
  flowControlTokens : ℕ
  availableTokens : ℕ
  aggregationEnable : Bool
  fragmentationEnable : Bool
  strictDequeue : Bool
  schedule : Option ValidSchedule
  sequence : UInt64
  frameSequence : UInt64
  queues : Fin 5 → List QueuedPacket

/-- The number of queued packets. -/
def State.queued (state : State) : ℕ := ∑ index, (state.queues index).length

/-- `priority_to_queue` -/
def priorityToQueue (priority : UInt8) : Fin 5 :=
  if 8 ≤ priority ∧ priority ≤ 23 then 1
  else if 32 ≤ priority ∧ priority ≤ 47 then 2
  else if 48 ≤ priority ∧ priority ≤ 63 then 3
  else 0

/-- Why a packet is not accepted. -/
inductive RefusalReason
  | flowControl
  | queueOverflow
  deriving DecidableEq

/-- A packet leaves the queues and gives its token back; the 16-bit addition saturates. -/
def State.returnToken (state : State) : State :=
  if state.flowControlEnable then
    { state with
      availableTokens := min (min (state.availableTokens + 1) (2 ^ 16 - 1)) state.flowControlTokens }
  else
    state

/-- The entry at `position` leaves queue `index`. -/
def State.removeAt (state : State) (index : Fin 5) (position : ℕ) : State :=
  { state with
    queues := Function.update state.queues index ((state.queues index).eraseIdx position) }

/-! ## Downstream -/

/-- The packet a full queue drops: the first one of which no fragment was sent, else the first. -/
def dropPosition (queue : List QueuedPacket) : ℕ :=
  (queue.findIdx? fun queued => queued.fragmentIndex == 0).getD 0

/-- A full queue drops a packet. -/
def makeRoom (state : State) (index : Fin 5) : State × List QueuedPacket :=
  if state.queueDepth ≤ (state.queues index).length then
    let position := dropPosition (state.queues index)
    ((state.removeAt index position).returnToken, ((state.queues index)[position]?).toList)
  else
    (state, [])

/-- The new packet takes a token and the next number, and joins queue `index`. -/
def pushBack (state : State) (index : Fin 5) (packet : OwnedPacket) : State :=
  { state with
    availableTokens :=
      if state.flowControlEnable then state.availableTokens - 1 else state.availableTokens
    sequence := state.sequence + 1
    queues := Function.update state.queues index
      (state.queues index ++
        [{ packet, sequence := state.sequence + 1, offset := 0, fragmentIndex := 0 }]) }

/-- What `downstream` does: the state, the number of the packet if it was queued or why it was refused,
and the packets recorded as overflow. -/
structure DownstreamResult where
  state : State
  sequence : Except RefusalReason UInt64
  dropped : List QueuedPacket

/-- `downstream` -/
def downstream (state : State) (packet : OwnedPacket) : DownstreamResult :=
  if state.flowControlEnable ∧ state.availableTokens = 0 then
    ⟨state, .error .flowControl, []⟩
  else if state.queueDepth = 0 then
    ⟨state, .error .queueOverflow, []⟩
  else
    let index := priorityToQueue packet.info.priority
    let (room, dropped) := makeRoom state index
    ⟨pushBack room index packet, .ok (room.sequence + 1), dropped⟩

/-! ## Taking components -/

/-- A slot without destination takes every packet, one with a destination its packets. -/
def serves (destination : UInt16) (queued : QueuedPacket) : Bool :=
  destination == 0 || queued.packet.info.destination == destination

/-- `queue_index` -/
def queueIndex (state : State) (requested : ℕ) (destination : UInt16) : Option (Fin 5) :=
  let eligible := fun index => (state.queues index).any (serves destination)
  let requested : Fin 5 := Fin.ofNat 5 (min requested 4)
  if eligible requested then some requested
  else if state.strictDequeue then none
  else [4, 3, 2, 1, 0].find? eligible

/-- The part of a transmission that says what is sent of a packet. -/
structure Component where
  info : FfiPacketInfo
  bytes : Bytes
  sequence : UInt64
  offset : ℕ
  fragmentIndex : ℕ
  more : Bool
  deriving DecidableEq

structure Transmission extends Component where
  frequency : ℕ
  rate : ℕ
  category : ℕ
  power : F64
  bandwidth : ℕ
  txTime : ℤ

/-- The next `take` bytes of a queued packet. -/
def QueuedPacket.component (front : QueuedPacket) (take : ℕ) : Component where
  info := front.packet.info
  bytes := front.packet.payload.extract front.offset (front.offset + take)
  sequence := front.sequence
  offset := front.offset
  fragmentIndex := front.fragmentIndex
  more := decide (front.offset + take < front.packet.payload.length)

/-- The entry after its next `take` bytes were taken; the 16-bit index saturates. -/
def QueuedPacket.advance (front : QueuedPacket) (take : ℕ) : QueuedPacket :=
  { front with
    offset := front.offset + take
    fragmentIndex := min (front.fragmentIndex + 1) (2 ^ 16 - 1) }

/-- The state after `take` bytes were taken from the entry `front` at `position`. -/
def State.takeFrom (state : State) (index : Fin 5) (position : ℕ) (front : QueuedPacket) (take : ℕ) :
    State :=
  if front.offset + take < front.packet.payload.length then
    { state with
      queues := Function.update state.queues index
        ((state.queues index).set position (front.advance take)) }
  else
    (state.removeAt index position).returnToken

/-- What `take_transmission` does: the state, the transmission and the packets dropped as too big. -/
structure TakeResult where
  state : State
  transmission : Option Transmission
  dropped : List QueuedPacket

theorem State.queued_removeAt {state : State} {index : Fin 5} {position : ℕ}
    (h : position < (state.queues index).length) :
    (state.removeAt index position).queued < state.queued := by
  unfold queued removeAt
  refine Finset.sum_lt_sum (fun i _ => ?_) ⟨index, Finset.mem_univ _, ?_⟩
  · by_cases hi : i = index
    · subst hi
      simp only [Function.update_self]
      exact (List.eraseIdx_sublist ..).length_le
    · simp [Function.update_of_ne hi]
  · simp only [Function.update_self, List.length_eraseIdx, if_pos h]
    omega

@[simp] theorem State.returnToken_queues (state : State) :
    state.returnToken.queues = state.queues := by
  unfold returnToken
  split <;> rfl

@[simp] theorem State.returnToken_sequence (state : State) :
    state.returnToken.sequence = state.sequence := by
  unfold returnToken
  split <;> rfl

@[simp] theorem State.returnToken_fragmentationEnable (state : State) :
    state.returnToken.fragmentationEnable = state.fragmentationEnable := by
  unfold returnToken
  split <;> rfl

@[simp] theorem State.queued_returnToken (state : State) :
    state.returnToken.queued = state.queued := by
  unfold queued
  rw [returnToken_queues]

/-- `take_transmission`: a packet that does not fit into an empty frame is dropped if it must not be
fragmented, and the next one is tried. -/
def takeTransmission (state : State) (absoluteSlot used : ℕ) : TakeResult :=
  match state.schedule with
  | none => ⟨state, none, []⟩
  | some schedule =>
      match schedule.slot absoluteSlot with
      | .rx _ => ⟨state, none, []⟩
      | .idle => ⟨state, none, []⟩
      | .tx frequencyHz dataRateBps serviceClass powerDbm destination =>
          match queueIndex state serviceClass destination with
          | none => ⟨state, none, []⟩
          | some index =>
              let available := schedule.capacity dataRateBps - used
              if available = 0 then ⟨state, none, []⟩
              else
                let position := (state.queues index).findIdx (serves destination)
                if h : position < (state.queues index).length then
                  let front := (state.queues index).get ⟨position, h⟩
                  let remaining := front.packet.payload.length - front.offset
                  if remaining > available ∧ state.fragmentationEnable = false then
                    if used ≠ 0 then ⟨state, none, []⟩
                    else
                      let r := takeTransmission (state.removeAt index position).returnToken
                        absoluteSlot used
                      ⟨r.state, r.transmission, front :: r.dropped⟩
                  else
                    let take := min remaining available
                    ⟨state.takeFrom index position front take,
                      some {
                        toComponent := front.component take
                        frequency := frequencyHz, rate := dataRateBps, category := serviceClass
                        power := powerDbm, bandwidth := schedule.bandwidthHz
                        txTime := schedule.slotStart absoluteSlot },
                      []⟩
                else ⟨state, none, []⟩
termination_by state.queued
decreasing_by
  rw [State.queued_returnToken]
  exact State.queued_removeAt h

/-- Entries leave the queues and give their tokens back. -/
inductive Drops : State → State → Prop
  | refl (state : State) : Drops state state
  | step {state after : State} (index : Fin 5) (position : ℕ) :
      position < (state.queues index).length →
      Drops (state.removeAt index position).returnToken after → Drops state after

/-- Bytes are taken from an entry: there is something to take, or the packet is empty. -/
def Takes (state after : State) (component : Component) : Prop :=
  ∃ index position front take, (state.queues index)[position]? = some front ∧
    (0 < take ∨ front.packet.payload.length ≤ front.offset) ∧
    take ≤ front.packet.payload.length - front.offset ∧
    after = state.takeFrom index position front take ∧ component = front.component take

/-- **What `take_transmission` can do**: it drops packets, and then takes from an entry or not. -/
theorem takeTransmission_spec (state : State) (absoluteSlot used : ℕ) :
    ∃ mid, Drops state mid ∧
      ((takeTransmission state absoluteSlot used).transmission = none →
        (takeTransmission state absoluteSlot used).state = mid) ∧
      ∀ item, (takeTransmission state absoluteSlot used).transmission = some item →
        Takes mid (takeTransmission state absoluteSlot used).state item.toComponent := by
  have hnone : ∀ state : State, ∃ mid, Drops state mid ∧
      ((⟨state, none, []⟩ : TakeResult).transmission = none →
        (⟨state, none, []⟩ : TakeResult).state = mid) ∧
      ∀ item, (⟨state, none, []⟩ : TakeResult).transmission = some item →
        Takes mid (⟨state, none, []⟩ : TakeResult).state item.toComponent :=
    fun state => ⟨state, .refl state, fun _ => rfl, by simp⟩
  fun_induction takeTransmission state absoluteSlot used with
  | case1 => exact hnone _
  | case2 => exact hnone _
  | case3 => exact hnone _
  | case4 => exact hnone _
  | case5 => exact hnone _
  | case6 => exact hnone _
  | case7 state schedule _ _ _ _ _ _ _ index _ available _ position h front remaining _ _ r ih =>
      -- a packet is dropped and the next one is tried
      obtain ⟨mid, hdrops, hspec⟩ := ih
      exact ⟨mid, .step index position h hdrops, hspec⟩
  | case8 state schedule _ _ _ _ _ _ _ index _ available havailable position h front remaining _ take =>
      refine ⟨state, .refl state, by simp, ?_⟩
      intro item hitem
      rw [← Option.some.inj hitem]
      refine ⟨index, position, front, take, List.getElem?_eq_getElem h, ?_, Nat.min_le_left _ _, rfl,
        rfl⟩
      omega
  | case9 => exact hnone _

theorem Drops.queued_le {state after : State} (h : Drops state after) :
    after.queued ≤ state.queued := by
  induction h with
  | refl state => exact le_rfl
  | step index position hlt _ ih =>
      rw [State.queued_returnToken] at ih
      exact ih.trans (State.queued_removeAt hlt).le

/-- A packet of which nothing is left leaves the queues. -/
theorem Takes.queued_lt {state after : State} {component : Component}
    (h : Takes state after component) (hmore : component.more = false) :
    after.queued < state.queued := by
  obtain ⟨index, position, front, take, hfront, -, -, rfl, rfl⟩ := h
  have hnot : ¬ front.offset + take < front.packet.payload.length := of_decide_eq_false hmore
  rw [State.takeFrom, if_neg hnot, State.queued_returnToken]
  exact State.queued_removeAt (List.getElem?_eq_some_iff.mp hfront).1

theorem takeTransmission_queued_lt {state : State} {absoluteSlot used : ℕ} {item : Transmission}
    (hitem : (takeTransmission state absoluteSlot used).transmission = some item)
    (hmore : item.more = false) :
    (takeTransmission state absoluteSlot used).state.queued < state.queued := by
  obtain ⟨mid, hdrops, -, htakes⟩ := takeTransmission_spec state absoluteSlot used
  exact ((htakes item hitem).queued_lt hmore).trans_le hdrops.queued_le

/-! ## Filling a slot -/

/-- What the loop of `transmit_slot` does: the state, the transmissions and the packets dropped as too
big. -/
structure FillResult where
  state : State
  items : List Transmission
  dropped : List QueuedPacket

/-- The loop of `transmit_slot` when `used` bytes are used. The comparison of the filled share with the
aggregation threshold is floating point; `reaches used capacity` is its result. -/
def fillSlot (reaches : ℕ → ℕ → Bool) (absoluteSlot capacity used : ℕ) (state : State) : FillResult :=
  match _h : (takeTransmission state absoluteSlot used).transmission with
  | none => ⟨(takeTransmission state absoluteSlot used).state, [],
      (takeTransmission state absoluteSlot used).dropped⟩
  | some item =>
      let used' := used + item.bytes.length
      if _hstop : ¬ state.aggregationEnable ∨ item.more ∨ used' ≥ capacity ∨ reaches used' capacity then
        ⟨(takeTransmission state absoluteSlot used).state, [item],
          (takeTransmission state absoluteSlot used).dropped⟩
      else
        let r := fillSlot reaches absoluteSlot capacity used'
          (takeTransmission state absoluteSlot used).state
        ⟨r.state, item :: r.items, (takeTransmission state absoluteSlot used).dropped ++ r.dropped⟩
termination_by state.queued
decreasing_by
  refine takeTransmission_queued_lt _h ?_
  simpa using (not_or.mp (not_or.mp _hstop).2).1

/-! ## Frames -/

structure TdmaFragment where
  more : Bool
  index : ℕ
  offset : ℕ
  sequence : UInt64
  deriving DecidableEq

structure TdmaMessage where
  messageType : ℤ
  destination : ℕ
  priority : ℕ
  data : Bytes
  fragment : Option TdmaFragment
  deriving DecidableEq

structure TdmaBaseModelMessage where
  absoluteSlotIndex : ℕ
  dataRateBps : ℕ
  messages : List TdmaMessage
  deriving DecidableEq

/-- The length of a number in the wire format. -/
def varintLen (n : ℕ) : ℕ := max 1 ((Nat.size n + 6) / 7)

/-- The length of a field of `n` bytes with its tag and length. -/
def fieldLen (n : ℕ) : ℕ := 1 + varintLen n + n

/-- `TdmaFragment::encoded_len` -/
def TdmaFragment.encodedLen (fragment : TdmaFragment) : ℕ :=
  2 + (1 + varintLen fragment.index) + (1 + varintLen fragment.offset) +
    (1 + varintLen fragment.sequence.toNat)

/-- `TdmaMessage::encoded_len`; the type is one of two small numbers. -/
def TdmaMessage.encodedLen (message : TdmaMessage) : ℕ :=
  2 + (1 + varintLen message.destination) + (1 + varintLen message.priority) +
    fieldLen message.data.length + (message.fragment.map fun f => fieldLen f.encodedLen).getD 0

/-- The length of a message in the wire format. -/
def TdmaBaseModelMessage.encodedLen (message : TdmaBaseModelMessage) : ℕ :=
  (1 + varintLen message.absoluteSlotIndex) + (1 + varintLen message.dataRateBps) +
    (message.messages.map fun m => fieldLen m.encodedLen).sum

/-- A component as `transmit_slot` puts it on the wire; the 32-bit offset saturates. -/
def wireMessage (component : Component) : TdmaMessage where
  messageType := 1
  destination := component.info.destination.toNat
  priority := component.info.priority.toNat
  data := component.bytes
  fragment :=
    if component.offset ≠ 0 ∨ component.more then
      some {
        more := component.more
        index := component.fragmentIndex
        offset := if component.offset < 2 ^ 32 then component.offset else 2 ^ 32 - 1
        sequence := component.sequence }
    else none

/-- A frame handed to the layer below: its components, with what the receiver is told about it. -/
structure Frame where
  absoluteSlot : ℕ
  rate : ℕ
  components : List Component
  destination : UInt16
  priority : UInt8
  category : ℕ
  frameSequence : UInt64
  deriving DecidableEq

/-- `MAC_REGISTRATION_TDMA` -/
def macRegistrationTdma : UInt16 := 5

/-- The header that goes down with a frame. -/
def Frame.header (frame : Frame) : ModelHeader where
  registrationId := macRegistrationTdma
  sequence := frame.frameSequence
  dataRateBps := UInt64.ofNat frame.rate
  category := UInt8.ofNat frame.category
  messageType := 1
  flags := 0

/-- The message of a frame. -/
def Frame.wire (frame : Frame) : TdmaBaseModelMessage where
  absoluteSlotIndex := frame.absoluteSlot
  dataRateBps := frame.rate
  messages := frame.components.map wireMessage

/-- The destination of a frame: that of all its components, or everyone. -/
def frameDestination (items : List Transmission) : UInt16 :=
  match items.map fun item => item.info.destination with
  | [] => 65535
  | first :: rest => rest.foldl (fun left right => if left = right then left else 65535) first

/-- What `transmit_slot` does: the state, the components it took, the frame if one was sent, and the
packets dropped as too big. -/
structure TransmitResult where
  state : State
  taken : List Component
  frame : Option Frame
  dropped : List QueuedPacket

/-- `transmit_slot`; `encodedLen` is the length of the serialized message. -/
def transmitSlot (encodedLen : TdmaBaseModelMessage → ℕ) (reaches : ℕ → ℕ → Bool) (state : State)
    (absoluteSlot : ℕ) (now : ℤ) : TransmitResult :=
  match state.schedule with
  | none => ⟨state, [], none, []⟩
  | some schedule =>
      if schedule.absoluteSlot now ≠ absoluteSlot then ⟨state, [], none, []⟩
      else
        match schedule.slot absoluteSlot with
        | .rx _ => ⟨state, [], none, []⟩
        | .idle => ⟨state, [], none, []⟩
        | .tx _ dataRateBps _ _ _ =>
            let r := fillSlot reaches absoluteSlot (schedule.capacity dataRateBps) 0 state
            match r.items with
            | [] => ⟨r.state, [], none, r.dropped⟩
            | first :: rest =>
                let frame : Frame := {
                  absoluteSlot := absoluteSlot
                  rate := first.rate
                  components := (first :: rest).map Transmission.toComponent
                  destination := frameDestination (first :: rest)
                  priority := first.info.priority
                  category := first.category
                  frameSequence := r.state.frameSequence }
                let state := { r.state with frameSequence := r.state.frameSequence + 1 }
                -- a message that does not fit the 16-bit length field is not sent
                if encodedLen frame.wire < 65536 then
                  ⟨state, frame.components, some frame, r.dropped⟩
                else
                  ⟨state, frame.components, none, r.dropped⟩

/-! ## The sender -/

structure Config where
  queueDepth : ℕ
  flowControlEnable : Bool
  flowControlTokens : ℕ
  aggregationEnable : Bool
  fragmentationEnable : Bool
  strictDequeue : Bool

/-- What happens at a sender: a packet passes `own_packet` and goes downstream, a schedule is
installed, or a slot is due. -/
inductive Op
  | downstream (info : FfiPacketInfo) (payload : Bytes)
  | schedule (schedule : ValidSchedule)
  | transmit (absoluteSlot : ℕ) (now : ℤ)

/-- A sender with its history: the numbered packets, the components taken from the queues, the frames
handed to the layer below and the packets recorded as dropped. -/
structure Sender where
  state : State
  numbered : List (UInt64 × OwnedPacket)
  taken : List Component
  frames : List Frame
  dropped : List QueuedPacket

/-- A sender that was started with `config`. -/
def Sender.fresh (config : Config) : Sender where
  state := {
    queueDepth := config.queueDepth
    flowControlEnable := config.flowControlEnable
    flowControlTokens := config.flowControlTokens
    availableTokens := config.flowControlTokens
    aggregationEnable := config.aggregationEnable
    fragmentationEnable := config.fragmentationEnable
    strictDequeue := config.strictDequeue
    schedule := none
    sequence := 0
    frameSequence := 0
    queues := fun _ => [] }
  numbered := []
  taken := []
  frames := []
  dropped := []

section

variable (encodedLen : TdmaBaseModelMessage → ℕ) (reaches : ℕ → ℕ → Bool)

def Sender.step (s : Sender) : Op → Sender
  | .downstream info payload =>
      match ownPacket info payload with
      | none => s
      | some packet =>
          let r := Tdma.downstream s.state packet
          { s with
            state := r.state
            numbered := s.numbered ++ (r.sequence.toOption.map fun n => (n, packet)).toList
            dropped := s.dropped ++ r.dropped }
  | .schedule schedule => { s with state := { s.state with schedule := some schedule } }
  | .transmit absoluteSlot now =>
      let r := transmitSlot encodedLen reaches s.state absoluteSlot now
      { s with
        state := r.state
        taken := s.taken ++ r.taken
        frames := s.frames ++ r.frame.toList
        dropped := s.dropped ++ r.dropped }

def Sender.run (s : Sender) (ops : List Op) : Sender :=
  ops.foldl (Sender.step encodedLen reaches) s

end

/-! ## The invariant of a sender's run -/

/-- The components are the cuts of the packets. -/
def cutting : Cutting UInt64 OwnedPacket Component Bytes UInt8 where
  bytes packet := packet.payload
  piece sequence packet offset index size := {
    info := packet.info
    bytes := packet.payload.extract offset (offset + size)
    sequence := sequence
    offset := offset
    fragmentIndex := index
    more := decide (offset + size < packet.payload.length) }
  clip n := min n (2 ^ 16 - 1)
  owner := Component.sequence
  place component := (component.offset, component.bytes)
  data := id
  owner_piece _ _ _ _ _ := rfl
  place_piece _ _ _ _ _ := rfl
  data_piece _ _ _ _ _ := rfl

def QueuedPacket.entry (queued : QueuedPacket) : Cutting.Entry UInt64 OwnedPacket where
  key := queued.sequence
  item := queued.packet
  offset := queued.offset
  index := queued.fragmentIndex

/-- The entry that stays has the index of the next component. -/
theorem QueuedPacket.entry_advance (front : QueuedPacket) (take : ℕ) {n : ℕ}
    (h : front.fragmentIndex = cutting.clip n) :
    (front.advance take).entry =
      ⟨front.sequence, front.packet, front.offset + take, cutting.clip (n + 1)⟩ := by
  have hindex : min (front.fragmentIndex + 1) (2 ^ 16 - 1) = min (n + 1) (2 ^ 16 - 1) := by
    rw [h]
    simp only [cutting]
    omega
  unfold advance entry
  simp only [hindex, cutting]

section

variable {numbered : List (UInt64 × OwnedPacket)} {taken : List Component} {state after : State}

theorem Drops.inv (h : Drops state after)
    (hinv : cutting.Inv QueuedPacket.entry state.queues numbered taken) :
    cutting.Inv QueuedPacket.entry after.queues numbered taken ∧ after.sequence = state.sequence := by
  induction h with
  | refl state => exact ⟨hinv, rfl⟩
  | @step state after index position hlt _ ih =>
      rw [State.returnToken_queues, State.returnToken_sequence] at ih
      exact ih (hinv.drop (List.eraseIdx_sublist ..))

theorem Takes.inv {component : Component} (h : Takes state after component)
    (hinv : cutting.Inv QueuedPacket.entry state.queues numbered taken) :
    cutting.Inv QueuedPacket.entry after.queues numbered (taken ++ [component]) ∧
      after.sequence = state.sequence := by
  obtain ⟨index, position, front, take, hfront, hsize, hle, rfl, rfl⟩ := h
  obtain ⟨hlt, hget⟩ := List.getElem?_eq_some_iff.mp hfront
  have hqueue : state.queues index = (state.queues index).take position ++
      front :: (state.queues index).drop (position + 1) := by
    rw [← hget, List.getElem_cons_drop, List.take_append_drop]
  have hpending := hinv.pending index front (List.mem_of_getElem? hfront)
  have hoffset : front.offset ≤ front.packet.payload.length := hpending.cut.offset_le
  have hempty : 0 < take ∨ cutting.bytes front.entry.item = [] :=
    hsize.imp_right hpending.bytes_eq_nil
  have hbound : front.offset + take ≤ front.packet.payload.length := by omega
  unfold State.takeFrom
  split
  · next hmore =>
      -- the entry stays and continues after the component
      rw [List.set_eq_take_append_cons_drop, if_pos hlt, List.append_cons]
      refine ⟨hinv.cut hqueue hempty hbound le_rfl ?_, rfl⟩
      intro t ht
      rw [List.mem_singleton.mp ht]
      exact ⟨hmore, front.entry_advance take hpending.index⟩
  · -- the packet leaves the queue
    rw [State.returnToken_queues, State.returnToken_sequence, State.removeAt,
      List.eraseIdx_eq_take_drop_succ, ← List.append_nil ((state.queues index).take position)]
    exact ⟨hinv.cut hqueue hempty hbound (by simp) (by simp), rfl⟩

theorem takeTransmission_inv (absoluteSlot used : ℕ)
    (hinv : cutting.Inv QueuedPacket.entry state.queues numbered taken) :
    cutting.Inv QueuedPacket.entry (takeTransmission state absoluteSlot used).state.queues numbered
        (taken ++ ((takeTransmission state absoluteSlot used).transmission.map
          Transmission.toComponent).toList) ∧
      (takeTransmission state absoluteSlot used).state.sequence = state.sequence := by
  obtain ⟨mid, hdrops, hnone, hsome⟩ := takeTransmission_spec state absoluteSlot used
  obtain ⟨hmid, hsequence⟩ := hdrops.inv hinv
  cases htransmission : (takeTransmission state absoluteSlot used).transmission with
  | none =>
      rw [hnone htransmission]
      exact ⟨by simpa using hmid, hsequence⟩
  | some item =>
      obtain ⟨hafter, heq⟩ := (hsome item htransmission).inv hmid
      exact ⟨hafter, heq.trans hsequence⟩

theorem fillSlot_inv (reaches : ℕ → ℕ → Bool) (absoluteSlot capacity used : ℕ) (state : State)
    (taken : List Component) (hinv : cutting.Inv QueuedPacket.entry state.queues numbered taken) :
    cutting.Inv QueuedPacket.entry (fillSlot reaches absoluteSlot capacity used state).state.queues
        numbered (taken ++ (fillSlot reaches absoluteSlot capacity used state).items.map
          Transmission.toComponent) ∧
      (fillSlot reaches absoluteSlot capacity used state).state.sequence = state.sequence := by
  fun_induction fillSlot reaches absoluteSlot capacity used state generalizing taken with
  | case1 used state hnone =>
      have htake := takeTransmission_inv absoluteSlot used hinv
      rw [hnone] at htake
      exact htake
  | case2 used state item hitem used' hstop =>
      have htake := takeTransmission_inv absoluteSlot used hinv
      rw [hitem] at htake
      exact htake
  | case3 used state item hitem used' hstop r ih =>
      have htake := takeTransmission_inv absoluteSlot used hinv
      rw [hitem] at htake
      obtain ⟨hrest, hsequence⟩ := ih _ htake.1
      rw [List.append_assoc] at hrest
      exact ⟨hrest, hsequence.trans htake.2⟩

/-- `transmit_slot` takes cuts of queued packets, and what it sends is what it took. -/
theorem transmitSlot_inv (encodedLen : TdmaBaseModelMessage → ℕ) (reaches : ℕ → ℕ → Bool)
    (absoluteSlot : ℕ) (now : ℤ)
    (hinv : cutting.Inv QueuedPacket.entry state.queues numbered taken) :
    let r := transmitSlot encodedLen reaches state absoluteSlot now
    cutting.Inv QueuedPacket.entry r.state.queues numbered (taken ++ r.taken) ∧
      r.state.sequence = state.sequence ∧ ∀ frame ∈ r.frame, frame.components = r.taken := by
  have hidle : cutting.Inv QueuedPacket.entry state.queues numbered (taken ++ []) ∧
      state.sequence = state.sequence ∧ ∀ frame ∈ (none : Option Frame), frame.components = [] :=
    ⟨by simpa using hinv, rfl, by simp⟩
  unfold transmitSlot
  split
  · exact hidle
  split
  · exact hidle
  split
  · exact hidle
  · exact hidle
  next schedule _ _ _ _ dataRateBps _ _ _ _ =>
  obtain ⟨hfill, hsequence⟩ :=
    fillSlot_inv reaches absoluteSlot (schedule.capacity dataRateBps) 0 state taken hinv
  dsimp only
  split
  · next hitems =>
      rw [hitems] at hfill
      exact ⟨hfill, hsequence, by simp⟩
  · next first rest hitems =>
      rw [hitems] at hfill
      split
      · exact ⟨hfill, hsequence, by simp⟩
      · exact ⟨hfill, hsequence, by simp⟩

end

theorem dropPosition_lt {queue : List QueuedPacket} (h : 0 < queue.length) :
    dropPosition queue < queue.length := by
  unfold dropPosition
  cases hfind : queue.findIdx? fun queued => queued.fragmentIndex == 0 with
  | none => exact h
  | some i => exact (List.findIdx?_eq_some_iff_getElem.mp hfind).1

/-- What `downstream` can do: nothing, or number the packet and put it at the end of its queue, from
which a packet may have been dropped. -/
theorem downstream_cases (state : State) (packet : OwnedPacket) :
    ((downstream state packet).state = state ∧ (downstream state packet).sequence.toOption = none) ∨
    ∃ mid, Drops state mid ∧ mid.sequence = state.sequence ∧
      (downstream state packet).state = pushBack mid (priorityToQueue packet.info.priority) packet ∧
      (downstream state packet).sequence.toOption = some (state.sequence + 1) := by
  unfold downstream
  split
  · exact Or.inl ⟨rfl, rfl⟩
  split
  · exact Or.inl ⟨rfl, rfl⟩
  next hdepth =>
  refine Or.inr ?_
  dsimp only
  unfold makeRoom
  split
  · next hfull =>
      have hlt := dropPosition_lt (lt_of_lt_of_le (Nat.pos_of_ne_zero hdepth) hfull)
      refine ⟨_, .step _ _ hlt (.refl _), State.returnToken_sequence _, rfl, ?_⟩
      rw [State.returnToken_sequence]
      rfl
  · exact ⟨state, .refl state, rfl, rfl, rfl⟩

/-- The invariant of a sender's run. -/
structure Sender.Inv (s : Sender) : Prop where
  numbers : s.numbered.map Prod.fst =
    (List.range s.numbered.length).map fun n => UInt64.ofNat (n + 1)
  next : s.state.sequence = UInt64.ofNat s.numbered.length
  small : ∀ e ∈ s.numbered, e.2.payload.length ≤ 64 * 2 ^ 20
  cut : cutting.Inv QueuedPacket.entry s.state.queues s.numbered s.taken
  sent : (s.frames.flatMap Frame.components).Sublist s.taken

namespace Sender

variable {encodedLen : TdmaBaseModelMessage → ℕ} {reaches : ℕ → ℕ → Bool}

theorem fresh_inv (config : Config) : (fresh config).Inv where
  numbers := rfl
  next := rfl
  small := by simp [fresh]
  cut := Cutting.Inv.empty
  sent := List.Sublist.refl _

/-- The next number is new as long as the numbers have not wrapped around. -/
theorem Inv.next_notMem {s : Sender} (h : s.Inv) (hlen : s.numbered.length < 2 ^ 64) :
    s.state.sequence + 1 ∉ s.numbered.map Prod.fst := by
  rw [h.numbers, h.next, List.mem_map]
  rintro ⟨n, hn, heq⟩
  rw [List.mem_range] at hn
  have hnext : UInt64.ofNat s.numbered.length + 1 = UInt64.ofNat (s.numbered.length + 1) :=
    (UInt64.ofNat_add _ _).symm
  have htoNat := congrArg UInt64.toNat (heq.trans hnext)
  rw [UInt64.toNat_ofNat', UInt64.toNat_ofNat'] at htoNat
  omega

/-- A packet that goes downstream keeps the invariant. -/
theorem Inv.downstream {s : Sender} (h : s.Inv) {packet : OwnedPacket}
    (hsmall : packet.payload.length ≤ 64 * 2 ^ 20) (dropped : List QueuedPacket)
    (hlen : (s.numbered ++ ((Tdma.downstream s.state packet).sequence.toOption.map
      fun n => (n, packet)).toList).length ≤ 2 ^ 64) :
    Inv { s with
      state := (Tdma.downstream s.state packet).state
      numbered := s.numbered ++
        ((Tdma.downstream s.state packet).sequence.toOption.map fun n => (n, packet)).toList
      dropped := dropped } := by
  rcases downstream_cases s.state packet with ⟨hstate, hseq⟩ | ⟨mid, hdrops, hmid, hstate, hseq⟩
  · rw [hstate, hseq]
    simp only [Option.map_none, Option.toList_none, List.append_nil]
    exact ⟨h.numbers, h.next, h.small, h.cut, h.sent⟩
  rw [hseq] at hlen
  rw [hstate, hseq]
  have hnew := h.next_notMem (by simpa using hlen)
  obtain ⟨hcut, -⟩ := hdrops.inv h.cut
  constructor
  · simp only [Option.map_some, Option.toList_some, List.map_append, List.length_append,
      List.length_singleton, List.range_succ, h.numbers, h.next, List.map_cons, List.map_nil,
      UInt64.ofNat_add]
    rfl
  · simp only [pushBack, hmid, h.next, Option.map_some, Option.toList_some, List.length_append,
      List.length_singleton]
    exact (UInt64.ofNat_add _ _).symm
  · intro e he
    rcases List.mem_append.mp he with he | he
    · exact h.small e he
    · rw [Option.map_some, Option.toList_some, List.mem_singleton] at he
      rw [he]
      exact hsmall
  · simp only [pushBack, hmid]
    exact hcut.add hnew rfl
  · exact h.sent

theorem length_numbered_le (s : Sender) (op : Op) :
    s.numbered.length ≤ (s.step encodedLen reaches op).numbered.length := by
  cases op with
  | downstream info payload =>
      rw [step]
      split
      · exact le_rfl
      · simp
  | schedule schedule => exact le_rfl
  | transmit absoluteSlot now => exact le_rfl

/-- **One step keeps the invariant** as long as the numbers have not wrapped around. -/
theorem step_inv {s : Sender} (h : s.Inv) (op : Op)
    (hlen : (s.step encodedLen reaches op).numbered.length ≤ 2 ^ 64) :
    (s.step encodedLen reaches op).Inv := by
  cases op with
  | downstream info payload =>
      rw [step] at hlen ⊢
      split at hlen
      · exact h
      next packet hpacket =>
      have hsmall : packet.payload.length ≤ 64 * 2 ^ 20 := by
        unfold ownPacket at hpacket
        split at hpacket
        · cases hpacket
        · next hle =>
            cases hpacket
            exact Nat.not_lt.mp hle
      exact h.downstream hsmall _ hlen
  | schedule schedule => exact ⟨h.numbers, h.next, h.small, h.cut, h.sent⟩
  | transmit absoluteSlot now =>
      obtain ⟨hcut, hsequence, hframe⟩ :=
        transmitSlot_inv encodedLen reaches absoluteSlot now h.cut
      refine ⟨h.numbers, hsequence.trans h.next, h.small, hcut, ?_⟩
      change ((s.frames ++ (transmitSlot encodedLen reaches s.state absoluteSlot now).frame.toList).flatMap
        Frame.components).Sublist _
      rw [List.flatMap_append]
      refine h.sent.append ?_
      cases hsent : (transmitSlot encodedLen reaches s.state absoluteSlot now).frame with
      | none => exact List.nil_sublist _
      | some frame =>
          rw [Option.toList_some, List.flatMap_singleton, hframe frame hsent]

theorem length_numbered_le_run (ops : List Op) (s : Sender) :
    s.numbered.length ≤ (s.run encodedLen reaches ops).numbered.length := by
  induction ops generalizing s with
  | nil => exact le_rfl
  | cons op ops ih => exact (s.length_numbered_le op).trans (ih (s.step encodedLen reaches op))

/-- **A whole run keeps the invariant**, if it numbers at most `2 ^ 64` packets. -/
theorem run_inv (ops : List Op) {s : Sender} (h : s.Inv)
    (hlen : (s.run encodedLen reaches ops).numbered.length ≤ 2 ^ 64) :
    (s.run encodedLen reaches ops).Inv := by
  induction ops generalizing s with
  | nil => exact h
  | cons op ops ih =>
      refine ih (step_inv h op ?_) hlen
      exact (length_numbered_le_run ops (s.step encodedLen reaches op)).trans hlen

end Sender

/-! ## A sender with slots for one byte -/

/-- A schedule of transmit slots for one byte each. -/
def byteSchedule : ValidSchedule where
  slotsPerFrame := 1
  framesPerMultiframe := 1
  slotDurationUs := 10
  overheadUs := 2
  bandwidthHz := 1
  slots := [.tx 1 1000000 0 ⟨0⟩ 0]
  wellFormed := ⟨rfl, by decide, by decide, by simp [Schedule.SlotOk]⟩

/-- Fragments are sent one by one, and each queue has room for one packet. -/
def byteConfig : Config where
  queueDepth := 1
  flowControlEnable := false
  flowControlTokens := 10
  aggregationEnable := false
  fragmentationEnable := true
  strictDequeue := false

/-- The sender's run over `ops`. -/
def byteRun (ops : List Op) : Sender :=
  (Sender.fresh byteConfig).run TdmaBaseModelMessage.encodedLen (fun _ _ => false) ops

/-- The frame with the byte of `payload` at `offset`. -/
def byteFrame (slot : ℕ) (destination : UInt16) (payload : Bytes) (sequence : UInt64) (offset : ℕ)
    (frameSequence : UInt64) : Frame where
  absoluteSlot := slot
  rate := 1000000
  components := [cutting.piece sequence ⟨⟨1, destination, 0⟩, payload⟩ offset offset 1]
  destination := destination
  priority := 0
  category := 0
  frameSequence := frameSequence

/-- A packet of two bytes for `destination` is sent in the slots 0 and 1. -/
def twoBytes (destination : UInt16) : List Op :=
  [.schedule byteSchedule, .downstream ⟨1, destination, 0⟩ [1, 2], .transmit 0 0, .transmit 1 10]

end Emane.Tdma
