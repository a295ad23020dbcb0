import Mathlib
import Emane.Lib.Agenda
import Emane.BentPipe.Reassembly

set_option autoImplicit false

/-! # The BentPipe layer between its callbacks

`drive` decides whether a transponder transmits now and when it has to be woken next. It is called
for packets from above (`downstream`), for packets that are relayed (`upstream`), and from the
callback of a wakeup (`timed`); the running configuration may change in between.

Every function takes the readings of the clock it makes as arguments. `drive` decides with the
reading of its caller, and `sendDownstream` reads the clock again for the time it stamps on the
frame. Times are unbounded integers: microseconds in 64 bits overflow only for slots that are years
long.
-/

namespace Emane.BentPipe

open Emane.Lib
open Std (ExtTreeMap)

/-! ## Transponders -/

inductive ReceiveAction
  | unknown
  | ubend
  | process
  deriving DecidableEq

/-- A transponder with the fields that decide about transmissions. -/
structure FullTransponder extends Transponder where
  receiveAntennaIndex : UInt16
  receiveAction : ReceiveAction
  receiveEnable : Bool
  curveIndex : ℕ
  transmitAntennaIndex : UInt16
  transmitDelayUs : ℕ
  transmitSlotsPerFrame : ℕ
  transmitSlots : List ℕ
  tos : List UInt8
  allTos : Bool
  /-- The rate is a 64-bit number. -/
  rate_lt : transmitDataRateBps < 2 ^ 64

instance : Inhabited FullTransponder where
  default := {
    transmitEnable := false, transmitMtuBytes := 0, transmitSlotSizeUs := 0, transmitDataRateBps := 0
    receiveAntennaIndex := 0, receiveAction := .unknown, receiveEnable := false, curveIndex := 0
    transmitAntennaIndex := 0, transmitDelayUs := 0, transmitSlotsPerFrame := 0, transmitSlots := []
    tos := [], allTos := false, rate_lt := by decide }

/-- The transponder has slots; the condition under which `drive` looks at them. -/
def FullTransponder.slotted (t : FullTransponder) : Bool :=
  t.transmitSlotSizeUs ≠ 0 && t.transmitSlotsPerFrame ≠ 0 && !t.transmitSlots.isEmpty

/-- `airtime`, in microseconds; the additions and the multiplication saturate. -/
def airtime (bytes rate : ℕ) : ℕ :=
  if rate = 0 then 0
  else min (min (bytes * 8000000) (2 ^ 64 - 1) + (rate - 1)) (2 ^ 64 - 1) / rate

/-- `next_slot`: the start of the first own slot that is not over when it begins. -/
def nextSlot (t : FullTransponder) (now : ℤ) : ℤ :=
  match t.transmitSlots with
  | [] => now
  | first :: rest =>
      if t.transmitSlotsPerFrame = 0 ∨ t.transmitSlotSizeUs = 0 then now
      else
        let size : ℤ := t.transmitSlotSizeUs
        let absoluteSlot := now / size
        let current := (absoluteSlot % (t.transmitSlotsPerFrame : ℤ)).toNat
        match (first :: rest).find? fun slot =>
            current < slot || (slot == current && now.tmod size == 0) with
        | some slot => (absoluteSlot + slot - current) * size
        | none => (absoluteSlot + t.transmitSlotsPerFrame - current + first) * size

/-! ## The layer's state -/

/-- What `send_downstream` hands to the PHY. -/
structure TxFrame where
  sequence : UInt64
  destination : UInt16
  dataRateBps : ℕ
  curveIndex : ℕ
  messages : List BentPipeComponent
  txTime : ℤ
  duration : ℕ

/-- A frame, with the transponder that sent it and the reading of the clock with which `drive`
decided to send. -/
structure Transmission where
  index : UInt16
  decided : ℤ
  frame : TxFrame

structure Mac where
  id : UInt16
  transponders : ExtTreeMap UInt16 FullTransponder
  /-- The indices of the defined antennas. -/
  antennas : List UInt16
  queueDepth : ℕ
  aggregationEnable : Bool
  fragmentationEnable : Bool
  fragmentTimeoutUs : ℤ
  packetSequence : UInt64
  queues : UInt16 → List PendingTx
  frameSequence : UInt64
  currentEot : UInt16 → Option ℤ
  receiveEnd : UInt16 → Option ℤ
  /-- The wakeups, with the transmit events the framework has not delivered yet. -/
  wakeups : Agenda UInt16 ℤ
  reassembly : Store
  started : Bool
  /-- What was handed to the PHY. -/
  sent : List Transmission

namespace Mac

/-- The part of the state the queues use. -/
def state (mac : Mac) : State where
  transponders index := mac.transponders[index]?.map FullTransponder.toTransponder
  queueDepth := mac.queueDepth
  aggregationEnable := mac.aggregationEnable
  fragmentationEnable := mac.fragmentationEnable
  packetSequence := mac.packetSequence
  queues := mac.queues

/-- The queue operations change the queues and the next packet number. -/
def withState (mac : Mac) (state : State) : Mac :=
  { mac with packetSequence := state.packetSequence, queues := state.queues }

/-! ## Transmitting -/

/-- `schedule_transmit` -/
def scheduleTransmit (mac : Mac) (index : UInt16) (time : ℤ) : Mac :=
  if mac.started then { mac with wakeups := mac.wakeups.schedule index time } else mac

end Mac

/-- The length of a number in the wire format. -/
def varintLen (n : ℕ) : ℕ := n.log2 / 7 + 1

/-- The length of the fields of a fragment description: a flag and three numbers. -/
def BentPipeFragment.encodedLen (f : BentPipeFragment) : ℕ :=
  2 + (1 + varintLen f.index) + (1 + varintLen f.offset) + (1 + varintLen f.sequence.toNat)

def BentPipeComponent.encodedLen (c : BentPipeComponent) : ℕ :=
  (1 + varintLen c.destination) + (1 + varintLen c.data.length + c.data.length) +
    match c.fragment with
    | none => 0
    | some fragment => 1 + varintLen fragment.encodedLen + fragment.encodedLen

structure BentPipeMessage where
  startOfTransmissionMicroseconds : ℕ
  curveIndex : ℕ
  messages : List BentPipeComponent

/-- The length of a message in the wire format. -/
def BentPipeMessage.encodedLen (message : BentPipeMessage) : ℕ :=
  (1 + varintLen message.startOfTransmissionMicroseconds) + (1 + varintLen message.curveIndex) +
    (message.messages.map fun c => 1 + varintLen c.encodedLen + c.encodedLen).sum

/-- The bytes of packets in a frame. -/
def dataBytes (components : List TxComponent) : ℕ :=
  (components.map fun component => component.packet.payload.length).sum

/-- The destination of a frame: that of its components when they agree, else all. -/
def frameDestination : List TxComponent → UInt16
  | [] => 65535
  | first :: rest =>
      if (first :: rest).all fun component =>
          component.packet.info.destination == first.packet.info.destination then
        first.packet.info.destination
      else 65535

/-- The message of a frame. -/
def wireMessage (t : FullTransponder) (startOfTransmission : ℤ) (components : List TxComponent) :
    BentPipeMessage where
  startOfTransmissionMicroseconds := startOfTransmission.toNat
  curveIndex := t.curveIndex
  messages := components.map wireComponent

section

-- the length of a serialized message
variable (encodedLen : BentPipeMessage → ℕ)

/-- `send_downstream`: a message whose length does not fit in 16 bits is dropped. -/
def sendDownstream (components : List TxComponent) (frameSequence : UInt64) (t : FullTransponder)
    (startOfTransmission : ℤ) : Option TxFrame :=
  let wire := wireMessage t startOfTransmission components
  if encodedLen wire < 65536 then
    some {
      sequence := frameSequence
      destination := frameDestination components
      dataRateBps := t.transmitDataRateBps
      curveIndex := wire.curveIndex
      messages := wire.messages
      txTime := startOfTransmission
      duration := max (airtime (dataBytes components) t.transmitDataRateBps) 1 }
  else none

namespace Mac

/-- The end of the transponder's last transmission. -/
def eot (mac : Mac) (index : UInt16) : ℤ := (mac.currentEot index).getD 0

/-- The condition `can_send` of `drive`. -/
def canSend (mac : Mac) (index : UInt16) (now allowed : ℤ) : Bool :=
  ((mac.queues index).head?.any fun item => item.readyAt ≤ now) && mac.eot index ≤ now &&
    allowed ≤ now

/-- The part of `drive` that takes components from the queue. -/
def takeComponents (mac : Mac) (index : UInt16) (t : FullTransponder) (now allowed : ℤ) :
    Mac × List TxComponent :=
  if mac.canSend index now allowed then
    let r := dequeueComponents mac.state index (effectiveMtu t.toTransponder) now
    let mac := mac.withState r.1
    let components := r.2.1
    if components.isEmpty then (mac, [])
    else
      ({ mac with
          currentEot := Function.update mac.currentEot index
            (some (now + airtime (dataBytes components) t.transmitDataRateBps))
          frameSequence := mac.frameSequence + 1 }, components)
  else (mac, [])

/-- The components go down as a frame, if there are any. -/
def handDown (mac : Mac) (index : UInt16) (t : FullTransponder) (now : ℤ)
    (components : List TxComponent) (frameSequence : UInt64) (startOfTransmission : ℤ) : Mac :=
  if components.isEmpty then mac
  else
    let frame := sendDownstream encodedLen components frameSequence t startOfTransmission
    { mac with sent := mac.sent ++ (frame.map fun frame => ⟨index, now, frame⟩).toList }

/-- When the packet in front can be sent at the earliest. -/
def nextWakeup (mac : Mac) (index : UInt16) (t : FullTransponder) (now : ℤ) : Option ℤ :=
  (mac.queues index).head?.map fun item =>
    nextSlot t (max (max item.readyAt (mac.eot index)) now)

/-- The wakeup that `drive` asks for last. -/
def scheduleNext (mac : Mac) (index : UInt16) : Option ℤ → Mac
  | none => mac
  | some next => mac.scheduleTransmit index next

/-- The rest of `drive` when the transponder and its antenna are there and the slot it was woken for
is not over. -/
def serve (mac : Mac) (index : UInt16) (t : FullTransponder) (now allowed startOfTransmission : ℤ) :
    Mac :=
  let taken := mac.takeComponents index t now allowed
  let next := taken.1.nextWakeup index t now
  (taken.1.handDown encodedLen index t now taken.2 mac.frameSequence startOfTransmission).scheduleNext index
    next

/-- `drive` -/
def drive (mac : Mac) (index : UInt16) (now : ℤ) (expected : Option ℤ) (startOfTransmission : ℤ) :
    Mac :=
  match mac.transponders[index]? with
  | none => mac
  | some t =>
      if t.transmitAntennaIndex ∉ mac.antennas then mac
      else
        match expected.filter fun _ => t.slotted with
        | none => mac.serve encodedLen index t now (nextSlot t now) startOfTransmission
        | some expected =>
            if now < expected + t.transmitSlotSizeUs then
              mac.serve encodedLen index t now expected startOfTransmission
            else
              -- the slot was missed
              mac.scheduleTransmit index (nextSlot t now)

/-! ## The callbacks -/

end Mac

/-- When a packet received until `endOfReception` is relayed. -/
def relayTime (endOfReception now : ℤ) (delay : ℕ) : ℤ := max endOfReception now + delay

namespace Mac

/-- The transponder that takes a packet from above. -/
def transponderFor (mac : Mac) (priority : UInt8) : Option UInt16 :=
  (mac.transponders.toList.find? fun entry =>
    entry.2.transmitEnable && (entry.2.allTos || entry.2.tos.contains priority)).map Prod.fst

/-- `downstream` -/
def downstream (mac : Mac) (priority : UInt8) (info : FfiPacketInfo) (payload : Bytes)
    (now startOfTransmission : ℤ) : Mac :=
  match ownPacket info payload with
  | none => mac
  | some packet =>
      match mac.transponderFor priority with
      | none => mac
      | some index =>
          let r := enqueue mac.state index packet now
          let mac := mac.withState r.state
          if r.queued then mac.drive encodedLen index now none startOfTransmission else mac

/-- The arm of `upstream` that relays a packet. -/
def relay (mac : Mac) (index : UInt16) (packet : OwnedPacket) (endOfReception : ℤ) (delay : ℕ)
    (now startOfTransmission : ℤ) : Mac :=
  let time := relayTime endOfReception now delay
  let r := enqueue mac.state index packet time
  let mac := mac.withState r.state
  if r.queued then
    if time ≤ now then mac.drive encodedLen index now none startOfTransmission
    else mac.scheduleTransmit index time
  else mac

end Mac

/-- A component of a received frame, with the readings of the clock made for it: one for the
reassembly, one for the relay, and the one of `sendDownstream`. -/
structure ReceivedComponent where
  component : BentPipeComponent
  checked : ℤ
  now : ℤ
  startOfTransmission : ℤ

/-- A received frame: the transponder whose antenna and frequency it was heard on, when it came, and
whether the draw against the packet completion rate lets it pass. -/
structure Reception where
  source : UInt16
  transponder : Option UInt16
  startOfReception : ℤ
  span : ℕ
  passes : Bool
  messages : List ReceivedComponent

/-- Whether a transponder takes a component for `destination`. -/
def accepted (id : UInt16) (action : ReceiveAction) (destination : ℕ) : Bool :=
  match action with
  | .process => destination == id.toNat || destination == 65535
  | .ubend => destination != id.toNat
  | .unknown => false

def Reception.endOfReception (r : Reception) : ℤ := r.startOfReception + r.span

namespace Mac

/-- The body of the loop of `upstream`. A packet that is processed goes up and leaves the transmit
side as it is. -/
def upstreamMessage (index : UInt16) (t : FullTransponder) (r : Reception) (mac : Mac)
    (m : ReceivedComponent) : Mac :=
  if m.component.destination < 65536 && accepted mac.id t.receiveAction m.component.destination then
    let received := upstreamComponent (expireReassembly mac.fragmentTimeoutUs) mac.reassembly r.source
      m.component m.checked
    let mac := { mac with reassembly := received.1 }
    match received.2, t.receiveAction with
    | some packet, .ubend =>
        mac.relay encodedLen index packet r.endOfReception t.transmitDelayUs m.now m.startOfTransmission
    | _, _ => mac
  else mac

/-- `upstream`, for a frame that was decoded. -/
def upstream (mac : Mac) (r : Reception) : Mac :=
  match r.transponder with
  | none => mac
  | some index =>
      match mac.transponders[index]? with
      | none => mac
      | some t =>
          if !t.receiveEnable then mac
          else if r.startOfReception < (mac.receiveEnd index).getD 0 then mac
          else
            let mac := { mac with
              receiveEnd := Function.update mac.receiveEnd index (some r.endOfReception) }
            if r.passes then r.messages.foldl (upstreamMessage encodedLen index t r) mac else mac

/-- `timed`, for the event of a wakeup. -/
def timed (mac : Mac) (index : UInt16) (expected now startOfTransmission : ℤ) : Mac :=
  let fired := mac.wakeups.fire index expected
  let mac := { mac with wakeups := fired.1 }
  if fired.2 then mac.drive encodedLen index now (some expected) startOfTransmission else mac

/-- `timed`, for the reassembly check. -/
def check (mac : Mac) (now : ℤ) : Mac :=
  if mac.started then
    { mac with reassembly := expireReassembly mac.fragmentTimeoutUs now mac.reassembly }
  else mac

end Mac

end

/-! ## What the functions change -/

namespace Mac

theorem scheduleTransmit_eq (mac : Mac) (index : UInt16) (time : ℤ) :
    mac.scheduleTransmit index time =
      { mac with
        wakeups := if mac.started then mac.wakeups.schedule index time else mac.wakeups } := by
  unfold scheduleTransmit
  split <;> rfl

/-- The wakeup for the packet in front is entered last. -/
theorem scheduleNext_eq (mac : Mac) (index : UInt16) (next : Option ℤ) :
    ∃ wakeups, mac.scheduleNext index next = { mac with wakeups := wakeups } ∧
      (wakeups = mac.wakeups ∨ ∃ time, next = some time ∧
        wakeups = mac.wakeups.schedule index time) := by
  cases next with
  | none => exact ⟨mac.wakeups, rfl, .inl rfl⟩
  | some time =>
      rw [scheduleNext, scheduleTransmit_eq]
      refine ⟨_, rfl, ?_⟩
      split
      · exact .inr ⟨time, rfl, rfl⟩
      · exact .inl rfl

/-- Taking components changes the queue and the end of transmission of that transponder only. -/
theorem takeComponents_eq (mac : Mac) (index : UInt16) (t : FullTransponder) (now allowed : ℤ) :
    ∃ queue currentEot frameSequence, (mac.takeComponents index t now allowed).1 =
      { mac with
        queues := Function.update mac.queues index queue
        currentEot := currentEot
        frameSequence := frameSequence } := by
  unfold takeComponents
  split
  · dsimp only
    split
    · exact ⟨_, _, _, rfl⟩
    · exact ⟨_, _, _, rfl⟩
  · exact ⟨mac.queues index, mac.currentEot, mac.frameSequence, by rw [Function.update_eq_self]⟩

theorem handDown_eq (encodedLen : BentPipeMessage → ℕ) (mac : Mac) (index : UInt16) (t : FullTransponder)
    (now : ℤ) (components : List TxComponent) (frameSequence : UInt64) (startOfTransmission : ℤ) :
    ∃ sent, mac.handDown encodedLen index t now components frameSequence startOfTransmission =
      { mac with sent := mac.sent ++ sent } := by
  unfold handDown
  split
  · exact ⟨[], by rw [List.append_nil]⟩
  · exact ⟨_, rfl⟩

/-- What `serve` does: the queue is shortened, frames go down, and then the wakeup is entered for what is
left in the queue. -/
theorem serve_eq (encodedLen : BentPipeMessage → ℕ) (mac : Mac) (index : UInt16) (t : FullTransponder)
    (now allowed startOfTransmission : ℤ) :
    ∃ (after : Mac) (queue : List PendingTx) (currentEot : UInt16 → Option ℤ) (frameSequence : UInt64)
        (sent : List Transmission),
      after = { mac with
        queues := Function.update mac.queues index queue
        currentEot := currentEot
        frameSequence := frameSequence
        sent := sent } ∧
      mac.serve encodedLen index t now allowed startOfTransmission =
        after.scheduleNext index (after.nextWakeup index t now) := by
  obtain ⟨queue, currentEot, frameSequence, htaken⟩ := mac.takeComponents_eq index t now allowed
  obtain ⟨sent, hdown⟩ := (mac.takeComponents index t now allowed).1.handDown_eq encodedLen index t now
    (mac.takeComponents index t now allowed).2 mac.frameSequence startOfTransmission
  refine ⟨_, queue, currentEot, frameSequence, mac.sent ++ sent, rfl, ?_⟩
  unfold serve
  dsimp only
  rw [hdown, htaken]
  -- the wakeup depends on the queue and the end of transmission only, which a frame that goes down leaves
  rfl

/-- What `enqueue` does to the layer: nothing, or it appends to the queue of a transponder that is
there. -/
theorem withState_enqueue_cases (mac : Mac) (index : UInt16) (packet : OwnedPacket) (readyAt : ℤ) :
    mac.withState (enqueue mac.state index packet readyAt).state = mac ∨
      ((enqueue mac.state index packet readyAt).queued = true ∧
        (mac.transponders[index]?).isSome = true ∧
        ∃ queue packetSequence, mac.withState (enqueue mac.state index packet readyAt).state =
          { mac with
            queues := Function.update mac.queues index queue
            packetSequence := packetSequence }) := by
  unfold enqueue
  split
  · exact .inl rfl
  next t ht =>
    split
    · exact .inl rfl
    split
    · exact .inl rfl
    split
    · exact .inl rfl
    · refine .inr ⟨rfl, ?_, _, _, rfl⟩
      have hsome : (mac.state.transponders index).isSome = true := by rw [ht]; rfl
      simpa [state] using hsome

/-- A packet that is not queued changes nothing. -/
theorem withState_enqueue_of_not_queued {mac : Mac} {index : UInt16} {packet : OwnedPacket} {readyAt : ℤ}
    (h : (enqueue mac.state index packet readyAt).queued ≠ true) :
    mac.withState (enqueue mac.state index packet readyAt).state = mac :=
  (mac.withState_enqueue_cases index packet readyAt).resolve_right fun hqueued => h hqueued.1

/-- What `downstream` does: nothing, or a packet is queued and its transponder driven. -/
theorem downstream_cases (encodedLen : BentPipeMessage → ℕ) (mac : Mac) (priority : UInt8)
    (info : FfiPacketInfo) (payload : Bytes) (now startOfTransmission : ℤ) :
    mac.downstream encodedLen priority info payload now startOfTransmission = mac ∨
      ∃ index packet, mac.downstream encodedLen priority info payload now startOfTransmission =
        (mac.withState (enqueue mac.state index packet now).state).drive encodedLen index now none
          startOfTransmission := by
  unfold downstream
  split
  · exact .inl rfl
  next packet _ =>
    split
    · exact .inl rfl
    next index _ =>
      dsimp only
      split
      · exact .inr ⟨index, packet, rfl⟩
      next hnot => exact .inl (withState_enqueue_of_not_queued hnot)

/-- What `relay` does: nothing, or a packet is queued, and its transponder is driven at once or woken when
the packet is due. -/
theorem relay_cases (encodedLen : BentPipeMessage → ℕ) (mac : Mac) (index : UInt16) (packet : OwnedPacket)
    (endOfReception : ℤ) (delay : ℕ) (now startOfTransmission : ℤ) :
    let time := relayTime endOfReception now delay
    let relayed := mac.relay encodedLen index packet endOfReception delay now startOfTransmission
    let queued := mac.withState (enqueue mac.state index packet time).state
    relayed = mac ∨ relayed = queued.drive encodedLen index now none startOfTransmission ∨
      now < time ∧ relayed = queued.scheduleTransmit index time := by
  dsimp only
  unfold relay
  dsimp only
  split
  · split
    · exact .inr (.inl rfl)
    next hlate => exact .inr (.inr ⟨not_le.mp hlate, rfl⟩)
  next hnot => exact .inl (withState_enqueue_of_not_queued hnot)

/-- What a component of a received frame does: it enters the reassembly, and a packet that is complete may
be relayed. -/
theorem upstreamMessage_cases (encodedLen : BentPipeMessage → ℕ) (index : UInt16) (t : FullTransponder)
    (r : Reception) (mac : Mac) (m : ReceivedComponent) :
    ∃ store, let stored : Mac := { mac with reassembly := store }
      mac.upstreamMessage encodedLen index t r m = stored ∨ t.receiveAction = .ubend ∧
        ∃ packet, mac.upstreamMessage encodedLen index t r m =
          stored.relay encodedLen index packet r.endOfReception t.transmitDelayUs m.now
            m.startOfTransmission := by
  unfold upstreamMessage
  split
  · dsimp only
    split
    next hubend => exact ⟨_, .inr ⟨hubend, _, rfl⟩⟩
    · exact ⟨_, .inl rfl⟩
  · exact ⟨mac.reassembly, .inl rfl⟩

/-- What `upstream` does: the end of the reception is stored, and the components of the frame may be
taken one after the other. -/
theorem upstream_cases (encodedLen : BentPipeMessage → ℕ) (mac : Mac) (r : Reception) :
    ∃ receiveEnd, let received : Mac := { mac with receiveEnd := receiveEnd }
      mac.upstream encodedLen r = received ∨ ∃ index t, r.transponder = some index ∧
        mac.transponders[index]? = some t ∧
        mac.upstream encodedLen r = r.messages.foldl (upstreamMessage encodedLen index t r) received := by
  unfold upstream
  split
  · exact ⟨mac.receiveEnd, .inl rfl⟩
  next index hindex =>
    split
    · exact ⟨mac.receiveEnd, .inl rfl⟩
    next t ht =>
      split
      · exact ⟨mac.receiveEnd, .inl rfl⟩
      split
      · exact ⟨mac.receiveEnd, .inl rfl⟩
      dsimp only
      split
      · exact ⟨_, .inr ⟨index, t, hindex, ht, rfl⟩⟩
      · exact ⟨_, .inl rfl⟩

end Mac

end Emane.BentPipe
