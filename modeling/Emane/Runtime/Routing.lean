import Mathlib
import Emane.CommEffect.Pending
import Emane.LegacyOta.Selection
import Emane.Nem.QueuedLayer

set_option autoImplicit false

/-! # Routing between the layers

A NEM is a stack of layers. What a layer hands to the framework goes to the next layer of the stack, down or
up; at the lowest layer packets go over the air and to the lowest layers of all other NEMs of the platform, or
to the boundary of a transport, and at the highest layer to the boundary of a platform. A call is copied before
it is handed over, and a call that is too large is not handed over.

`route` says where what a layer hands over goes. A packet that goes over the air gets to each other NEM of the
platform once, and never to the NEM that sends it (`mem_targets`, `nodup_targets`).
-/

namespace Emane.Runtime

open Emane.CommEffect (FfiPacketInfo)
open Emane.LegacyOta (Prost FfiSlice FfiControlMessage ffiControlMessages controlPayload findTxTransmitters
  controlModelHeader controlTxProperties)
open Emane.Lib (Bytes)
open Emane.Nem (QueueTaskKind)

/-! ## Calls -/

structure FfiPacket where
  info : FfiPacketInfo
  payload : FfiSlice UInt8
  deriving DecidableEq

structure QueuedControl where
  messageType : UInt32
  payload : Bytes
  deriving DecidableEq

structure QueuedCall where
  packet : Option (FfiPacketInfo × Bytes)
  controls : List QueuedControl
  deriving DecidableEq

/-- A control of `capture`. -/
def QueuedControl.capture (message : FfiControlMessage) : Option QueuedControl :=
  if 16 * 2 ^ 20 < message.payload.len then none
  else message.payload.get.map fun payload => ⟨message.msgType, payload⟩

/-- The packet of `capture`. -/
def capturePacket (packet : FfiPacket) : Option (FfiPacketInfo × Bytes) :=
  if 64 * 2 ^ 20 < packet.payload.len then none
  else packet.payload.get.map fun payload => (packet.info, payload)

/-- The packet, if there is one, and the controls are copied. -/
def QueuedCall.capture (packet : Option FfiPacket) (messages : FfiSlice FfiControlMessage) :
    Option QueuedCall := do
  let packet ←
    match packet with
    | some packet => (capturePacket packet).map some
    | none => some none
  let messages ← ffiControlMessages messages
  let controls ← messages.mapM QueuedControl.capture
  some ⟨packet, controls⟩

/-- The kind of a call in `Invocation::process`. -/
def QueuedCall.kind (call : QueuedCall) (downstream : Bool) : QueueTaskKind :=
  match downstream, call.packet.isSome with
  | true, true => .downstreamPacket
  | false, true => .upstreamPacket
  | true, false => .downstreamControl
  | false, false => .upstreamControl

/-! ## The platform -/

inductive BoundaryRole
  | platform
  | transport
  deriving DecidableEq

/-- A layer: its NEM and its place in the stack, from the top. -/
abbrev LayerId := UInt16 × ℕ

/-- The NEMs in the order of the map, the heights of their stacks, and their boundaries. -/
structure Platform where
  nems : List UInt16
  height : UInt16 → ℕ
  boundary : UInt16 → Option BoundaryRole
  nodup : nems.Nodup

namespace Platform

variable (platform : Platform)

/-- `Runtime::invocation` -/
def invocation (nemId : UInt16) (index : ℕ) : Option LayerId :=
  if nemId ∈ platform.nems ∧ index < platform.height nemId then some (nemId, index) else none

/-- `Runtime::last_invocation` -/
def lastInvocation (nemId : UInt16) : Option LayerId :=
  if nemId ∈ platform.nems ∧ 0 < platform.height nemId then some (nemId, platform.height nemId - 1) else none

/-- `Runtime::boundary` -/
def hasBoundary (nemId : UInt16) (role : BoundaryRole) : Bool := platform.boundary nemId = some role

end Platform

/-! ## Where a call goes -/

/-- What the framework does with a call: it is handed to a layer, or leaves the platform. -/
inductive Delivery
  | layer (target : LayerId) (downstream : Bool) (call : QueuedCall)
  | overTheAir (source destination : UInt16) (data controls : Bytes)
  | boundaryPacket (nemId : UInt16) (packet : FfiPacket) (messages : List FfiControlMessage)
  | boundaryControl (nemId : UInt16) (messages : List FfiControlMessage)
  deriving DecidableEq

/-- What a layer hands to the framework. The functions for controls have no packet, and those for packets may
be given a null pointer. -/
inductive Sent
  | packet (downstream : Bool) (packet : Option FfiPacket) (messages : FfiSlice FfiControlMessage)
  | control (downstream : Bool) (messages : FfiSlice FfiControlMessage)

/-- `Invocation::process` up to the queue. -/
def process (target : LayerId) (downstream : Bool) (packet : Option FfiPacket)
    (messages : FfiSlice FfiControlMessage) : List Delivery :=
  ((QueuedCall.capture packet messages).map (.layer target downstream)).toList

/-- The NEMs that are named as transmitters. -/
def transmitters (messages : FfiSlice FfiControlMessage) : List UInt16 :=
  (((ffiControlMessages messages).bind findTxTransmitters).map fun transmitters =>
    transmitters.transmitters.map fun transmitter => transmitter.nemId).getD []

section

variable (prost : Prost) (platform : Platform)

/-- The lowest layers that hear a transmission. -/
def targets (nemId : UInt16) (messages : FfiSlice FfiControlMessage) : List LayerId :=
  ((platform.nems.filter (· ≠ nemId)).filter (· ∉ transmitters messages)).filterMap platform.lastInvocation

/-- The sequence number is used if the transmission has a header of a model and transmission properties. -/
def usesSequence (messages : FfiSlice FfiControlMessage) : Bool :=
  ((ffiControlMessages messages).bind fun messages =>
    (controlPayload messages controlModelHeader).bind fun _ => controlPayload messages controlTxProperties).isSome

/-- What `route_downstream` sends over the air. -/
def overTheAir (nemId : UInt16) (packet : FfiPacket) (messages : FfiSlice FfiControlMessage)
    (sequence : UInt16) : List Delivery :=
  ((LegacyOta.routeDownstream prost ⟨packet.info.source, packet.payload⟩ messages
    (if usesSequence messages then sequence else 0)).map fun sent =>
      .overTheAir nemId packet.info.destination sent.1 sent.2).toList

/-- `route_downstream`: what is done, and the next sequence number of the NEM. -/
def routeDownstream (nemId : UInt16) (index : ℕ) (packet : Option FfiPacket)
    (messages : FfiSlice FfiControlMessage) (sequence : UInt16) : List Delivery × UInt16 :=
  match platform.invocation nemId (index + 1) with
  | some next => (process next true packet messages, sequence)
  | none =>
      match packet with
      | none => ([], sequence)
      | some packet =>
          if platform.hasBoundary nemId .transport then
            (((ffiControlMessages messages).map (.boundaryPacket nemId packet)).toList, sequence)
          else
            (overTheAir prost nemId packet messages sequence ++
              (targets platform nemId messages).flatMap fun target => process target false (some packet) messages,
              if usesSequence messages then sequence + 1 else sequence)

/-- `route_upstream` -/
def routeUpstream (nemId : UInt16) (index : ℕ) (packet : Option FfiPacket)
    (messages : FfiSlice FfiControlMessage) : List Delivery :=
  if 0 < index then
    match platform.invocation nemId (index - 1) with
    | some previous => process previous false packet messages
    | none => []
  else if platform.hasBoundary nemId .platform then
    match packet with
    | none => []
    | some packet => ((ffiControlMessages messages).map (.boundaryPacket nemId packet)).toList
  else []

/-- `route_control` -/
def routeControl (nemId : UInt16) (index : ℕ) (downstream : Bool) (messages : FfiSlice FfiControlMessage) :
    List Delivery :=
  let target :=
    if downstream then platform.invocation nemId (index + 1)
    else if 0 < index then platform.invocation nemId (index - 1)
    else none
  match target with
  | some target => process target downstream none messages
  | none =>
      if platform.hasBoundary nemId (if downstream then .transport else .platform) then
        ((ffiControlMessages messages).map (.boundaryControl nemId)).toList
      else []

/-- The framework's functions for sending. -/
def route (id : LayerId) (sequence : UInt16) : Sent → List Delivery × UInt16
  | .packet true packet messages => routeDownstream prost platform id.1 id.2 packet messages sequence
  | .packet false packet messages => (routeUpstream platform id.1 id.2 packet messages, sequence)
  | .control downstream messages => (routeControl platform id.1 id.2 downstream messages, sequence)

end

/-! ## Everyone else hears a transmission -/

section

variable {platform : Platform} {messages : FfiSlice FfiControlMessage} {nemId : UInt16}

theorem lastInvocation_eq_some {nem : UInt16} {id : LayerId} :
    platform.lastInvocation nem = some id ↔
      (nem ∈ platform.nems ∧ 0 < platform.height nem) ∧ (nem, platform.height nem - 1) = id := by
  unfold Platform.lastInvocation
  rw [Option.ite_none_right_eq_some, Option.some.injEq]

/-- The layers that hear a transmission are the lowest layers of the other NEMs that do not transmit it. -/
theorem mem_targets {target : LayerId} :
    target ∈ targets platform nemId messages ↔ target.1 ∈ platform.nems ∧ target.1 ≠ nemId ∧
      target.1 ∉ transmitters messages ∧ 0 < platform.height target.1 ∧
      target.2 + 1 = platform.height target.1 := by
  obtain ⟨nem, index⟩ := target
  unfold targets
  simp only [List.mem_filterMap, List.mem_filter, decide_eq_true_eq, lastInvocation_eq_some, Prod.mk.injEq]
  constructor
  · rintro ⟨a, ⟨⟨ha, hne⟩, htransmits⟩, ⟨-, hheight⟩, rfl, rfl⟩
    exact ⟨ha, hne, htransmits, hheight, Nat.sub_add_cancel hheight⟩
  · rintro ⟨ha, hne, htransmits, hheight, hindex⟩
    refine ⟨nem, ⟨⟨ha, hne⟩, htransmits⟩, ⟨ha, hheight⟩, rfl, ?_⟩
    omega

/-- Each of them hears it once. -/
theorem nodup_targets : (targets platform nemId messages).Nodup := by
  unfold targets
  refine ((platform.nodup.filter _).filter _).filterMap ?_
  intro nem nem' id h h'
  have heq := (lastInvocation_eq_some.mp h).2.trans (lastInvocation_eq_some.mp h').2.symm
  exact congrArg Prod.fst heq

end

end Emane.Runtime
