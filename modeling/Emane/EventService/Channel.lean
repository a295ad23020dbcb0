import Mathlib
import Emane.EventService.Registry
import Emane.LegacyOta.Prost
import Emane.LegacyOta.RoundTrip
import Emane.Lib.Saturating

set_option autoImplicit false

/-! # The event channel

Emulators that share a multicast channel send their events to each other. An event goes to the users of
the own emulator directly, and in one datagram to the channel, which brings it to the others and back to
the sender, which knows its own datagrams by the UUID in them. The bytes of the message are the matter of
generated code, which is the parameter `codec`.

A `World` is the emulators with the datagrams that were sent and, for the proofs, a log of the events that
were sent and of the callbacks that were called. A step is one call into the service or one datagram that
the receive loop of an emulator takes; datagrams are lost, come late, twice and in any order.
-/

namespace Emane.EventService

open Emane.Lib Emane.LegacyOta

/-! ## The message -/

structure Serialization where
  nemId : UInt32
  eventId : UInt32
  data : Bytes
  deriving DecidableEq

structure Data where
  serializations : List Serialization
  deriving DecidableEq

/-- `Event` of the protocol. -/
structure EventMessage where
  uuid : Bytes
  sequenceNumber : UInt64
  data : Data
  deriving DecidableEq

/-! ## Datagrams -/

/-- The UUID of an emulator, an array of 16 bytes in the source. -/
abbrev Uuid := { bs : Bytes // bs.length = 16 }

/-- An event as it is sent to the channel. -/
structure Sent where
  uuid : Uuid
  seqNum : UInt64
  nemId : UInt16
  eventId : UInt16
  data : Bytes
  deriving DecidableEq

section

variable (codec : LegacyOta.Serialization EventMessage)

/-- What the channel relies on of `encode` and `decode`: what is written is read back, and as there are
required fields, something is written. -/
structure Faithful : Prop where
  roundTrips : codec.RoundTrips
  written : ∀ message, codec.encode message ≠ []

def Sent.eventMessage (sent : Sent) : EventMessage where
  uuid := sent.uuid.val
  sequenceNumber := sent.seqNum
  data := ⟨[{ nemId := sent.nemId.toUInt32, eventId := sent.eventId.toUInt32, data := sent.data }]⟩

/-- `emane_rs_event_service_send_event_multicast` up to the socket. -/
def Sent.datagram (sent : Sent) : Option Bytes :=
  if sent.data.length > 2 ^ 32 - 1 then none
  else
    let buf := codec.encode sent.eventMessage
    if buf.length ≤ 2 ^ 16 - 1 then some (toBeBytes (UInt16.ofNat buf.length) ++ buf) else none

/-- The message in a datagram, if it is complete and can be read. -/
def readDatagram (bs : Bytes) : Option EventMessage :=
  if 2 < bs.length ∧ (fromBeBytes (bs.take 2) : UInt16).toNat = bs.length - 2 then
    codec.decode (bs.drop 2)
  else none

end

variable {codec : LegacyOta.Serialization EventMessage}

/-- **A datagram is read back.** -/
theorem Faithful.readDatagram_datagram (hcodec : Faithful codec) {sent : Sent} {bs : Bytes}
    (h : sent.datagram codec = some bs) : readDatagram codec bs = some sent.eventMessage := by
  unfold Sent.datagram at h
  split at h
  case isTrue => cases h
  case isFalse =>
    dsimp only at h
    split at h
    case isFalse => cases h
    case isTrue hle =>
      cases h
      have hpos := List.length_pos_iff.mpr (hcodec.written sent.eventMessage)
      have hdecode := hcodec.roundTrips sent.eventMessage
      generalize codec.encode sent.eventMessage = buf at hle hpos hdecode
      have hlength : (toBeBytes (UInt16.ofNat buf.length)).length = 2 := by simp
      have htake : (toBeBytes (UInt16.ofNat buf.length) ++ buf).take 2 =
          toBeBytes (UInt16.ofNat buf.length) := by
        rw [← hlength, List.take_left]
      have hdrop : (toBeBytes (UInt16.ofNat buf.length) ++ buf).drop 2 = buf := by
        rw [← hlength, List.drop_left]
      have hall : (toBeBytes (UInt16.ofNat buf.length) ++ buf).length = 2 + buf.length := by
        rw [List.length_append, hlength]
      have hcount : (UInt16.ofNat buf.length).toNat = 2 + buf.length - 2 := by
        rw [UInt16.toNat_ofNat', Nat.mod_eq_of_lt (by omega), Nat.add_sub_cancel_left]
      rw [readDatagram, htake, hdrop, BigEndian.fromBeBytes_toBeBytes, hall,
        if_pos ⟨Nat.lt_add_of_pos_right hpos, hcount⟩, hdecode]

/-! ## An emulator -/

/-- A callback that is called. -/
structure Call where
  user : EventServiceUser
  eventId : UInt16
  data : Bytes
  deriving DecidableEq

/-- The registry of an emulator with its `EventServiceState`. -/
structure Emulator where
  registry : EventServiceRegistry
  socket : Bool
  mcastAddr : Bool
  running : Bool
  seqNum : UInt64
  transmitted : ℕ
  received : ℕ

def Emulator.new : Emulator :=
  { registry := .empty
    socket := false
    mcastAddr := false
    running := false
    seqNum := 0
    transmitted := 0
    received := 0 }

/-- `emane_rs_event_service_mcast_open` with a group that can be joined. -/
def Emulator.open (e : Emulator) : Emulator :=
  if e.running then e else { e with socket := true, mcastAddr := true, running := true }

/-- `emane_rs_event_service_mcast_close`. The address stays. -/
def Emulator.close (e : Emulator) : Emulator := { e with socket := false, running := false }

/-- The calls that an event makes in its own emulator. -/
def Emulator.localCalls (e : Emulator) (sender nemId eventId : UInt16) (data : Bytes) : List Call :=
  (e.registry.routeLocalEvent sender nemId eventId).map fun user => ⟨user, eventId, data⟩

/-- What `emane_rs_event_service_send_event` sends, if there is an address. -/
def Emulator.sent (e : Emulator) (uuid : Uuid) (nemId eventId : UInt16) (data : Bytes) : Sent where
  uuid
  seqNum := e.seqNum + 1
  nemId
  eventId
  data

/-- The part of `emane_rs_event_service_send_event` behind the local users; `accepted` says whether the
socket takes the datagram. -/
def Emulator.transmit (codec : LegacyOta.Serialization EventMessage) (e : Emulator) (sent : Sent)
    (accepted : Bool) : Emulator × Option Bytes :=
  if e.mcastAddr then
    match sent.datagram codec with
    | none => ({ e with seqNum := sent.seqNum }, none)
    | some bs =>
        if e.socket && accepted then
          ({ e with seqNum := sent.seqNum, transmitted := U64.saturatingAdd e.transmitted 1 }, some bs)
        else ({ e with seqNum := sent.seqNum }, none)
  else (e, none)

/-- One pass of the loop over the events of a message. -/
def Emulator.receiveOne (e : Emulator) (s : Serialization) : Emulator × List Call :=
  match narrow s.nemId, narrow s.eventId with
  | some nemId, some eventId =>
      ({ e with received := U64.saturatingAdd e.received 1 },
        (e.registry.processEventMessage nemId eventId 0).map fun user => ⟨user, eventId, s.data⟩)
  | _, _ => (e, [])

def Emulator.receiveAll (e : Emulator) : List Serialization → Emulator × List Call
  | [] => (e, [])
  | s :: rest =>
      let (e₁, calls) := e.receiveOne s
      let (e₂, later) := e₁.receiveAll rest
      (e₂, calls ++ later)

/-- A datagram in `emane_rs_event_service_process_loop`. -/
def Emulator.receive (codec : LegacyOta.Serialization EventMessage) (e : Emulator) (uuid : Uuid)
    (bs : Bytes) : Emulator × List Call :=
  match readDatagram codec bs with
  | none => (e, [])
  | some message =>
      if message.uuid.length = 16 ∧ message.uuid ≠ uuid.val then e.receiveAll message.data.serializations
      else (e, [])

/-- **What a datagram of an emulator does**: the own one nothing, the one of another emulator calls every
user that an event message calls, with the event that was sent. -/
theorem Faithful.receive_datagram (hcodec : Faithful codec) (e : Emulator) (uuid : Uuid) {sent : Sent}
    {bs : Bytes} (h : sent.datagram codec = some bs) :
    e.receive codec uuid bs = if sent.uuid = uuid then (e, []) else
      ({ e with received := U64.saturatingAdd e.received 1 },
        (e.registry.processEventMessage sent.nemId sent.eventId 0).map
          fun user => ⟨user, sent.eventId, sent.data⟩) := by
  rw [Emulator.receive, hcodec.readDatagram_datagram h]
  dsimp only [Sent.eventMessage]
  by_cases hown : sent.uuid = uuid
  · rw [if_pos hown, if_neg (by simp [hown])]
  · rw [if_neg hown, if_pos ⟨sent.uuid.property, fun heq => hown (Subtype.ext heq)⟩]
    simp [Emulator.receiveAll, Emulator.receiveOne]

/-! ## The channel -/

structure World (ι : Type*) where
  emulators : ι → Emulator
  channel : List Bytes
  /-- the events that were sent, with the emulator and the build id of the sender, newest first -/
  sent : List (ι × UInt16 × Sent)
  /-- the callbacks that were called, with the emulator, newest first -/
  calls : List (ι × Call)

def World.new {ι : Type*} : World ι :=
  { emulators := fun _ => .new
    channel := []
    sent := []
    calls := [] }

inductive WorldOp (ι : Type*)
  | users (i : ι) (op : UserOp)
  | openChannel (i : ι)
  | closeChannel (i : ι)
  | send (i : ι) (sender nemId eventId : UInt16) (data : Bytes) (accepted : Bool)
  | receive (i : ι) (bs : Bytes)

variable {ι : Type*} [DecidableEq ι]

section

variable (codec : LegacyOta.Serialization EventMessage)

/-- `emane_rs_event_service_send_event` -/
def World.send (uuid : ι → Uuid) (w : World ι) (i : ι) (sender nemId eventId : UInt16) (data : Bytes)
    (accepted : Bool) : World ι :=
  let e := w.emulators i
  let sent := e.sent (uuid i) nemId eventId data
  let (e', datagram) := e.transmit codec sent accepted
  { emulators := Function.update w.emulators i e'
    channel := datagram.toList ++ w.channel
    sent := (i, sender, sent) :: w.sent
    calls := ((e.localCalls sender nemId eventId data).map (i, ·)).reverse ++ w.calls }

/-- The receive loop of an emulator takes a datagram of the channel. -/
def World.receive (uuid : ι → Uuid) (w : World ι) (i : ι) (bs : Bytes) : Option (World ι) :=
  if bs ∈ w.channel then
    let (e', calls) := (w.emulators i).receive codec (uuid i) bs
    some { w with
      emulators := Function.update w.emulators i e'
      calls := (calls.map (i, ·)).reverse ++ w.calls }
  else none

def World.step (uuid : ι → Uuid) (w : World ι) : WorldOp ι → Option (World ι)
  | .users i op =>
      let e := w.emulators i
      some { w with
        emulators := Function.update w.emulators i { e with registry := e.registry.apply op } }
  | .openChannel i => some { w with emulators := Function.update w.emulators i (w.emulators i).open }
  | .closeChannel i => some { w with emulators := Function.update w.emulators i (w.emulators i).close }
  | .send i sender nemId eventId data accepted =>
      some (w.send codec uuid i sender nemId eventId data accepted)
  | .receive i bs => w.receive codec uuid i bs

end

/-- The call comes from this event: it carries it, the user is meant, and the event is one of another user
of the same emulator or of another emulator. -/
structure ComesFrom (uuid : ι → Uuid) (j : ι) (call : Call) (i : ι) (sender : UInt16) (sent : Sent) :
    Prop where
  eventId : call.eventId = sent.eventId
  data : call.data = sent.data
  nem : sent.nemId = 0 ∨ call.user.nemId = sent.nemId
  other : i = j ∧ (sender = 0 ∨ call.user.buildId ≠ sender) ∨ uuid i ≠ uuid j

/-- What holds in every state of every run. -/
structure World.Inv (codec : LegacyOta.Serialization EventMessage) (uuid : ι → Uuid) (w : World ι) :
    Prop where
  follows : ∀ i, ∃ history, (w.emulators i).registry.Follows history
  own : ∀ i sender sent, (i, sender, sent) ∈ w.sent → sent.uuid = uuid i
  channel : ∀ bs ∈ w.channel, ∃ i sender sent, (i, sender, sent) ∈ w.sent ∧ sent.datagram codec = some bs
  calls : ∀ j call, (j, call) ∈ w.calls →
    ∃ i sender sent, (i, sender, sent) ∈ w.sent ∧ ComesFrom uuid j call i sender sent

variable {uuid : ι → Uuid} {w : World ι}

omit [DecidableEq ι] in
theorem World.Inv.new : (World.new : World ι).Inv codec uuid where
  follows _ := ⟨[], follows_empty⟩
  own _ _ _ h := by cases h
  channel _ h := by cases h
  calls _ _ h := by cases h

/-- An emulator changes, not its registry. -/
theorem follows_update (h : ∀ i, ∃ history, (w.emulators i).registry.Follows history) {i : ι} {e : Emulator}
    (he : ∃ history, e.registry.Follows history) (j : ι) :
    ∃ history, (Function.update w.emulators i e j).registry.Follows history := by
  rw [Function.update_apply]
  split
  · exact he
  · exact h j

theorem registry_transmit (e : Emulator) (sent : Sent) (accepted : Bool) :
    (e.transmit codec sent accepted).1.registry = e.registry := by
  unfold Emulator.transmit
  split
  · split
    · rfl
    · split <;> rfl
  · rfl

/-- What is sent is the datagram of the event. -/
theorem datagram_of_transmit {e : Emulator} {sent : Sent} {accepted : Bool} {bs : Bytes}
    (h : (e.transmit codec sent accepted).2 = some bs) : sent.datagram codec = some bs := by
  unfold Emulator.transmit at h
  split at h
  · split at h
    · cases h
    · next hdatagram =>
        split at h
        · cases h
          exact hdatagram
        · cases h
  · cases h

theorem World.Inv.send (h : w.Inv codec uuid) (i : ι) (sender nemId eventId : UInt16) (data : Bytes)
    (accepted : Bool) : (w.send codec uuid i sender nemId eventId data accepted).Inv codec uuid := by
  obtain ⟨history, hfollows⟩ := h.follows i
  refine ⟨follows_update h.follows ?_, fun j other sent hmem => ?_, fun bs hmem => ?_, fun j call hmem => ?_⟩
  · exact ⟨history, (registry_transmit ..).symm ▸ hfollows⟩
  · rcases List.mem_cons.mp hmem with heq | hold
    · cases heq
      rfl
    · exact h.own j other sent hold
  · rcases List.mem_append.mp hmem with hnew | hold
    · exact ⟨i, sender, _, List.mem_cons_self, datagram_of_transmit (Option.mem_toList.mp hnew)⟩
    · obtain ⟨j, other, sent, hsent, hdatagram⟩ := h.channel bs hold
      exact ⟨j, other, sent, List.mem_cons_of_mem _ hsent, hdatagram⟩
  · rcases List.mem_append.mp hmem with hnew | hold
    · -- a user of the own emulator
      obtain ⟨_, hcall, heq⟩ := List.mem_map.mp (List.mem_reverse.mp hnew)
      cases heq
      obtain ⟨user, huser, rfl⟩ := List.mem_map.mp hcall
      obtain ⟨-, -, haccepts, -⟩ := hfollows.mem_called.mp huser
      simp only [acceptsLocal, Bool.and_eq_true, Bool.or_eq_true, decide_eq_true_eq] at haccepts
      exact ⟨i, sender, _, List.mem_cons_self, rfl, rfl, haccepts.2, .inl ⟨rfl, haccepts.1⟩⟩
    · obtain ⟨k, other, sent, hsent, hcomes⟩ := h.calls j call hold
      exact ⟨k, other, sent, List.mem_cons_of_mem _ hsent, hcomes⟩

theorem World.Inv.receive (hcodec : Faithful codec) (h : w.Inv codec uuid) {i : ι} {bs : Bytes} {w' : World ι}
    (hstep : w.receive codec uuid i bs = some w') : w'.Inv codec uuid := by
  unfold World.receive at hstep
  split at hstep
  case isFalse => cases hstep
  case isTrue hmem =>
    obtain ⟨history, hfollows⟩ := h.follows i
    obtain ⟨k, sender, sent, hsent, hdatagram⟩ := h.channel bs hmem
    rw [hcodec.receive_datagram _ _ hdatagram, Option.some.injEq] at hstep
    subst hstep
    split
    case isTrue => exact ⟨follows_update h.follows ⟨history, hfollows⟩, h.own, h.channel, h.calls⟩
    case isFalse hother =>
      refine ⟨follows_update h.follows ⟨history, hfollows⟩, h.own, h.channel, fun j call hcall => ?_⟩
      rcases List.mem_append.mp hcall with hnew | hold
      · obtain ⟨_, hcall, heq⟩ := List.mem_map.mp (List.mem_reverse.mp hnew)
        cases heq
        obtain ⟨user, huser, rfl⟩ := List.mem_map.mp hcall
        obtain ⟨-, -, haccepts, -⟩ := hfollows.mem_called.mp huser
        simp only [acceptsMessage, Bool.and_eq_true, Bool.or_eq_true, decide_eq_true_eq] at haccepts
        exact ⟨k, sender, sent, hsent, rfl, rfl, haccepts.2, .inr (h.own _ _ _ hsent ▸ hother)⟩
      · exact h.calls j call hold

theorem World.Inv.step (hcodec : Faithful codec) (h : w.Inv codec uuid) {op : WorldOp ι} {w' : World ι}
    (hstep : w.step codec uuid op = some w') : w'.Inv codec uuid := by
  cases op with
  | users i op =>
      cases hstep
      obtain ⟨history, hfollows⟩ := h.follows i
      exact ⟨follows_update h.follows ⟨_, hfollows.apply op⟩, h.own, h.channel, h.calls⟩
  | openChannel i =>
      cases hstep
      refine ⟨follows_update h.follows ?_, h.own, h.channel, h.calls⟩
      unfold Emulator.open
      split <;> exact h.follows i
  | closeChannel i =>
      cases hstep
      exact ⟨follows_update h.follows (h.follows i), h.own, h.channel, h.calls⟩
  | send i sender nemId eventId data accepted =>
      cases hstep
      exact h.send i sender nemId eventId data accepted
  | receive i bs => exact h.receive hcodec hstep

theorem inv_of_worldRun (hcodec : Faithful codec) {ops : List (WorldOp ι)}
    (hrun : runSteps (World.step codec uuid) .new ops = some w) : w.Inv codec uuid :=
  runSteps_keeps (fun _ _ _ h hstep => h.step hcodec hstep) .new hrun

/-! ## A codec

The wire form that the protocol's description gives, for the instances. -/

def Serialization.message : Message Serialization where
  default := { nemId := 0, eventId := 0, data := [] }
  fields s := [⟨1, .number s.nemId.toNat⟩, ⟨2, .number s.eventId.toNat⟩, ⟨3, .bytes s.data⟩]
  merge
    | s, ⟨1, .number n⟩ => some { s with nemId := UInt32.ofNat n }
    | s, ⟨2, .number n⟩ => some { s with eventId := UInt32.ofNat n }
    | s, ⟨3, .bytes bs⟩ => some { s with data := bs }
    | _, ⟨1, _⟩ | _, ⟨2, _⟩ | _, ⟨3, _⟩ => none
    | s, _ => some s
  merge_fields s := by simp

def Data.merge : Data → Lib.Field → Option Data
  | d, ⟨1, .bytes bs⟩ => (Serialization.message.decode base128 bs).map fun s =>
      ⟨d.serializations ++ [s]⟩
  | _, ⟨1, _⟩ => none
  | d, _ => some d

def Data.message : Message Data where
  default := ⟨[]⟩
  fields d := d.serializations.map fun s => ⟨1, .bytes (Serialization.message.encode base128 s)⟩
  merge := merge
  merge_fields d :=
    foldlM_repeated merge _ Data.mk (fun xs x => by simp [merge, Message.decode_encode]) [] _

/-- The data that is given twice is put together. -/
def EventMessage.merge : EventMessage → Lib.Field → Option EventMessage
  | e, ⟨1, .bytes bs⟩ => some { e with uuid := bs }
  | e, ⟨2, .number n⟩ => some { e with sequenceNumber := UInt64.ofNat n }
  | e, ⟨3, .bytes bs⟩ => (Data.message.decode base128 bs).map fun d =>
      { e with data := ⟨e.data.serializations ++ d.serializations⟩ }
  | _, ⟨1, _⟩ | _, ⟨2, _⟩ | _, ⟨3, _⟩ => none
  | e, _ => some e

def EventMessage.message : Message EventMessage where
  default := { uuid := [], sequenceNumber := 0, data := ⟨[]⟩ }
  fields e :=
    [⟨1, .bytes e.uuid⟩, ⟨2, .number e.sequenceNumber.toNat⟩,
      ⟨3, .bytes (Data.message.encode base128 e.data)⟩]
  merge := merge
  merge_fields e := by simp [merge, Message.decode_encode]

def sampleCodec : LegacyOta.Serialization EventMessage where
  encode := EventMessage.message.encode base128
  decode := EventMessage.message.decode base128

theorem sampleCodec_faithful : Faithful sampleCodec where
  roundTrips := EventMessage.message.decode_encode base128
  written e hnil :=
    @NumberFormat.writeField_ne_nil base128 ⟨1, .bytes e.uuid⟩ (List.append_eq_nil_iff.mp hnil).1

/-! ## Results -/

/-- Two emulators with their UUIDs. -/
def twoUuids (i : Bool) : Uuid := ⟨List.replicate 16 (if i then 1 else 2), List.length_replicate⟩

/-- The event that the second of the two sends below. -/
def hello : Sent where
  uuid := twoUuids false
  seqNum := 1
  nemId := 3
  eventId := 100
  data := [5, 6]

/-- A user of NEM 3 in one emulator; the other one sends an event to its NEM. -/
def greeting : List (WorldOp Bool) :=
  [.users true (.registerUser ⟨7, 3, 1, some 2⟩), .users true (.registerEvent 7 100), .openChannel false,
    .openChannel true, .send false 9 3 100 [5, 6] true]

/-- **No callback without an event**, in every run of the emulators on their channel: a callback that was
called carries an event that was sent, to its NEM or to all, by another user of the emulator or by an
emulator with another UUID. -/
theorem calls_come_from_events (hcodec : Faithful codec) {ops : List (WorldOp ι)}
    (hrun : runSteps (World.step codec uuid) .new ops = some w) {j : ι} {call : Call}
    (hcall : (j, call) ∈ w.calls) :
    ∃ i sender sent, (i, sender, sent) ∈ w.sent ∧ ComesFrom uuid j call i sender sent :=
  (inv_of_worldRun hcodec hrun).calls j call hcall

theorem calls_come_from_events_greeting :
    ∃ w, runSteps (World.step sampleCodec twoUuids) .new (greeting ++ [.receive true ((hello.datagram sampleCodec).getD [])]) = some w ∧
      w.calls = [(true, ⟨⟨7, 3, 1, some 2⟩, 100, [5, 6]⟩)] ∧
      ∃ i sender sent, (i, sender, sent) ∈ w.sent ∧
        ComesFrom twoUuids true ⟨⟨7, 3, 1, some 2⟩, 100, [5, 6]⟩ i sender sent := by
  have hcalls : (runSteps (World.step sampleCodec twoUuids) .new
      (greeting ++ [.receive true ((hello.datagram sampleCodec).getD [])])).map World.calls =
      some [(true, ⟨⟨7, 3, 1, some 2⟩, 100, [5, 6]⟩)] := by
    decide +kernel
  obtain ⟨w, hrun, hw⟩ := Option.map_eq_some_iff.mp hcalls
  refine ⟨w, hrun, hw, calls_come_from_events sampleCodec_faithful hrun ?_⟩
  rw [hw]
  exact List.mem_cons_self

/-- **What a datagram does**, in every reachable state: it belongs to an event that was sent, is nothing
to the emulators with the UUID of its sender, and in every other one makes exactly the calls of an event
message, one for each user that is registered, with a receive count of one. -/
theorem datagrams_deliver_events (hcodec : Faithful codec) {ops : List (WorldOp ι)}
    (hrun : runSteps (World.step codec uuid) .new ops = some w) {bs : Bytes} (hmem : bs ∈ w.channel) :
    ∃ i sender sent, (i, sender, sent) ∈ w.sent ∧ sent.datagram codec = some bs ∧
      ∀ j, (w.emulators j).receive codec (uuid j) bs =
        if uuid i = uuid j then (w.emulators j, []) else
          ({ w.emulators j with received := U64.saturatingAdd (w.emulators j).received 1 },
            ((w.emulators j).registry.processEventMessage sent.nemId sent.eventId 0).map
              fun user => ⟨user, sent.eventId, sent.data⟩) := by
  have hinv := inv_of_worldRun hcodec hrun
  obtain ⟨i, sender, sent, hsent, hdatagram⟩ := hinv.channel bs hmem
  refine ⟨i, sender, sent, hsent, hdatagram, fun j => ?_⟩
  rw [hcodec.receive_datagram _ _ hdatagram, hinv.own _ _ _ hsent]

theorem datagrams_deliver_events_greeting :
    ∃ w bs, runSteps (World.step sampleCodec twoUuids) .new greeting = some w ∧ w.channel = [bs] ∧
      ∃ i sender sent, (i, sender, sent) ∈ w.sent ∧ sent.datagram sampleCodec = some bs ∧
        ∀ j, (w.emulators j).receive sampleCodec (twoUuids j) bs =
          if twoUuids i = twoUuids j then (w.emulators j, []) else
            ({ w.emulators j with received := U64.saturatingAdd (w.emulators j).received 1 },
              ((w.emulators j).registry.processEventMessage sent.nemId sent.eventId 0).map
                fun user => ⟨user, sent.eventId, sent.data⟩) := by
  have hchannel : ((runSteps (World.step sampleCodec twoUuids) .new greeting).map World.channel).any
      (·.length = 1) := by
    decide +kernel
  cases hrun : runSteps (World.step sampleCodec twoUuids) .new greeting with
  | none => simp [hrun] at hchannel
  | some w =>
      obtain ⟨bs, hbs⟩ := List.length_eq_one_iff.mp (by simpa [hrun] using hchannel)
      refine ⟨w, bs, rfl, hbs, datagrams_deliver_events sampleCodec_faithful hrun ?_⟩
      rw [hbs]
      exact List.mem_cons_self

end Emane.EventService
