import Mathlib
import Emane.Tdma.Transmit

set_option autoImplicit false

/-! # The receive side of the TDMA layer

`completeReceive` is the part of `complete_receive` after the reception tests: it removes stale
entries, and then handles the messages of the frame one after the other. Fragments are kept by
source, priority and packet number in a map ordered by offset; a packet is complete when the pieces
from its start on reach the length that the last fragment gives.

A receiver simulates the collector of the packets of each sender (`simulates`).
-/

namespace Emane.Tdma

open Emane.Lib
open Emane.PluginApi (FfiPacketInfo)
open Std (ExtTreeMap)

/-! ## The receiver -/

inductive TdmaMessageType
  | data
  | control
  deriving DecidableEq

/-- `TdmaMessageType::try_from` -/
def TdmaMessageType.tryFrom (value : ℤ) : Option TdmaMessageType :=
  if value = 1 then some .data
  else if value = 2 then some .control
  else none

structure Reassembly where
  info : FfiPacketInfo
  messageType : TdmaMessageType
  totalLen : Option ℕ
  pieces : ExtTreeMap ℕ Bytes
  lastUpdateUs : ℤ

/-- The entries, by source, priority and packet number. -/
abbrev Store := UInt16 × UInt8 × UInt64 → Option Reassembly

/-- The settings of a receiver. -/
structure Receiver where
  id : UInt16
  promiscuous : Bool
  fragmentTimeoutUs : ℤ

/-- Whether a receiver takes messages for `destination`. -/
def Receiver.accepts (receiver : Receiver) (destination : UInt16) : Bool :=
  receiver.promiscuous || destination == receiver.id || destination == 65535

/-- `expire_reassembly` -/
def expireReassembly (timeout now : ℤ) (store : Store) : Store :=
  fun key => (store key).filter fun entry => decide (now - entry.lastUpdateUs < timeout)

/-- The pieces from offset `expected` on, up to the first gap: where they end, and their bytes. -/
def assemble : ℕ → List (ℕ × Bytes) → ℕ × Bytes
  | expected, [] => (expected, [])
  | expected, (offset, piece) :: rest =>
      if offset ≠ expected then (expected, [])
      else
        let (stop, assembled) := assemble (expected + piece.length) rest
        (stop, piece ++ assembled)

/-- The entry with a fragment, which is kept if it is new. -/
def Reassembly.add (entry : Reassembly) (fragment : TdmaFragment) (data : Bytes) (now : ℤ) :
    Reassembly :=
  let pieces := entry.pieces.insertIfNew fragment.offset data
  { entry with
    pieces := pieces
    totalLen :=
      if fragment.more then entry.totalLen
      else pieces[fragment.offset]?.map fun piece => fragment.offset + piece.length
    lastUpdateUs := now }

/-- The entry is removed if the pieces from its start on reach its length, which completes the packet;
else it is kept. -/
def Reassembly.settle (entry : Reassembly) (store : Store) (key : UInt16 × UInt8 × UInt64) :
    Store × Option OwnedPacket :=
  let (expected, assembled) := assemble 0 entry.pieces.toList
  if entry.totalLen = some expected then
    (Function.update store key none, some ⟨entry.info, assembled⟩)
  else
    (Function.update store key (some entry), none)

/-- A fragment arrives: the new store and the packet it completes, if it does. -/
def addFragment (store : Store) (info : FfiPacketInfo) (messageType : TdmaMessageType)
    (fragment : TdmaFragment) (data : Bytes) (now : ℤ) : Store × Option OwnedPacket :=
  if fragment.offset + data.length > 64 * 2 ^ 20 then (store, none)
  else
    let key := (info.source, info.priority, fragment.sequence)
    let entry := (store key).getD
      { info, messageType, totalLen := none, pieces := ∅, lastUpdateUs := now }
    (entry.add fragment data now).settle store key

/-- The loop body of `complete_receive`: the new store, and the packet that is handed upward. -/
def receiveMessage (receiver : Receiver) (store : Store) (source : UInt16) (message : TdmaMessage)
    (now : ℤ) : Store × Option OwnedPacket :=
  match TdmaMessageType.tryFrom message.messageType with
  | none => (store, none)
  | some messageType =>
      if message.destination < 65536 ∧ message.priority < 256 then
        let destination := UInt16.ofNat message.destination
        if receiver.accepts destination then
          let info := ⟨source, destination, UInt8.ofNat message.priority⟩
          let r := match message.fragment with
            | some fragment => addFragment store info messageType fragment message.data now
            | none => (store, some ⟨info, message.data⟩)
          -- control messages are not handed upward
          (r.1, if messageType = .control then none else r.2)
        else (store, none)
      else (store, none)

/-- `complete_receive` for a frame that passed the reception tests: the new store, and the packets
that are handed upward. -/
def completeReceive (receiver : Receiver) (store : Store) (source : UInt16)
    (wire : TdmaBaseModelMessage) (now : ℤ) : Store × List OwnedPacket :=
  Collector.outputRun (fun store message => receiveMessage receiver store source message now)
    (expireReassembly receiver.fragmentTimeoutUs now store) wire.messages

/-! ## A receiver's run -/

/-- What happens at a receiver: a frame of the observed sender is received, or one of another source,
the reassembly check is due, or a full schedule clears the entries. -/
inductive Event
  | frame (frame : Frame) (now : ℤ)
  | other (source : UInt16) (wire : TdmaBaseModelMessage) (now : ℤ)
  | check (now : ℤ)
  | clear

/-- One event at a receiver that hears `sender`. -/
def receive (receiver : Receiver) (sender : UInt16) (store : Store) :
    Event → Store × List OwnedPacket
  | .frame frame now => completeReceive receiver store sender frame.wire now
  | .other source wire now => completeReceive receiver store source wire now
  | .check now => (expireReassembly receiver.fragmentTimeoutUs now store, [])
  | .clear => (fun _ => none, [])

/-- The run of a receiver with an empty store. -/
def receiverRun (receiver : Receiver) (sender : UInt16) (events : List Event) :
    Store × List OwnedPacket :=
  events.foldl (fun r event =>
    ((receive receiver sender r.1 event).1, r.2 ++ (receive receiver sender r.1 event).2))
    (fun _ => none, [])

/-! ## Single actions

An event is a sequence of actions: the removal of entries, and one message after the other. -/

inductive Action
  | component (component : Component) (now : ℤ)
  | message (source : UInt16) (message : TdmaMessage) (now : ℤ)
  | expire (now : ℤ)
  | clear

/-- The actions of an event. -/
def Event.actions : Event → List Action
  | .frame sent now => .expire now :: sent.components.map (.component · now)
  | .other source wire now => .expire now :: wire.messages.map (.message source · now)
  | .check now => [.expire now]
  | .clear => [.clear]

section

variable (receiver : Receiver) (sender : UInt16)

/-- What an action does apart from the removal of entries. -/
def act (store : Store) : Action → Store × Option OwnedPacket
  | .component component now => receiveMessage receiver store sender (wireMessage component) now
  | .message source message now => receiveMessage receiver store source message now
  | .expire _ => (store, none)
  | .clear => (store, none)

/-- The removal of entries. -/
def remove (store : Store) : Action → Store
  | .component _ _ => store
  | .message _ _ _ => store
  | .expire now => expireReassembly receiver.fragmentTimeoutUs now store
  | .clear => fun _ => none

/-- The run of a receiver over single actions. -/
def actionRun (store : Store) (actions : List Action) : Store × List OwnedPacket :=
  Collector.outputRun (Collector.forgetting (act receiver sender) (remove receiver)) store actions

end

section

variable {receiver : Receiver} {sender : UInt16}

theorem actionRun_expire (store : Store) (now : ℤ) (actions : List Action) :
    actionRun receiver sender store (.expire now :: actions) =
      actionRun receiver sender (expireReassembly receiver.fragmentTimeoutUs now store) actions := rfl

/-- An event is its actions. -/
theorem receive_eq_actionRun (store : Store) (event : Event) :
    receive receiver sender store event = actionRun receiver sender store event.actions := by
  cases event with
  | frame sent now =>
      have hmap : ∀ store, actionRun receiver sender store (sent.components.map (.component · now)) =
          Collector.outputRun (fun store message => receiveMessage receiver store sender message now)
            store (sent.components.map wireMessage) := by
        intro store
        rw [actionRun, Collector.outputRun_map, Collector.outputRun_map]
        rfl
      rw [Event.actions, actionRun_expire, hmap]
      rfl
  | other source wire now =>
      have hmap : ∀ store, actionRun receiver sender store (wire.messages.map (.message source · now)) =
          Collector.outputRun (fun store message => receiveMessage receiver store source message now)
            store wire.messages := by
        intro store
        rw [actionRun, Collector.outputRun_map]
        rfl
      rw [Event.actions, actionRun_expire, hmap]
      rfl
  | check now => rfl
  | clear => rfl

/-- A run over events is the run over their actions. -/
theorem receiverRun_eq_actionRun (events : List Event) :
    receiverRun receiver sender events =
      actionRun receiver sender (fun _ => none) (events.flatMap Event.actions) := by
  induction events using List.reverseRecOn with
  | nil => rfl
  | append_singleton events event ih =>
      rw [List.flatMap_append, List.flatMap_singleton, actionRun, Collector.outputRun_append,
        ← actionRun, ← actionRun, ← ih, ← receive_eq_actionRun, receiverRun, List.foldl_append]
      rfl

end

/-! ## Entries -/

/-- The scan stops after some of the pieces. -/
theorem assemble_eq (ps : List (ℕ × Bytes)) (o : ℕ) :
    ∃ qs, qs <+: ps ∧ assemble o ps = (o + (joined id qs).length, joined id qs) := by
  induction ps generalizing o with
  | nil => exact ⟨[], List.prefix_refl _, rfl⟩
  | cons p ps ih =>
      obtain ⟨offset, piece⟩ := p
      rw [assemble]
      split
      · exact ⟨[], List.nil_prefix, rfl⟩
      · obtain ⟨qs, hpart, heq⟩ := ih (o + piece.length)
        refine ⟨(offset, piece) :: qs, List.cons_prefix_cons.mpr ⟨rfl, hpart⟩, ?_⟩
        rw [heq]
        simp [joined, Nat.add_assoc]

/-- The scan of pieces without gaps reaches their end. -/
theorem assemble_of_tiles (ps : List (ℕ × Bytes)) (o : ℕ) (h : Tiles id o ps) :
    assemble o ps = (o + (joined id ps).length, joined id ps) := by
  induction ps generalizing o with
  | nil => rfl
  | cons p ps ih =>
      obtain ⟨offset, piece⟩ := p
      obtain ⟨rfl, -, htail⟩ := h
      rw [assemble, if_neg (not_not.mpr rfl)]
      simp only [id_eq] at htail
      rw [ih _ htail]
      simp [joined, Nat.add_assoc]

/-- The fragment of a component on the wire. -/
def wireFragment (c : Component) : TdmaFragment :=
  { more := c.more, index := c.fragmentIndex, offset := c.offset, sequence := c.sequence }

/-- A packet as the receiver hands it upward. -/
def delivered (sender : UInt16) (packet : OwnedPacket) : OwnedPacket :=
  ⟨⟨sender, packet.info.destination, packet.info.priority⟩, packet.payload⟩

/-- An entry that has received the components `received` of packet `packet`. -/
structure Represents (sender : UInt16) (packet : OwnedPacket) (entry : Reassembly)
    (received : Finset Component) : Prop where
  info : entry.info = ⟨sender, packet.info.destination, packet.info.priority⟩
  holds : Holds cutting.place entry.pieces received
  total_eq : ∀ l, entry.totalLen = some l → l = packet.payload.length
  total_ne : ∀ c ∈ received, c.more = false → entry.totalLen ≠ none

section

variable {sender : UInt16} {packet : OwnedPacket} {sequence : UInt64} {cs : List Component}
  {entry : Reassembly} {received : Finset Component} {c : Component}

/-- A component of a packet. -/
theorem component_eq (hcut : cutting.CutTo sequence packet packet.payload.length cs) (hc : c ∈ cs) :
    c.sequence = sequence ∧ c.info = packet.info ∧ c.offset + c.bytes.length ≤ packet.payload.length ∧
      (c.more = false → c.offset + c.bytes.length = packet.payload.length) := by
  obtain ⟨n, hn⟩ := List.getElem?_of_mem hc
  obtain ⟨o, size, rfl, hle, -⟩ := hcut.of_getElem? n c hn
  have hlen : (packet.payload.extract o (o + size)).length = size := by
    rw [List.extract_eq_take_drop, List.length_take, List.length_drop]
    omega
  refine ⟨rfl, rfl, ?_, fun hmore => ?_⟩
  · change o + (packet.payload.extract o (o + size)).length ≤ _
    rwa [hlen]
  · change o + (packet.payload.extract o (o + size)).length = _
    have hnot : ¬ o + size < packet.payload.length := of_decide_eq_false hmore
    rw [hlen]
    omega

/-- Every packet has a last component. -/
theorem exists_last (hcut : cutting.CutTo sequence packet packet.payload.length cs) (hne : cs ≠ []) :
    ∃ c ∈ cs, c.more = false := by
  obtain ⟨o, n, size, hmem, hend⟩ := hcut.exists_last hne
  exact ⟨_, hmem, decide_eq_false (by omega)⟩

/-- A packet with a fragment is not empty. -/
theorem payload_ne_nil (hcut : cutting.CutTo sequence packet packet.payload.length cs) (hc : c ∈ cs)
    (hfragment : c.offset ≠ 0 ∨ c.more = true) : packet.payload ≠ [] := by
  intro hempty
  obtain ⟨n, hn⟩ := List.getElem?_of_mem hc
  obtain ⟨o, size, rfl, hle, -⟩ := hcut.of_getElem? n c hn
  rw [hempty, List.length_nil] at hle
  rcases hfragment with hoffset | hmore
  · exact hoffset (by change o = 0; omega)
  · have hlt : o + size < packet.payload.length := of_decide_eq_true hmore
    rw [hempty, List.length_nil] at hlt
    omega

/-- A component that is not a fragment is the whole packet. -/
theorem whole_of_unfragmented (hcut : cutting.CutTo sequence packet packet.payload.length cs)
    (hc : c ∈ cs) (hfragment : ¬ (c.offset ≠ 0 ∨ c.more = true)) :
    cs = [c] ∧ c.bytes = packet.payload := by
  obtain ⟨hzero, hmore⟩ := not_or.mp hfragment
  rw [not_not] at hzero
  constructor
  · refine hcut.eq_singleton hc ?_
    rintro o n size rfl hle
    have hnot : ¬ o + size < packet.payload.length := of_decide_eq_false (Bool.eq_false_iff.mpr hmore)
    exact ⟨hzero, by omega⟩
  · obtain ⟨n, hn⟩ := List.getElem?_of_mem hc
    obtain ⟨o, size, rfl, hle, -⟩ := hcut.of_getElem? n c hn
    have hnot : ¬ o + size < packet.payload.length := of_decide_eq_false (Bool.eq_false_iff.mpr hmore)
    obtain rfl : o = 0 := hzero
    change packet.payload.extract 0 (0 + size) = packet.payload
    rw [List.extract_eq_take_drop, List.drop_zero]
    exact List.take_of_length_le (by omega)

/-- The entry after a component. -/
theorem Represents.add (hcut : cutting.CutTo sequence packet packet.payload.length cs)
    (hne : packet.payload ≠ []) (h : Represents sender packet entry received)
    (hsub : received ⊆ cs.toFinset) (hc : c ∈ cs) (now : ℤ) :
    Represents sender packet (entry.add (wireFragment c) c.bytes now) (insert c received) := by
  have hholds : Holds cutting.place (entry.pieces.insertIfNew c.offset c.bytes) (insert c received) :=
    h.holds.insertIfNew fun e he heq =>
      (hcut.tiles hne).offset_inj (List.mem_toFinset.mp (hsub he)) hc heq
  have hget : (entry.pieces.insertIfNew c.offset c.bytes)[c.offset]? = some c.bytes :=
    (hholds _ _).mpr ⟨c, Finset.mem_insert_self c received, rfl⟩
  have htotal : (entry.add (wireFragment c) c.bytes now).totalLen =
      if c.more then entry.totalLen else some (c.offset + c.bytes.length) := by
    simp only [Reassembly.add, wireFragment, hget, Option.map_some]
  constructor
  · exact h.info
  · exact hholds
  · intro l hl
    rw [htotal] at hl
    split at hl
    · exact h.total_eq l hl
    · next hmore =>
        rw [← Option.some.inj hl]
        exact (component_eq hcut hc).2.2.2 (Bool.eq_false_iff.mpr hmore)
  · intro d hd hmore
    rw [htotal]
    split
    · next hcmore =>
        rcases Finset.mem_insert.mp hd with rfl | hd
        · rw [hmore] at hcmore
          cases hcmore
        · exact h.total_ne d hd hmore
    · simp

/-- **The scan reaches the end exactly when every component was received**, and then yields the
payload. -/
theorem Represents.complete_iff (hcut : cutting.CutTo sequence packet packet.payload.length cs)
    (hne : packet.payload ≠ []) (h : Represents sender packet entry received)
    (hsub : received ⊆ cs.toFinset) :
    (entry.totalLen = some (assemble 0 entry.pieces.toList).1 ↔ received = cs.toFinset) ∧
      (received = cs.toFinset → (assemble 0 entry.pieces.toList).2 = packet.payload) := by
  have htiles := hcut.tiles hne
  have hiff := h.holds.toList_eq_iff htiles hsub
  have hall : received = cs.toFinset →
      assemble 0 entry.pieces.toList = (packet.payload.length, packet.payload) := by
    intro heq
    rw [hiff.mpr heq, assemble_of_tiles _ 0 htiles, Nat.zero_add]
    exact Prod.ext hcut.length_joined (hcut.joined_eq.trans (List.take_length ..))
  refine ⟨⟨fun htotal => ?_, fun heq => ?_⟩, fun heq => by rw [hall heq]⟩
  · -- the scanned pieces are as long as the packet, so they are all of its components
    obtain ⟨qs, hpart, hscan⟩ := assemble_eq entry.pieces.toList 0
    rw [hscan] at htotal
    have hlen := h.total_eq _ htotal
    have hsublist := h.holds.sublist htiles hsub
    have hqs : qs = cs.map cutting.place := by
      refine htiles.eq_of_sublist (hpart.sublist.trans hsublist) ?_
      have hjoined : (joined id (cs.map cutting.place)).length = packet.payload.length :=
        hcut.length_joined
      change (joined id (cs.map cutting.place)).length ≤ (joined id qs).length
      omega
    rw [← hiff]
    exact hsublist.antisymm (hqs ▸ hpart.sublist)
  · obtain ⟨d, hd, hmore⟩ := exists_last hcut (by
      rintro rfl
      exact hne (List.eq_nil_of_length_eq_zero hcut.length_joined.symm))
    obtain ⟨l, hl⟩ := Option.ne_none_iff_exists'.mp
      (h.total_ne d (heq ▸ List.mem_toFinset.mpr hd) hmore)
    rw [hl, hall heq, h.total_eq l hl]

/-- What becomes of the slot of a packet when its entry is settled. -/
theorem Represents.settle (hcut : cutting.CutTo sequence packet packet.payload.length cs)
    (hne : packet.payload ≠ []) (hc : c ∈ cs) (hsub : received ⊆ cs.toFinset)
    (h : Represents sender packet entry (insert c received)) (store : Store)
    (key : UInt16 × UInt8 × UInt64) :
    ∃ slot out, entry.settle store key = (Function.update store key slot, out) ∧
      SlotStep (Represents sender packet) cs received c (delivered sender packet) slot out := by
  have hsub' : insert c received ⊆ cs.toFinset :=
    Finset.insert_subset (List.mem_toFinset.mpr hc) hsub
  obtain ⟨hiff, hpayload⟩ := h.complete_iff hcut hne hsub'
  unfold Reassembly.settle
  dsimp only
  split
  · next hcomplete =>
      have hall := hiff.mp hcomplete
      refine ⟨_, _, rfl, fun _ => ⟨shows_none (List.ne_nil_of_mem hc), ?_⟩, fun hnot => absurd hall hnot⟩
      rw [h.info, hpayload hall, delivered]
  · next hincomplete =>
      have hnot : insert c received ≠ cs.toFinset := fun hall => hincomplete (hiff.mpr hall)
      refine ⟨_, _, rfl, fun hall => absurd hall hnot, fun _ => ⟨⟨hsub', hnot, by simp, ?_⟩, rfl⟩⟩
      exact fun _ heq => Option.some.inj heq ▸ h

/-- **What a fragment does to the slot of its packet.** Other slots stay as they are. -/
theorem addFragment_spec {store : Store}
    (hcut : cutting.CutTo sequence packet packet.payload.length cs)
    (hsmall : packet.payload.length ≤ 64 * 2 ^ 20) (hc : c ∈ cs)
    (hfragment : c.offset ≠ 0 ∨ c.more = true)
    (h : Shows (Represents sender packet) cs (store (sender, packet.info.priority, sequence)) received)
    (messageType : TdmaMessageType) (now : ℤ) :
    ∃ slot out, addFragment store ⟨sender, packet.info.destination, packet.info.priority⟩ messageType
        (wireFragment c) c.bytes now =
          (Function.update store (sender, packet.info.priority, sequence) slot, out) ∧
      SlotStep (Represents sender packet) cs received c (delivered sender packet) slot out := by
  have hne := payload_ne_nil hcut hc hfragment
  obtain ⟨hkey, -, hend, -⟩ := component_eq hcut hc
  -- the entry that is there or is made
  have hrep : Represents sender packet ((store (sender, packet.info.priority, sequence)).getD
      { info := ⟨sender, packet.info.destination, packet.info.priority⟩, messageType
        totalLen := none, pieces := ∅, lastUpdateUs := now }) received := by
    cases hslot : store (sender, packet.info.priority, sequence) with
    | some entry => exact h.entry entry hslot
    | none =>
        rw [h.empty hslot]
        exact ⟨rfl, holds_empty, by simp, by simp⟩
  have hsettle := (hrep.add hcut hne h.sub hc now).settle hcut hne hc h.sub store
    (sender, packet.info.priority, sequence)
  have hfits : ¬ (wireFragment c).offset + c.bytes.length > 64 * 2 ^ 20 := by
    change ¬ c.offset + c.bytes.length > 64 * 2 ^ 20
    omega
  have hsequence : (wireFragment c).sequence = sequence := hkey
  rw [addFragment, if_neg hfits]
  simp only [hsequence]
  exact hsettle

end

/-! ## The receiver simulates the collector -/

/-- Packet number `k` of a sender. -/
def packetOf (s : Sender) (k : UInt64) : OwnedPacket :=
  (Cutting.itemOf s.numbered k).getD ⟨⟨0, 0, 0⟩, []⟩

/-- Where a receiver keeps packet number `k`. -/
def address (s : Sender) (sender : UInt16) (k : UInt64) : UInt16 × UInt8 × UInt64 :=
  (sender, (packetOf s k).info.priority, k)

theorem packetOf_eq {s : Sender} (hinv : s.Inv) {k : UInt64} {packet : OwnedPacket}
    (h : (k, packet) ∈ s.numbered) : packetOf s k = packet := by
  rw [packetOf, hinv.cut.itemOf_eq h]
  rfl

theorem address_injective (s : Sender) (sender : UInt16) : Function.Injective (address s sender) :=
  fun _ _ h => (Prod.mk.inj (Prod.mk.inj h).2).2

/-- Entries are filed under their own source. -/
def Filed (store : Store) : Prop := ∀ key entry, store key = some entry → entry.info.source = key.1

/-- The store represents what the collector has received of each packet of the sender. -/
structure StoreRepresents (s : Sender) (plan : UInt64 → List Component) (sender : UInt16)
    (store : Store) (received : UInt64 → Finset Component) : Prop where
  shows : StoreShows (fun k => Represents sender (packetOf s k)) plan (address s sender) store received
  filed : Filed store

/-- The actions of a receiver that hears `sender`: components that it took from its queues, or
messages of other sources. -/
def Action.From (s : Sender) (sender : UInt16) : Action → Prop
  | .component c _ => c ∈ s.taken
  | .message source _ _ => source ≠ sender
  | .expire _ => True
  | .clear => True

/-- The component of the sender that an action handles, if the receiver takes it. -/
def Action.view (receiver : Receiver) : Action → Option Component
  | .component c _ => if receiver.accepts c.info.destination then some c else none
  | .message .. => none
  | .expire _ => none
  | .clear => none

theorem Filed.update {store : Store} (h : Filed store) (key : UInt16 × UInt8 × UInt64)
    {slot : Option Reassembly} (hslot : ∀ entry, slot = some entry → entry.info.source = key.1) :
    Filed (Function.update store key slot) := by
  intro key' entry hentry
  by_cases hkey : key' = key
  · subst hkey
    rw [Function.update_self] at hentry
    exact hslot entry hentry
  · rw [Function.update_of_ne hkey] at hentry
    exact h key' entry hentry

/-- A fragment of any source touches one slot of that source, and a packet it completes is from it. -/
theorem addFragment_source {store : Store} (h : Filed store) (info : FfiPacketInfo)
    (messageType : TdmaMessageType) (fragment : TdmaFragment) (data : Bytes) (now : ℤ) :
    Filed (addFragment store info messageType fragment data now).1 ∧
      (∀ key, key.1 ≠ info.source →
        (addFragment store info messageType fragment data now).1 key = store key) ∧
      ∀ o ∈ (addFragment store info messageType fragment data now).2, o.info.source = info.source := by
  unfold addFragment
  split
  · exact ⟨h, fun _ _ => rfl, by simp⟩
  have hinfo : (((store (info.source, info.priority, fragment.sequence)).getD
      { info, messageType, totalLen := none, pieces := ∅, lastUpdateUs := now }).add
        fragment data now).info.source = info.source := by
    cases hslot : store (info.source, info.priority, fragment.sequence) with
    | some entry => exact h _ entry hslot
    | none => rfl
  have hother : ∀ slot, ∀ key : UInt16 × UInt8 × UInt64, key.1 ≠ info.source →
      Function.update store (info.source, info.priority, fragment.sequence) slot key = store key :=
    fun slot key hne => Function.update_of_ne (fun heq => hne (congrArg Prod.fst heq)) _ _
  unfold Reassembly.settle
  dsimp only
  split
  · refine ⟨h.update _ (by simp), hother _, fun o ho => ?_⟩
    rw [← Option.some.inj ho]
    exact hinfo
  · exact ⟨h.update _ fun _ heq => Option.some.inj heq ▸ hinfo, hother _, by simp⟩

/-- The same for a message. -/
theorem receiveMessage_source {store : Store} (h : Filed store) (receiver : Receiver)
    (source : UInt16) (message : TdmaMessage) (now : ℤ) :
    Filed (receiveMessage receiver store source message now).1 ∧
      (∀ key, key.1 ≠ source → (receiveMessage receiver store source message now).1 key = store key) ∧
      ∀ o ∈ (receiveMessage receiver store source message now).2, o.info.source = source := by
  have hnone : Filed store ∧ (∀ key : UInt16 × UInt8 × UInt64, key.1 ≠ source → store key = store key) ∧
      ∀ o ∈ (none : Option OwnedPacket), o.info.source = source := ⟨h, fun _ _ => rfl, by simp⟩
  unfold receiveMessage
  split
  · exact hnone
  split
  · dsimp only
    split
    · split
      · next fragment _ =>
          obtain ⟨hfiled, hother, hout⟩ := addFragment_source h
            ⟨source, UInt16.ofNat message.destination, UInt8.ofNat message.priority⟩ _ fragment
            message.data now
          refine ⟨hfiled, hother, fun o ho => ?_⟩
          split at ho
          · cases ho
          · exact hout o ho
      · refine ⟨h, fun _ _ => rfl, fun o ho => ?_⟩
        split at ho
        · cases ho
        · rw [← Option.some.inj ho]
    · exact hnone
  · exact hnone

section

variable {s : Sender} {plan : UInt64 → List Component} {receiver : Receiver} {sender : UInt16}
  {store : Store} {received : UInt64 → Finset Component}

theorem storeRepresents_empty : StoreRepresents s plan sender (fun _ => none) fun _ => ∅ where
  shows := storeShows_empty
  filed := by simp [Filed]

/-- A component of a packet of the sender, as the receiver handles it. -/
theorem receiveMessage_component {packet : OwnedPacket} {sequence : UInt64} {cs : List Component}
    {c : Component} (hcut : cutting.CutTo sequence packet packet.payload.length cs) (hc : c ∈ cs)
    (hsmall : packet.payload.length ≤ 64 * 2 ^ 20) (now : ℤ) :
    receiveMessage receiver store sender (wireMessage c) now =
      if receiver.accepts packet.info.destination then
        if c.offset ≠ 0 ∨ c.more = true then
          addFragment store ⟨sender, packet.info.destination, packet.info.priority⟩ .data
            (wireFragment c) c.bytes now
        else (store, some ⟨⟨sender, packet.info.destination, packet.info.priority⟩, c.bytes⟩)
      else (store, none) := by
  obtain ⟨-, hinfo, hend, -⟩ := component_eq hcut hc
  have hoffset : c.offset < 2 ^ 32 := by omega
  have hranges : (wireMessage c).destination < 65536 ∧ (wireMessage c).priority < 256 :=
    ⟨c.info.destination.toNat_lt, c.info.priority.toNat_lt⟩
  have hfragment : (wireMessage c).fragment =
      if c.offset ≠ 0 ∨ c.more = true then some (wireFragment c) else none := by
    simp only [wireMessage, wireFragment, if_pos hoffset]
  have htype : TdmaMessageType.tryFrom (wireMessage c).messageType = some .data := rfl
  rw [receiveMessage, htype]
  dsimp only
  rw [if_pos hranges, hfragment]
  simp only [wireMessage, UInt16.ofNat_toNat, UInt8.ofNat_toNat, hinfo]
  by_cases hfrag : c.offset ≠ 0 ∨ c.more = true
  · simp only [if_pos hfrag, reduceCtorEq, if_false]
  · simp only [if_neg hfrag, reduceCtorEq, if_false]

theorem simulates_part (hplan : cutting.Plan s.numbered s.taken plan) (hinv : s.Inv) {c : Component}
    {now : ℤ} (hc : c ∈ s.taken) (haccepts : receiver.accepts c.info.destination = true)
    (h : StoreRepresents s plan sender store received) :
    StoreRepresents s plan sender (act receiver sender store (.component c now)).1
        (hplan.collector.arrive received c).1 ∧
      (act receiver sender store (.component c now)).2 =
        (hplan.collector.arrive received c).2.map fun k => delivered sender (packetOf s k) := by
  obtain ⟨packet, hpacket, hmem⟩ := hplan.mem_plan hinv.cut hc
  have hcut := hplan.cut _ hpacket
  have hsmall := hinv.small _ hpacket
  have hof : packetOf s c.sequence = packet := packetOf_eq hinv hpacket
  have hinfo := (component_eq hcut hmem).2.1
  have hshows := h.shows c.sequence (List.ne_nil_of_mem hmem)
  -- what the message does to the slot of its packet
  obtain ⟨slot, out, hact, hstep⟩ : ∃ slot out, act receiver sender store (.component c now) =
        (Function.update store (address s sender c.sequence) slot, out) ∧
      SlotStep (Represents sender (packetOf s c.sequence)) (plan c.sequence) (received c.sequence) c
        (delivered sender (packetOf s c.sequence)) slot out := by
    rw [act, receiveMessage_component hcut hmem hsmall, ← hinfo, if_pos haccepts, hinfo]
    simp only [address, hof] at hshows ⊢
    split
    · next hfragment => exact addFragment_spec hcut hsmall hmem hfragment hshows _ now
    · next hfragment =>
        -- the component is the whole packet, of which nothing else is ever received
        obtain ⟨hone, hbytes⟩ := whole_of_unfragmented hcut hmem hfragment
        have hnone : received c.sequence = ∅ := by
          have hsub := hshows.sub
          have hincomplete := hshows.incomplete
          change plan c.sequence = [c] at hone
          simp only [hone, List.toFinset_cons, List.toFinset_nil, insert_empty_eq] at hsub hincomplete
          exact (Finset.subset_singleton_iff.mp hsub).resolve_right hincomplete
        refine ⟨store (sender, packet.info.priority, c.sequence), _,
          by rw [Function.update_eq_self], fun _ => ⟨hnone ▸ hshows, ?_⟩, fun hnot => absurd ?_ hnot⟩
        · rw [hbytes]
          rfl
        · rw [hnone, show plan c.sequence = [c] from hone]
          rfl
  have hfiled : Filed (act receiver sender store (.component c now)).1 :=
    (receiveMessage_source h.filed receiver sender (wireMessage c) now).1
  rw [hact] at hfiled ⊢
  obtain ⟨hshows', hout⟩ := h.shows.part hplan.collector (fun _ => rfl) (address_injective s sender)
    (fun k => delivered sender (packetOf s k)) hstep
  exact ⟨⟨hshows', hfiled⟩, hout⟩

/-- **The receiver simulates the collector** as long as no entry is removed. -/
theorem simulates (receiver : Receiver) (sender : UInt16)
    (hplan : cutting.Plan s.numbered s.taken plan) (hinv : s.Inv) :
    hplan.collector.Simulates (act receiver sender) (StoreRepresents s plan sender)
      (Action.From s sender) (Action.view receiver) (fun k => delivered sender (packetOf s k))
      (fun o => o.info.source == sender) where
  own_out _ := beq_self_eq_true sender
  part := by
    intro store received action c hfrom hview h
    cases action with
    | component d now =>
        rw [Action.view] at hview
        split at hview
        · next haccepts =>
            cases hview
            exact simulates_part hplan hinv hfrom haccepts h
        · cases hview
    | message source message now => cases hview
    | expire now => cases hview
    | clear => cases hview
  other := by
    intro store received action hfrom hview h
    cases action with
    | component c now =>
        -- a message for another destination is dropped
        obtain ⟨packet, hpacket, hmem⟩ := hplan.mem_plan hinv.cut hfrom
        have hinfo := (component_eq (hplan.cut _ hpacket) hmem).2.1
        have hrejects : ¬ receiver.accepts packet.info.destination = true := by
          rw [← hinfo]
          intro haccepts
          rw [Action.view, if_pos haccepts] at hview
          cases hview
        rw [act, receiveMessage_component (hplan.cut _ hpacket) hmem (hinv.small _ hpacket),
          if_neg hrejects]
        exact ⟨h, by simp⟩
    | message source message now =>
        obtain ⟨hfiled, hother, hout⟩ := receiveMessage_source h.filed receiver source message now
        refine ⟨⟨fun k hne => ?_, hfiled⟩, fun o ho => ?_⟩
        · rw [act, hother (address s sender k) (Ne.symm hfrom)]
          exact h.shows k hne
        · rw [hout o ho]
          exact beq_false_of_ne hfrom
    | expire now => exact ⟨h, by simp [act]⟩
    | clear => exact ⟨h, by simp [act]⟩

/-- The removal of entries makes the collector forget what it has received of some packets. -/
theorem StoreRepresents.forget (h : StoreRepresents s plan sender store received) (action : Action) :
    ∃ received', StoreRepresents s plan sender (remove receiver store action) received' := by
  have hsub : ∀ key, remove receiver store action key = store key ∨
      remove receiver store action key = none := by
    intro key
    cases action with
    | component c now => exact Or.inl rfl
    | message source message now => exact Or.inl rfl
    | expire now =>
        simp only [remove, expireReassembly]
        cases store key with
        | none => exact Or.inl rfl
        | some entry =>
            rw [Option.filter_some]
            split
            · exact Or.inl rfl
            · exact Or.inr rfl
    | clear => exact Or.inr rfl
  obtain ⟨received', hshows⟩ := h.shows.forget hsub
  refine ⟨received', hshows, fun key entry hentry => h.filed key entry ?_⟩
  rw [← (hsub key).resolve_right (by simp [hentry])]
  exact hentry

end

end Emane.Tdma
