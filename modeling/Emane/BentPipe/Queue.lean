import Mathlib
import Emane.Lib.Bytes
import Emane.Lib.Fragments

set_option autoImplicit false

/-! # The transmit queues of a BentPipe transponder

`enqueue` numbers the packets that are accepted and drops packets of a full queue;
`dequeueComponents` takes packets, or fragments of the packet in front, until the MTU is used up.

`CutTo p seq o cs` says that the components `cs` are the successive cuts of packet `p` up to offset
`o`. The invariant of a sender's whole run (`Sender.Inv`) is that the components handed out for each
packet are such cuts, and that a packet still queued continues where they end.
-/

namespace Emane.BentPipe

open Emane.Lib

/-! ## Packets and components -/

/-- The packet information the queues and the reassembly use. -/
structure FfiPacketInfo where
  source : UInt16
  destination : UInt16
  deriving DecidableEq

structure OwnedPacket where
  info : FfiPacketInfo
  payload : Bytes
  deriving DecidableEq

/-- `own_packet`: a payload of more than 64 MiB is refused. -/
def ownPacket (info : FfiPacketInfo) (payload : Bytes) : Option OwnedPacket :=
  if payload.length > 64 * 2 ^ 20 then none else some { info, payload }

structure PendingTx where
  packet : OwnedPacket
  sequence : UInt64
  offset : ℕ
  fragmentIndex : ℕ
  readyAt : ℤ
  deriving DecidableEq

structure TxComponent where
  packet : OwnedPacket
  sequence : UInt64
  offset : ℕ
  fragmentIndex : ℕ
  more : Bool
  fragmented : Bool
  deriving DecidableEq

structure Transponder where
  transmitEnable : Bool
  transmitMtuBytes : ℕ
  transmitSlotSizeUs : ℕ
  transmitDataRateBps : ℕ

/-- `effective_mtu` -/
def effectiveMtu (transponder : Transponder) : ℕ :=
  if transponder.transmitMtuBytes ≠ 0 then
    transponder.transmitMtuBytes
  else if transponder.transmitSlotSizeUs ≠ 0 then
    transponder.transmitDataRateBps * transponder.transmitSlotSizeUs / 8000000
  else
    0

/-- The part of the layer's state that the queues use. -/
structure State where
  transponders : UInt16 → Option Transponder
  queueDepth : ℕ
  aggregationEnable : Bool
  fragmentationEnable : Bool
  packetSequence : UInt64
  queues : UInt16 → List PendingTx

/-! ## Enqueue -/

/-- The packet a full queue drops: the first one of which nothing was sent, else the first. -/
def dropPosition (queue : List PendingTx) : ℕ :=
  (queue.findIdx? fun entry => entry.offset == 0).getD 0

/-- The loop that makes room for a packet: the queue and the dropped packets. Each turn drops one, so
`queue.length` turns do. -/
def makeRoom (depth : ℕ) : ℕ → List PendingTx → List PendingTx × List OwnedPacket
  | 0, queue => (queue, [])
  | turns + 1, queue =>
      if depth ≤ queue.length then
        let position := dropPosition queue
        let (room, dropped) := makeRoom depth turns (queue.eraseIdx position)
        (room, (queue[position]?.map PendingTx.packet).toList ++ dropped)
      else
        (queue, [])

/-- The entry a packet gets. -/
def newEntry (packet : OwnedPacket) (sequence : UInt64) (readyAt : ℤ) : PendingTx :=
  { packet, sequence, offset := 0, fragmentIndex := 0, readyAt }

/-- What `enqueue` does: the state, its result, the number of the entry if the packet got one, and
the packets recorded as overflow. -/
structure EnqueueResult where
  state : State
  queued : Bool
  sequence : Option UInt64
  overflow : List OwnedPacket

/-- `enqueue` -/
def enqueue (state : State) (index : UInt16) (packet : OwnedPacket) (readyAt : ℤ) : EnqueueResult :=
  match state.transponders index with
  | none => ⟨state, false, none, []⟩
  | some transponder =>
      if !transponder.transmitEnable then ⟨state, false, none, []⟩
      else if effectiveMtu transponder = 0 then ⟨state, false, none, []⟩
      else if state.queueDepth = 0 then ⟨state, true, none, [packet]⟩
      else
        let sequence := state.packetSequence
        let (queue, dropped) :=
          makeRoom state.queueDepth (state.queues index).length (state.queues index)
        ⟨{ state with
            packetSequence := state.packetSequence + 1
            queues := Function.update state.queues index
              (queue ++ [newEntry packet sequence readyAt]) }, true, some sequence, dropped⟩

/-! ## Dequeue -/

/-- What the loop of `dequeue_components` leaves: the queue, the components and the packets recorded
as too big. -/
structure DequeueResult where
  queue : List PendingTx
  components : List TxComponent
  tooBig : List OwnedPacket

/-- The component that takes all that is left of a packet. -/
def lastComponent (pending : PendingTx) : TxComponent where
  packet := { pending.packet with payload := pending.packet.payload.drop pending.offset }
  sequence := pending.sequence
  offset := pending.offset
  fragmentIndex := pending.fragmentIndex
  more := false
  fragmented := pending.offset != 0

/-- The component that takes the next `available` bytes of a packet. -/
def nextFragment (pending : PendingTx) (available : ℕ) : TxComponent where
  packet := { pending.packet with
    payload := pending.packet.payload.extract pending.offset (pending.offset + available) }
  sequence := pending.sequence
  offset := pending.offset
  fragmentIndex := pending.fragmentIndex
  more := true
  fragmented := true

/-- The entry after its next `available` bytes were taken; the 32-bit index saturates. -/
def advance (pending : PendingTx) (available : ℕ) : PendingTx :=
  { pending with
    offset := pending.offset + available
    fragmentIndex := min (pending.fragmentIndex + 1) (2 ^ 32 - 1) }

/-- The loop of `dequeue_components` when `used` bytes are used. -/
def dequeueLoop (aggregate fragment : Bool) (mtu : ℕ) (now : ℤ) : ℕ → List PendingTx → DequeueResult
  | _, [] => ⟨[], [], []⟩
  | used, front :: rest =>
      if ¬ used < mtu then ⟨front :: rest, [], []⟩
      else if front.readyAt > now then ⟨front :: rest, [], []⟩
      else
        let remaining := front.packet.payload.length - front.offset
        let available := mtu - used
        if remaining = 0 then
          dequeueLoop aggregate fragment mtu now used rest
        else if remaining ≤ available then
          if !aggregate then
            ⟨rest, [lastComponent front], []⟩
          else
            let r := dequeueLoop aggregate fragment mtu now (used + remaining) rest
            ⟨r.queue, lastComponent front :: r.components, r.tooBig⟩
        else if fragment then
          ⟨advance front available :: rest, [nextFragment front available], []⟩
        else
          -- strict dequeue drops an oversized packet in front
          let r := dequeueLoop aggregate fragment mtu now used rest
          ⟨r.queue, r.components, front.packet :: r.tooBig⟩

/-- `dequeue_components`: the state, the components and the packets recorded as too big. -/
def dequeueComponents (state : State) (index : UInt16) (mtu : ℕ) (now : ℤ) :
    State × List TxComponent × List OwnedPacket :=
  let r := dequeueLoop state.aggregationEnable state.fragmentationEnable mtu now 0 (state.queues index)
  ({ state with queues := Function.update state.queues index r.queue }, r.components, r.tooBig)

/-! ## Cuts of a packet -/

/-- `size` bytes of a packet from `offset` on, as the component with index `fragmentIndex`. -/
def component (packet : OwnedPacket) (sequence : UInt64) (offset fragmentIndex size : ℕ) :
    TxComponent where
  packet := { packet with payload := packet.payload.extract offset (offset + size) }
  sequence := sequence
  offset := offset
  fragmentIndex := fragmentIndex
  more := decide (offset + size < packet.payload.length)
  fragmented := decide (offset ≠ 0 ∨ offset + size < packet.payload.length)

/-- The components `cs` are the successive cuts of a packet up to `offset`. -/
inductive CutTo (packet : OwnedPacket) (sequence : UInt64) : ℕ → List TxComponent → Prop
  | start : CutTo packet sequence 0 []
  | cut {offset : ℕ} {cs : List TxComponent} (size : ℕ) : CutTo packet sequence offset cs →
      0 < size → offset + size ≤ packet.payload.length →
      CutTo packet sequence (offset + size) (cs ++ [component packet sequence offset cs.length size])

namespace CutTo

variable {packet : OwnedPacket} {sequence : UInt64} {offset : ℕ} {cs : List TxComponent}

theorem offset_le (h : CutTo packet sequence offset cs) : offset ≤ packet.payload.length := by
  cases h with
  | start => exact Nat.zero_le _
  | cut size _ _ hle => exact hle

/-- Each cut takes a byte at least. -/
theorem length_le (h : CutTo packet sequence offset cs) : cs.length ≤ offset := by
  induction h with
  | start => exact le_rfl
  | cut size _ hpos _ ih =>
      rw [List.length_append, List.length_singleton]
      omega

/-- What is left of the packet can be taken at once. -/
theorem finish (h : CutTo packet sequence offset cs) (hlt : offset < packet.payload.length) :
    CutTo packet sequence packet.payload.length
      (cs ++ [component packet sequence offset cs.length (packet.payload.length - offset)]) := by
  have hcut := h.cut (packet.payload.length - offset) (by omega) (by omega)
  rwa [Nat.add_sub_cancel' hlt.le] at hcut

end CutTo

/-- The two kinds of component are cuts. -/
theorem lastComponent_eq {t : PendingTx} (h : t.offset ≤ t.packet.payload.length) :
    lastComponent t = component t.packet t.sequence t.offset t.fragmentIndex
      (t.packet.payload.length - t.offset) := by
  unfold lastComponent component
  rw [Nat.add_sub_cancel' h, List.extract_eq_take_drop]
  congr
  · rw [List.take_of_length_le (by simp)]
  · simp
  · simp [bne, Bool.beq_eq_decide_eq]

theorem nextFragment_eq {t : PendingTx} {available : ℕ}
    (h : t.offset + available < t.packet.payload.length) :
    nextFragment t available =
      component t.packet t.sequence t.offset t.fragmentIndex available := by
  unfold nextFragment component
  simp [h]

/-! ## A sender's run -/

/-- The components of packet `sequence`. -/
def partsOf (components : List TxComponent) (sequence : UInt64) : List TxComponent :=
  components.filter fun c => c.sequence = sequence

theorem partsOf_append (cs ds : List TxComponent) (sequence : UInt64) :
    partsOf (cs ++ ds) sequence = partsOf cs sequence ++ partsOf ds sequence :=
  List.filter_append ..

theorem partsOf_eq_nil {cs : List TxComponent} {sequence : UInt64}
    (h : ∀ c ∈ cs, c.sequence ≠ sequence) : partsOf cs sequence = [] := by
  simpa [partsOf, List.filter_eq_nil_iff] using h

/-- A queued packet: it was numbered, and it continues where its components end. -/
structure Pending (enqueued : List (UInt64 × OwnedPacket)) (produced : List TxComponent)
    (t : PendingTx) : Prop where
  mem : (t.sequence, t.packet) ∈ enqueued
  cut : CutTo t.packet t.sequence t.offset (partsOf produced t.sequence)
  index : t.fragmentIndex = (partsOf produced t.sequence).length

theorem Pending.append {enqueued : List (UInt64 × OwnedPacket)} {produced cs : List TxComponent}
    {t : PendingTx} (h : Pending enqueued produced t) (hcs : ∀ c ∈ cs, c.sequence ≠ t.sequence) :
    Pending enqueued (produced ++ cs) t := by
  obtain ⟨hmem, hcut, hindex⟩ := h
  refine ⟨hmem, ?_, ?_⟩
  · rwa [partsOf_append, partsOf_eq_nil hcs, List.append_nil]
  · rwa [partsOf_append, partsOf_eq_nil hcs, List.append_nil]

/-- Every numbered packet was cut up to some offset. -/
def AllCut (enqueued : List (UInt64 × OwnedPacket)) (produced : List TxComponent) : Prop :=
  ∀ e ∈ enqueued, ∃ o, CutTo e.2 e.1 o (partsOf produced e.1)

/-- The numbered packets: no number twice, and payloads as `own_packet` lets them pass. -/
structure Numbered (enqueued : List (UInt64 × OwnedPacket)) : Prop where
  inj : ∀ e ∈ enqueued, ∀ e' ∈ enqueued, e.1 = e'.1 → e = e'
  small : ∀ e ∈ enqueued, e.2.payload.length ≤ 64 * 2 ^ 20

section

variable {enqueued : List (UInt64 × OwnedPacket)} {produced : List TxComponent} {t : PendingTx}
  {size : ℕ}

/-- The next component of a queued packet. -/
theorem Pending.partsOf_cut (h : Pending enqueued produced t) :
    partsOf (produced ++ [component t.packet t.sequence t.offset t.fragmentIndex size]) t.sequence =
      partsOf produced t.sequence ++
        [component t.packet t.sequence t.offset (partsOf produced t.sequence).length size] := by
  rw [partsOf_append, ← h.index]
  simp [partsOf, component]

theorem Pending.cutTo (h : Pending enqueued produced t) (hpos : 0 < size)
    (hle : t.offset + size ≤ t.packet.payload.length) :
    CutTo t.packet t.sequence (t.offset + size)
      (partsOf (produced ++ [component t.packet t.sequence t.offset t.fragmentIndex size])
        t.sequence) := by
  rw [h.partsOf_cut]
  exact h.cut.cut size hpos hle

theorem AllCut.cut (hall : AllCut enqueued produced) (hnum : Numbered enqueued)
    (h : Pending enqueued produced t) (hpos : 0 < size)
    (hle : t.offset + size ≤ t.packet.payload.length) :
    AllCut enqueued
      (produced ++ [component t.packet t.sequence t.offset t.fragmentIndex size]) := by
  intro e he
  by_cases heq : e.1 = t.sequence
  · obtain rfl := hnum.inj e he _ h.mem heq
    exact ⟨_, h.cutTo hpos hle⟩
  · obtain ⟨o, ho⟩ := hall e he
    have hnil : partsOf [component t.packet t.sequence t.offset t.fragmentIndex size] e.1 = [] :=
      partsOf_eq_nil (by simpa [component] using Ne.symm heq)
    exact ⟨o, by rwa [partsOf_append, hnil, List.append_nil]⟩

/-- A packet that stays in front continues after the bytes taken from it. -/
theorem Pending.advance (h : Pending enqueued produced t) (hnum : Numbered enqueued) (hpos : 0 < size)
    (hle : t.offset + size ≤ t.packet.payload.length) :
    Pending enqueued
      (produced ++ [component t.packet t.sequence t.offset t.fragmentIndex size])
      (BentPipe.advance t size) where
  mem := h.mem
  cut := h.cutTo hpos hle
  index := by
    have hsmall : t.packet.payload.length ≤ 64 * 2 ^ 20 := hnum.small _ h.mem
    have hlen := h.cut.length_le
    have hindex := h.index
    change min (t.fragmentIndex + 1) (2 ^ 32 - 1) = (partsOf (produced ++ _) t.sequence).length
    rw [h.partsOf_cut, List.length_append, List.length_singleton]
    omega

end

/-- What dequeuing does to a queue: the components are cuts of queued packets, and the packets that
stay queued continue where their components end. -/
structure Dequeued (enqueued : List (UInt64 × OwnedPacket)) (produced : List TxComponent)
    (queue : List PendingTx) (r : DequeueResult) : Prop where
  pending : ∀ t ∈ r.queue, Pending enqueued (produced ++ r.components) t
  sublist : (r.queue.map PendingTx.sequence).Sublist (queue.map PendingTx.sequence)
  allCut : AllCut enqueued (produced ++ r.components)
  queued : ∀ c ∈ r.components, ∃ t ∈ queue, t.sequence = c.sequence

/-- The front packet leaves the queue without a component. -/
theorem Dequeued.skip {enqueued : List (UInt64 × OwnedPacket)} {produced : List TxComponent}
    {front : PendingTx} {rest : List PendingTx} {r : DequeueResult}
    (h : Dequeued enqueued produced rest r) (tooBig : List OwnedPacket) :
    Dequeued enqueued produced (front :: rest) ⟨r.queue, r.components, tooBig⟩ where
  pending := h.pending
  sublist := h.sublist.cons _
  allCut := h.allCut
  queued := by
    intro c hc
    obtain ⟨t, ht, hseq⟩ := h.queued c hc
    exact ⟨t, List.mem_cons_of_mem front ht, hseq⟩

theorem dequeueLoop_spec {enqueued : List (UInt64 × OwnedPacket)} (hnum : Numbered enqueued)
    (aggregate fragment : Bool) (mtu : ℕ) (now : ℤ) :
    ∀ (queue : List PendingTx) (used : ℕ) (produced : List TxComponent),
      (∀ t ∈ queue, Pending enqueued produced t) →
      (queue.Pairwise fun t t' => t.sequence ≠ t'.sequence) → AllCut enqueued produced →
      Dequeued enqueued produced queue (dequeueLoop aggregate fragment mtu now used queue) := by
  intro queue
  induction queue with
  | nil =>
      intro used produced _ _ hall
      exact ⟨by simp [dequeueLoop], by simp [dequeueLoop], by simpa [dequeueLoop] using hall,
        by simp [dequeueLoop]⟩
  | cons front rest ih =>
      intro used produced hpending hpair hall
      obtain ⟨hfront, hrest⟩ := List.pairwise_cons.mp hpair
      have hpendingRest : ∀ t ∈ rest, Pending enqueued produced t :=
        fun t ht => hpending t (List.mem_cons_of_mem front ht)
      have hhead := hpending front List.mem_cons_self
      have hoffset := hhead.cut.offset_le
      have hstop : Dequeued enqueued produced (front :: rest) ⟨front :: rest, [], []⟩ :=
        ⟨by simpa using hpending, List.Sublist.refl _, by simpa using hall, by simp⟩
      rw [dequeueLoop]
      split
      · exact hstop
      split
      · exact hstop
      dsimp only
      split
      · exact (ih used produced hpendingRest hrest hall).skip _
      next hremaining =>
      split
      · -- all that is left of the front packet is taken
        have hall' := hall.cut hnum hhead (Nat.pos_of_ne_zero hremaining)
          (Nat.add_sub_cancel' hoffset).le
        have hpending' : ∀ t ∈ rest, Pending enqueued (produced ++ [lastComponent front]) t :=
          fun t ht => (hpendingRest t ht).append (by simpa [lastComponent] using hfront t ht)
        rw [← lastComponent_eq hoffset] at hall'
        split
        · refine ⟨hpending', List.sublist_cons_self .., hall', ?_⟩
          simp only [List.mem_singleton, forall_eq]
          exact ⟨front, List.mem_cons_self, rfl⟩
        · obtain ⟨hq, hsub, hcut, hmem⟩ := ih (used + (front.packet.payload.length - front.offset))
            (produced ++ [lastComponent front]) hpending' hrest hall'
          rw [List.append_assoc, List.singleton_append] at hq hcut
          refine ⟨hq, hsub.cons _, hcut, fun c hc => ?_⟩
          rcases List.mem_cons.mp hc with rfl | hc
          · exact ⟨front, List.mem_cons_self, rfl⟩
          · obtain ⟨t, ht, hseq⟩ := hmem c hc
            exact ⟨t, List.mem_cons_of_mem front ht, hseq⟩
      split
      · -- a fragment is taken and the front packet stays
        have hpos : 0 < mtu - used := by omega
        have hlt : front.offset + (mtu - used) < front.packet.payload.length := by omega
        rw [nextFragment_eq hlt]
        refine ⟨?_, List.Sublist.refl _, hall.cut hnum hhead hpos hlt.le, ?_⟩
        · intro t ht
          rcases List.mem_cons.mp ht with rfl | ht
          · exact hhead.advance hnum hpos hlt.le
          · exact (hpendingRest t ht).append (by simpa [component] using hfront t ht)
        · simp only [List.mem_singleton, forall_eq]
          exact ⟨front, List.mem_cons_self, rfl⟩
      · exact (ih used produced hpendingRest hrest hall).skip _

/-! ## The sender -/

/-- What happens at a sender: a packet passes `own_packet` and is enqueued, or components are taken
from a queue. -/
inductive Op
  | enqueue (index : UInt16) (info : FfiPacketInfo) (payload : Bytes) (readyAt : ℤ)
  | dequeue (index : UInt16) (mtu : ℕ) (now : ℤ)

/-- A sender with its history: the numbered packets and the components handed out. -/
structure Sender where
  state : State
  enqueued : List (UInt64 × OwnedPacket)
  produced : List TxComponent

/-- A sender before its first packet. -/
def Sender.fresh (transponders : UInt16 → Option Transponder) (queueDepth : ℕ)
    (aggregationEnable fragmentationEnable : Bool) : Sender where
  state := { transponders, queueDepth, aggregationEnable, fragmentationEnable
             packetSequence := 0, queues := fun _ => [] }
  enqueued := []
  produced := []

def Sender.step (s : Sender) : Op → Sender
  | .enqueue index info payload readyAt =>
      match ownPacket info payload with
      | none => s
      | some packet =>
          let r := enqueue s.state index packet readyAt
          { s with
            state := r.state
            enqueued := s.enqueued ++ (r.sequence.map fun n => (n, packet)).toList }
  | .dequeue index mtu now =>
      let (state, components, _) := dequeueComponents s.state index mtu now
      { s with state := state, produced := s.produced ++ components }

def Sender.run (s : Sender) (ops : List Op) : Sender := ops.foldl Sender.step s

/-- The invariant of a sender's run. -/
structure Sender.Inv (s : Sender) : Prop where
  numbers : s.enqueued.map Prod.fst = (List.range s.enqueued.length).map UInt64.ofNat
  next : s.state.packetSequence = UInt64.ofNat s.enqueued.length
  numbered : Numbered s.enqueued
  known : ∀ c ∈ s.produced, c.sequence ∈ s.enqueued.map Prod.fst
  allCut : AllCut s.enqueued s.produced
  pending : ∀ index, ∀ t ∈ s.state.queues index, Pending s.enqueued s.produced t
  distinct : ∀ index, (s.state.queues index).Pairwise fun t t' => t.sequence ≠ t'.sequence
  disjoint : ∀ i j, i ≠ j → ∀ t ∈ s.state.queues i, ∀ t' ∈ s.state.queues j,
    t.sequence ≠ t'.sequence

theorem makeRoom_sublist (depth : ℕ) : ∀ (turns : ℕ) (queue : List PendingTx),
    (makeRoom depth turns queue).1.Sublist queue := by
  intro turns
  induction turns with
  | zero => exact fun queue => List.Sublist.refl queue
  | succ turns ih =>
      intro queue
      rw [makeRoom]
      split
      · exact (ih _).trans (List.eraseIdx_sublist ..)
      · exact List.Sublist.refl queue

/-- What `enqueue` can do: nothing, or number the packet and append it to a queue from which packets
may have been dropped. -/
theorem enqueue_cases (state : State) (index : UInt16) (packet : OwnedPacket) (readyAt : ℤ) :
    ((enqueue state index packet readyAt).state = state ∧
      (enqueue state index packet readyAt).sequence = none) ∨
    ∃ queue, queue.Sublist (state.queues index) ∧
      (enqueue state index packet readyAt).state =
        { state with
          packetSequence := state.packetSequence + 1
          queues := Function.update state.queues index
            (queue ++ [newEntry packet state.packetSequence readyAt]) } ∧
      (enqueue state index packet readyAt).sequence = some state.packetSequence := by
  unfold enqueue
  split
  · exact Or.inl ⟨rfl, rfl⟩
  split
  · exact Or.inl ⟨rfl, rfl⟩
  split
  · exact Or.inl ⟨rfl, rfl⟩
  split
  · exact Or.inl ⟨rfl, rfl⟩
  · exact Or.inr ⟨_, makeRoom_sublist .., rfl, rfl⟩

namespace Sender

theorem nodup_numbers {n : ℕ} (h : n ≤ 2 ^ 64) : ((List.range n).map UInt64.ofNat).Nodup := by
  refine List.nodup_range.map_on ?_
  intro i hi j hj heq
  have htoNat := congrArg UInt64.toNat heq
  rw [List.mem_range] at hi hj
  rwa [UInt64.toNat_ofNat_of_lt' (lt_of_lt_of_le hi h),
    UInt64.toNat_ofNat_of_lt' (lt_of_lt_of_le hj h)] at htoNat

/-- The invariant gives every numbered packet its own number. -/
theorem Inv.nodup {s : Sender} (h : s.Inv) (hlen : s.enqueued.length ≤ 2 ^ 64) :
    (s.enqueued.map Prod.fst).Nodup := by
  rw [h.numbers]
  exact nodup_numbers hlen

theorem fresh_inv (transponders : UInt16 → Option Transponder) (queueDepth : ℕ)
    (aggregationEnable fragmentationEnable : Bool) :
    (fresh transponders queueDepth aggregationEnable fragmentationEnable).Inv where
  numbers := rfl
  next := rfl
  numbered := ⟨by simp [fresh], by simp [fresh]⟩
  known := by simp [fresh]
  allCut := by simp [fresh, AllCut]
  pending := by simp [fresh]
  distinct := by simp [fresh]
  disjoint := by simp [fresh]

/-- A packet gets a number no earlier packet has. -/
theorem Inv.enqueue {s : Sender} (h : s.Inv) {index : UInt16} {packet : OwnedPacket} {readyAt : ℤ}
    {queue : List PendingTx} (hsmall : packet.payload.length ≤ 64 * 2 ^ 20)
    (hqueue : queue.Sublist (s.state.queues index)) (hlen : s.enqueued.length < 2 ^ 64) :
    Inv { s with
      state := { s.state with
        packetSequence := s.state.packetSequence + 1
        queues := Function.update s.state.queues index
          (queue ++ [newEntry packet s.state.packetSequence readyAt]) }
      enqueued := s.enqueued ++ [(s.state.packetSequence, packet)] } := by
  have hnumbers : (s.enqueued ++ [(s.state.packetSequence, packet)]).map Prod.fst =
      (List.range (s.enqueued ++ [(s.state.packetSequence, packet)]).length).map UInt64.ofNat := by
    rw [List.map_append, h.numbers, List.length_append, List.length_singleton, List.range_succ,
      List.map_append, h.next]
    rfl
  have hnodup : ((s.enqueued ++ [(s.state.packetSequence, packet)]).map Prod.fst).Nodup := by
    rw [hnumbers]
    exact nodup_numbers (by simp; omega)
  have hnew : s.state.packetSequence ∉ s.enqueued.map Prod.fst := by
    rw [List.map_append, List.nodup_append] at hnodup
    exact fun hmem => hnodup.2.2 _ hmem _ (by simp) rfl
  have hunsent : partsOf s.produced s.state.packetSequence = [] :=
    partsOf_eq_nil fun c hc heq => hnew (heq ▸ h.known c hc)
  have hold : ∀ t, Pending s.enqueued s.produced t →
      Pending (s.enqueued ++ [(s.state.packetSequence, packet)]) s.produced t :=
    fun t ht => ⟨List.mem_append_left _ ht.mem, ht.cut, ht.index⟩
  have hentry : Pending (s.enqueued ++ [(s.state.packetSequence, packet)]) s.produced
      (newEntry packet s.state.packetSequence readyAt) :=
    ⟨by simp [newEntry], by simpa [newEntry, hunsent] using CutTo.start, by simp [newEntry, hunsent]⟩
  have hdifferent : ∀ i, ∀ t ∈ s.state.queues i, t.sequence ≠ s.state.packetSequence :=
    fun i t ht heq => hnew (heq ▸ List.mem_map_of_mem (h.pending i t ht).mem)
  have hmem : ∀ i t, t ∈ Function.update s.state.queues index
      (queue ++ [newEntry packet s.state.packetSequence readyAt]) i →
      t ∈ s.state.queues i ∨ i = index ∧ t = newEntry packet s.state.packetSequence readyAt := by
    intro i t ht
    by_cases hi : i = index
    · subst hi
      rw [Function.update_self, List.mem_append, List.mem_singleton] at ht
      exact ht.imp (fun ht => hqueue.subset ht) (fun ht => ⟨rfl, ht⟩)
    · rw [Function.update_of_ne hi] at ht
      exact Or.inl ht
  constructor
  · exact hnumbers
  · change s.state.packetSequence + 1 = _
    rw [h.next, List.length_append, List.length_singleton, UInt64.ofNat_add]
    rfl
  · refine ⟨fun e he e' he' heq => List.inj_on_of_nodup_map hnodup he he' heq, fun e he => ?_⟩
    rcases List.mem_append.mp he with he | he
    · exact h.numbered.small e he
    · rw [List.mem_singleton.mp he]
      exact hsmall
  · intro c hc
    exact List.map_append ▸ List.mem_append_left _ (h.known c hc)
  · intro e he
    rcases List.mem_append.mp he with he | he
    · exact h.allCut e he
    · rw [List.mem_singleton.mp he]
      exact ⟨0, by simpa [hunsent] using CutTo.start⟩
  · intro i t ht
    rcases hmem i t ht with ht | ⟨-, rfl⟩
    · exact hold t (h.pending i t ht)
    · exact hentry
  · intro i
    by_cases hi : i = index
    · subst hi
      simp only [Function.update_self]
      rw [List.pairwise_append]
      refine ⟨(h.distinct i).sublist hqueue, List.pairwise_singleton .., ?_⟩
      intro t ht t' ht'
      rw [List.mem_singleton.mp ht']
      exact hdifferent i t (hqueue.subset ht)
    · simp only [Function.update_of_ne hi]
      exact h.distinct i
  · intro i j hij t ht t' ht'
    rcases hmem i t ht with ht | ⟨hi, rfl⟩ <;> rcases hmem j t' ht' with ht' | ⟨hj, rfl⟩
    · exact h.disjoint i j hij t ht t' ht'
    · exact hdifferent i t ht
    · exact (hdifferent j t' ht').symm
    · exact absurd (hi.trans hj.symm) hij

/-- Taking components from a queue concerns its packets only. -/
theorem Inv.dequeue {s : Sender} (h : s.Inv) {index : UInt16} {r : DequeueResult}
    (hr : Dequeued s.enqueued s.produced (s.state.queues index) r) :
    Inv { s with
      state := { s.state with queues := Function.update s.state.queues index r.queue }
      produced := s.produced ++ r.components } := by
  have hmem : ∀ i t, t ∈ Function.update s.state.queues index r.queue i →
      (i = index ∧ t ∈ r.queue) ∨ i ≠ index ∧ t ∈ s.state.queues i := by
    intro i t ht
    by_cases hi : i = index
    · subst hi
      exact Or.inl ⟨rfl, by rwa [Function.update_self] at ht⟩
    · exact Or.inr ⟨hi, by rwa [Function.update_of_ne hi] at ht⟩
  have hstays : ∀ t ∈ r.queue, ∃ t' ∈ s.state.queues index, t'.sequence = t.sequence := by
    intro t ht
    exact List.mem_map.mp (hr.sublist.subset (List.mem_map_of_mem ht))
  constructor
  · exact h.numbers
  · exact h.next
  · exact h.numbered
  · intro c hc
    rcases List.mem_append.mp hc with hc | hc
    · exact h.known c hc
    · obtain ⟨t, ht, hseq⟩ := hr.queued c hc
      exact hseq ▸ List.mem_map_of_mem (h.pending index t ht).mem
  · exact hr.allCut
  · intro i t ht
    rcases hmem i t ht with ⟨-, ht⟩ | ⟨hi, ht⟩
    · exact hr.pending t ht
    · refine (h.pending i t ht).append fun c hc heq => ?_
      obtain ⟨t', ht', hseq⟩ := hr.queued c hc
      exact h.disjoint i index hi t ht t' ht' (hseq.trans heq).symm
  · intro i
    by_cases hi : i = index
    · subst hi
      simp only [Function.update_self]
      exact List.pairwise_map.mp ((List.pairwise_map.mpr (h.distinct i)).sublist hr.sublist)
    · simp only [Function.update_of_ne hi]
      exact h.distinct i
  · intro i j hij t ht t' ht'
    rcases hmem i t ht with ⟨hi, ht⟩ | ⟨hi, ht⟩ <;> rcases hmem j t' ht' with ⟨hj, ht'⟩ | ⟨hj, ht'⟩
    · exact absurd (hi.trans hj.symm) hij
    · obtain ⟨t₀, ht₀, hseq⟩ := hstays t ht
      exact hseq ▸ h.disjoint index j (hi ▸ hij) t₀ ht₀ t' ht'
    · obtain ⟨t₀, ht₀, hseq⟩ := hstays t' ht'
      exact hseq ▸ h.disjoint i index hi t ht t₀ ht₀
    · exact h.disjoint i j hij t ht t' ht'

theorem length_enqueued_le (s : Sender) (op : Op) :
    s.enqueued.length ≤ (s.step op).enqueued.length := by
  cases op with
  | enqueue index info payload readyAt =>
      rw [step]
      split
      · exact le_rfl
      · simp
  | dequeue index mtu now => exact le_rfl

/-- **One step keeps the invariant** as long as the numbers have not wrapped around. -/
theorem step_inv {s : Sender} (h : s.Inv) (op : Op)
    (hlen : (s.step op).enqueued.length ≤ 2 ^ 64) : (s.step op).Inv := by
  cases op with
  | enqueue index info payload readyAt =>
      rw [step] at hlen ⊢
      split at hlen
      · exact h
      next packet hpacket =>
      have hsmall : packet.payload.length ≤ 64 * 2 ^ 20 := by
        unfold ownPacket at hpacket
        split at hpacket
        · cases hpacket
        · next hle =>
            cases hpacket
            exact Nat.not_lt.mp hle
      rcases enqueue_cases s.state index packet readyAt with ⟨hstate, hseq⟩ | ⟨queue, hq, hstate, hseq⟩
      · simp only [hstate, hseq, Option.map_none, Option.toList_none, List.append_nil]
        exact h
      · simp only [hstate, hseq, Option.map_some, Option.toList_some] at hlen ⊢
        refine h.enqueue hsmall hq ?_
        simpa using hlen
  | dequeue index mtu now =>
      refine h.dequeue (dequeueLoop_spec h.numbered _ _ mtu now _ 0 _ (h.pending index)
        (h.distinct index) h.allCut)

theorem length_enqueued_le_run (ops : List Op) (s : Sender) :
    s.enqueued.length ≤ (s.run ops).enqueued.length := by
  induction ops generalizing s with
  | nil => exact le_rfl
  | cons op ops ih => exact (s.length_enqueued_le op).trans (ih (s.step op))

/-- **A whole run keeps the invariant**, if it numbers at most `2 ^ 64` packets. -/
theorem run_inv (ops : List Op) {s : Sender} (h : s.Inv)
    (hlen : (s.run ops).enqueued.length ≤ 2 ^ 64) : (s.run ops).Inv := by
  induction ops generalizing s with
  | nil => exact h
  | cons op ops ih =>
      exact ih (step_inv h op ((length_enqueued_le_run ops (s.step op)).trans hlen)) hlen

end Sender

end Emane.BentPipe
