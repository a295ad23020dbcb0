import Mathlib
import Emane.BentPipe.Lifecycle
import Emane.Lib.Run

set_option autoImplicit false

/-! # Conservation of packets on the transmit side

Every packet that a transponder accepts is in its queue, or frames that were handed to the PHY contain all
of it, or it is recorded as dropped (`Ledger.Conserved`). This holds in the runs in which `drive` neither
takes an empty packet from the queue, which is in no frame and in no record, nor a frame whose message is
too long for the 16-bit length field, which is dropped without a record (`Ledger.conserved_of_accountable`).

A `Story` is what was sent of a packet that is not in the queue any more: the components of a packet
follow one another in the frames, since only the packet in front of a queue can be partly sent.
-/

namespace Emane.BentPipe

open Emane.Lib

/-! ## What is sent of a packet -/

/-- The components carry the bytes of a packet up to `offset`, one after the other. -/
inductive CarriedTo (packet : OwnedPacket) (sequence : UInt64) : ℕ → List TxComponent → Prop
  | start : CarriedTo packet sequence 0 []
  | carry {offset : ℕ} {parts : List TxComponent} (fragmentIndex size : ℕ) :
      CarriedTo packet sequence offset parts → 0 < size → offset + size ≤ packet.payload.length →
      CarriedTo packet sequence (offset + size)
        (parts ++ [component packet sequence offset fragmentIndex size])

theorem CarriedTo.offset_le {packet : OwnedPacket} {sequence : UInt64} {offset : ℕ}
    {parts : List TxComponent} (h : CarriedTo packet sequence offset parts) :
    offset ≤ packet.payload.length := by
  cases h with
  | start => exact Nat.zero_le _
  | carry _ size _ _ hle => exact hle

/-- Nothing is sent of a packet at the start, and only then. -/
theorem CarriedTo.eq_nil_iff {packet : OwnedPacket} {sequence : UInt64} {offset : ℕ}
    {parts : List TxComponent} (h : CarriedTo packet sequence offset parts) :
    parts = [] ↔ offset = 0 := by
  cases h with
  | start => simp
  | carry _ size _ hpos _ =>
      refine iff_of_false (by simp) ?_
      omega

/-- The components that were sent of a packet, at least one. -/
structure Story where
  packet : OwnedPacket
  sequence : UInt64
  offset : ℕ
  parts : List TxComponent
  carried : CarriedTo packet sequence offset parts
  parts_ne_nil : parts ≠ []

/-- All of the packet was sent. -/
def Story.Whole (story : Story) : Prop := story.offset = story.packet.payload.length

instance (story : Story) : Decidable story.Whole := inferInstanceAs (Decidable (_ = _))

/-- The packets that were sent as a whole. -/
def wholePackets (stories : List Story) : List OwnedPacket :=
  (stories.filter fun story => story.Whole).map Story.packet

/-- The components, in the order in which they were sent. -/
def allParts (stories : List Story) : List TxComponent := stories.flatMap Story.parts

theorem allParts_append (left right : List Story) :
    allParts (left ++ right) = allParts left ++ allParts right := List.flatMap_append

theorem wholePackets_append (left right : List Story) :
    wholePackets (left ++ right) = wholePackets left ++ wholePackets right := by
  simp [wholePackets]

theorem wholePackets_singleton {story : Story} (h : story.Whole) :
    wholePackets [story] = [story.packet] := by
  simp [wholePackets, h]

/-- A queue continues where `current` ends: these are the components of the packet in front, and nothing
was sent of the others. -/
def Continues (current : List TxComponent) : List PendingTx → Prop
  | [] => current = []
  | front :: rest =>
      CarriedTo front.packet front.sequence front.offset current ∧
        (front.offset ≠ 0 → front.offset < front.packet.payload.length) ∧ ∀ t ∈ rest, t.offset = 0

section

variable {current : List TxComponent} {front : PendingTx} {others : List PendingTx}

/-- A queue of which nothing was sent. -/
theorem continues_nil {queue : List PendingTx} (h : ∀ t ∈ queue, t.offset = 0) :
    Continues [] queue := by
  cases queue with
  | nil => rfl
  | cons front rest =>
      have hfront : front.offset = 0 := h front List.mem_cons_self
      refine ⟨hfront ▸ .start, fun hne => absurd hfront hne, fun t ht => ?_⟩
      exact h t (List.mem_cons_of_mem _ ht)

theorem Continues.leave (h : Continues current (front :: others)) : Continues [] others :=
  continues_nil h.2.2

/-- The packet in front leaves the queue before all of it was sent. -/
theorem Continues.broken (h : Continues current (front :: others))
    (hlt : front.offset < front.packet.payload.length) :
    ∃ stories, allParts stories = current ∧ wholePackets stories = [] := by
  by_cases hnil : current = []
  · exact ⟨[], hnil ▸ rfl, rfl⟩
  · refine ⟨[⟨front.packet, front.sequence, front.offset, current, h.1, hnil⟩], by simp [allParts],
      ?_⟩
    simp [wholePackets, Story.Whole, hlt.ne]

/-- The rest of the packet in front is sent. -/
theorem Continues.finished (h : Continues current (front :: others))
    (hlt : front.offset < front.packet.payload.length) :
    ∃ story : Story, story.parts = current ++ [lastComponent front] ∧ story.packet = front.packet ∧
      story.Whole := by
  have hcarried := h.1.carry front.fragmentIndex (front.packet.payload.length - front.offset)
    (Nat.sub_pos_of_lt hlt) (Nat.add_sub_cancel' hlt.le).le
  rw [← lastComponent_eq hlt.le, Nat.add_sub_cancel' hlt.le] at hcarried
  exact ⟨⟨_, _, _, _, hcarried, by simp⟩, rfl, rfl, rfl⟩

/-- A fragment of the packet in front is sent. -/
theorem Continues.advance (h : Continues current (front :: others)) {available : ℕ}
    (hpos : 0 < available) (hlt : front.offset + available < front.packet.payload.length) :
    Continues (current ++ [nextFragment front available]) (advance front available :: others) := by
  refine ⟨?_, fun _ => hlt, h.2.2⟩
  rw [nextFragment_eq hlt]
  exact h.1.carry front.fragmentIndex available hpos hlt.le

end

/-! ## Taking components -/

/-- The branch of `dequeue_components` for an empty packet is not taken. -/
def NoneEmpty (aggregate fragment : Bool) (mtu : ℕ) (now : ℤ) : ℕ → List PendingTx → Prop
  | _, [] => True
  | used, front :: rest =>
      used < mtu → front.readyAt ≤ now →
        front.offset < front.packet.payload.length ∧
          (front.packet.payload.length - front.offset ≤ mtu - used → aggregate = true →
            NoneEmpty aggregate fragment mtu now
              (used + (front.packet.payload.length - front.offset)) rest) ∧
          (mtu - used < front.packet.payload.length - front.offset → fragment = false →
            NoneEmpty aggregate fragment mtu now used rest)

/-- What taking components from a queue does to its packets: they are sent, recorded as too big, or still
in the queue. -/
def Taken (current : List TxComponent) (queue : List PendingTx) (r : DequeueResult) : Prop :=
  ∃ stories current', current ++ r.components = allParts stories ++ current' ∧
    Continues current' r.queue ∧
    (queue.map PendingTx.packet).Perm
      (r.queue.map PendingTx.packet ++ wholePackets stories ++ r.tooBig)

/-- **Taking components loses no packet**, unless an empty one is in front. -/
theorem dequeueLoop_taken (aggregate fragment : Bool) (mtu : ℕ) (now : ℤ) (queue : List PendingTx) :
    ∀ (used : ℕ) (current : List TxComponent), Continues current queue →
      NoneEmpty aggregate fragment mtu now used queue →
      Taken current queue (dequeueLoop aggregate fragment mtu now used queue) := by
  -- `current` is what was sent of the packet in front, so a later packet starts with none
  induction queue with
  | nil =>
      intro used current h _
      exact ⟨[], current, by simp [dequeueLoop, allParts], h, by simp [dequeueLoop, wholePackets]⟩
  | cons front rest ih =>
      intro used current h hnone
      have hstop : Taken current (front :: rest) ⟨front :: rest, [], []⟩ :=
        ⟨[], current, by simp [allParts], h, by simp [wholePackets]⟩
      rw [dequeueLoop]
      split
      · exact hstop
      next hused =>
      split
      · exact hstop
      next hready =>
      obtain ⟨hlt, haggregate, hfragment⟩ := hnone (not_not.mp hused) (not_lt.mp hready)
      dsimp only
      rw [if_neg (by omega)]
      split
      -- all that is left of the packet in front is taken, and the loop goes on if it may aggregate
      next hfits =>
        obtain ⟨story, hparts, hpacket, hwhole⟩ := h.finished hlt
        split
        next =>
          refine ⟨[story], [], by simp [allParts, hparts], h.leave, ?_⟩
          rw [wholePackets_singleton hwhole, hpacket, List.append_nil, List.map_cons]
          exact (List.perm_append_singleton ..).symm
        next haggregating =>
          obtain ⟨stories, current', hcomponents, hcontinues, hperm⟩ :=
            ih _ [] h.leave (haggregate hfits (by simpa using haggregating))
          refine ⟨[story] ++ stories, current', ?_, hcontinues, ?_⟩
          · rw [allParts_append, List.append_assoc, ← hcomponents]
            simp [allParts, hparts]
          · rw [wholePackets_append, wholePackets_singleton hwhole, hpacket]
            rw [List.perm_iff_count] at hperm ⊢
            intro packet
            have hcount := hperm packet
            simp only [List.map_cons, List.count_cons, List.count_append, List.count_nil] at hcount ⊢
            omega
      next htoo =>
        split
        -- a fragment is taken, and the packet stays in front
        next =>
          refine ⟨[], _, rfl, h.advance (by omega) (by omega), ?_⟩
          simp [wholePackets, BentPipe.advance]
        -- the packet is recorded as too big, even if parts of it were sent before
        next hstrict =>
          obtain ⟨closed, hclosed, hpartial⟩ := h.broken hlt
          obtain ⟨stories, current', hcomponents, hcontinues, hperm⟩ :=
            ih _ [] h.leave (hfragment (by omega) (by simpa using hstrict))
          refine ⟨closed ++ stories, current', ?_, hcontinues, ?_⟩
          · rw [allParts_append, List.append_assoc, ← hcomponents, hclosed, List.nil_append]
          · rw [wholePackets_append, hpartial, List.nil_append]
            rw [List.perm_iff_count] at hperm ⊢
            intro packet
            have hcount := hperm packet
            simp only [List.map_cons, List.count_cons, List.count_append] at hcount ⊢
            omega

/-! ## Making room -/

/-- A full queue drops the first packet of which nothing was sent, or the one in front. -/
theorem drop_taken {current : List TxComponent} {queue : List PendingTx}
    (h : Continues current queue) :
    ∃ stories current', current = allParts stories ++ current' ∧ wholePackets stories = [] ∧
      Continues current' (queue.eraseIdx (dropPosition queue)) ∧
      (queue.map PendingTx.packet).Perm
        ((queue.eraseIdx (dropPosition queue)).map PendingTx.packet ++
          (queue[dropPosition queue]?.map PendingTx.packet).toList) := by
  cases queue with
  | nil => exact ⟨[], current, rfl, rfl, h, List.Perm.refl _⟩
  | cons front rest =>
      by_cases hfront : front.offset = 0
      · have hposition : dropPosition (front :: rest) = 0 := by
          simp [dropPosition, List.findIdx?_cons, hfront]
        rw [hposition]
        refine ⟨[], [], h.1.eq_nil_iff.mpr hfront, rfl, h.leave, ?_⟩
        simpa using (List.perm_append_singleton ..).symm
      · cases rest with
        | nil =>
            -- the packet in front is the only one, and a part of it was sent
            have hposition : dropPosition [front] = 0 := by
              simp [dropPosition, List.findIdx?_cons, hfront]
            obtain ⟨stories, hstories, hpartial⟩ := h.broken (h.2.1 hfront)
            rw [hposition]
            exact ⟨stories, [], by simp [hstories], hpartial, h.leave, by simp⟩
        | cons second rest =>
            have hsecond : second.offset = 0 := h.2.2 second List.mem_cons_self
            have hposition : dropPosition (front :: second :: rest) = 1 := by
              simp [dropPosition, List.findIdx?_cons, hfront, hsecond]
            rw [hposition]
            refine ⟨[], current, rfl, rfl, ⟨h.1, h.2.1, fun t ht => ?_⟩, ?_⟩
            · exact h.2.2 t (List.mem_cons_of_mem _ ht)
            · simpa using (List.perm_append_singleton ..).symm

/-- Making room for a packet drops packets of the queue, each with a record. -/
theorem makeRoom_taken (depth turns : ℕ) :
    ∀ (current : List TxComponent) (queue : List PendingTx), Continues current queue →
      ∃ stories current', current = allParts stories ++ current' ∧ wholePackets stories = [] ∧
        Continues current' (makeRoom depth turns queue).1 ∧
        (queue.map PendingTx.packet).Perm
          ((makeRoom depth turns queue).1.map PendingTx.packet ++ (makeRoom depth turns queue).2) := by
  induction turns with
  | zero =>
      intro current queue h
      exact ⟨[], current, rfl, rfl, h, by simp [makeRoom]⟩
  | succ turns ih =>
      intro current queue h
      rw [makeRoom]
      split
      · obtain ⟨stories, current', hcurrent, hpartial, hcontinues, hperm⟩ := drop_taken h
        obtain ⟨stories', current'', hcurrent', hpartial', hcontinues', hperm'⟩ :=
          ih current' _ hcontinues
        refine ⟨stories ++ stories', current'', ?_, ?_, hcontinues', ?_⟩
        · rw [allParts_append, List.append_assoc, ← hcurrent', hcurrent]
        · rw [wholePackets_append, hpartial, hpartial', List.append_nil]
        · rw [List.perm_iff_count] at hperm hperm' ⊢
          intro packet
          have hcount := hperm packet
          have hcount' := hperm' packet
          simp only [List.count_append] at hcount hcount' ⊢
          omega
      · exact ⟨[], current, rfl, rfl, h, by simp⟩

/-- A packet is appended to the queue. -/
theorem Continues.append {current : List TxComponent} {queue : List PendingTx}
    (h : Continues current queue) (packet : OwnedPacket) (sequence : UInt64) (readyAt : ℤ) :
    Continues current (queue ++ [newEntry packet sequence readyAt]) := by
  cases queue with
  | nil =>
      obtain rfl : current = [] := h
      exact continues_nil (by simp [newEntry])
  | cons front rest =>
      refine ⟨h.1, h.2.1, fun t ht => ?_⟩
      rcases List.mem_append.mp ht with hold | hnew
      · exact h.2.2 t hold
      · rw [List.mem_singleton.mp hnew]
        rfl

/-- What `enqueue` does to the packets of the queue. -/
theorem enqueue_taken (state : State) (index : UInt16) (packet : OwnedPacket) (readyAt : ℤ)
    {current : List TxComponent} (h : Continues current (state.queues index)) :
    let r := enqueue state index packet readyAt
    ∃ stories current', current = allParts stories ++ current' ∧ wholePackets stories = [] ∧
      Continues current' (r.state.queues index) ∧
      ((state.queues index).map PendingTx.packet ++ if r.queued then [packet] else []).Perm
        ((r.state.queues index).map PendingTx.packet ++ r.overflow) := by
  dsimp only
  unfold enqueue
  split
  · exact ⟨[], current, rfl, rfl, h, by simp⟩
  split
  · exact ⟨[], current, rfl, rfl, h, by simp⟩
  split
  · exact ⟨[], current, rfl, rfl, h, by simp⟩
  split
  · exact ⟨[], current, rfl, rfl, h, by simp⟩
  · obtain ⟨stories, current', hparts, hpartial, hroom, hperm⟩ :=
      makeRoom_taken state.queueDepth (state.queues index).length current (state.queues index) h
    refine ⟨stories, current', hparts, hpartial, ?_, ?_⟩
    · simp only [Function.update_self]
      exact hroom.append packet state.packetSequence readyAt
    · simp only [Function.update_self, if_true, List.map_append, List.map_cons, List.map_nil]
      rw [List.perm_iff_count] at hperm ⊢
      intro other
      have hcount := hperm other
      simp only [List.count_append, newEntry] at hcount ⊢
      omega

/-! ## The ledger of a layer -/

namespace Mac

/-- The transponder with which `drive` serves its queue, and the time from which it may send. There is
none if the transponder or its antenna is missing, or if the slot was missed. -/
def serving (mac : Mac) (index : UInt16) (now : ℤ) (expected : Option ℤ) :
    Option (FullTransponder × ℤ) :=
  match mac.transponders[index]? with
  | none => none
  | some t =>
      if t.transmitAntennaIndex ∉ mac.antennas then none
      else
        match expected.filter fun _ => t.slotted with
        -- without slots, or without a slot to be woken for, the next start is computed
        | none => some (t, nextSlot t now)
        | some expected => if now < expected + t.transmitSlotSizeUs then some (t, expected) else none

/-- What `dequeue_components` takes from the queue of a transponder. -/
def dequeued (mac : Mac) (index : UInt16) (t : FullTransponder) (now : ℤ) : DequeueResult :=
  dequeueLoop mac.aggregationEnable mac.fragmentationEnable (effectiveMtu t.toTransponder) now 0
    (mac.queues index)

/-- The packets that `drive` records as too big. -/
def driveTooBig (mac : Mac) (index : UInt16) (now : ℤ) (expected : Option ℤ) : List OwnedPacket :=
  match mac.serving index now expected with
  | none => []
  | some (t, allowed) =>
      if mac.canSend index now allowed then (mac.dequeued index t now).tooBig else []

/-- The messages of the frames that a transponder handed to the PHY. -/
def messages (mac : Mac) (index : UInt16) : List BentPipeComponent :=
  (mac.sent.filter fun x => x.index = index).flatMap fun x => x.frame.messages

end Mac

/-- A layer with what was accepted and what was recorded as dropped for each transponder. -/
structure Ledger where
  mac : Mac
  accepted : UInt16 → List OwnedPacket
  overflow : UInt16 → List OwnedPacket
  tooBig : UInt16 → List OwnedPacket

inductive LedgerOp
  | enqueue (index : UInt16) (packet : OwnedPacket) (readyAt : ℤ)
  | drive (index : UInt16) (now : ℤ) (expected : Option ℤ) (startOfTransmission : ℤ)

namespace Ledger

section

variable (encodedLen : BentPipeMessage → ℕ)

def step (l : Ledger) : LedgerOp → Ledger
  | .enqueue index packet readyAt =>
      let r := enqueue l.mac.state index packet readyAt
      { l with
        mac := l.mac.withState r.state
        accepted := Function.update l.accepted index
          (l.accepted index ++ if r.queued then [packet] else [])
        overflow := Function.update l.overflow index (l.overflow index ++ r.overflow) }
  | .drive index now expected startOfTransmission =>
      { l with
        mac := l.mac.drive encodedLen index now expected startOfTransmission
        tooBig := Function.update l.tooBig index
          (l.tooBig index ++ l.mac.driveTooBig index now expected) }

end

/-- The ledger of a layer with empty queues that has sent nothing. -/
def fresh (mac : Mac) : Ledger where
  mac := { mac with queues := fun _ => [], sent := [] }
  accepted _ := []
  overflow _ := []
  tooBig _ := []

/-- **Conservation**: the packets that the transponder accepted are, each once, those in its queue, those
that were sent as a whole, and those that were recorded as dropped. -/
def Conserved (index : UInt16) (l : Ledger) : Prop :=
  ∃ stories current, l.mac.messages index = (allParts stories ++ current).map wireComponent ∧
    Continues current (l.mac.queues index) ∧
    (l.accepted index).Perm
      ((l.mac.queues index).map PendingTx.packet ++ wholePackets stories ++ l.overflow index ++
        l.tooBig index)

/-- The transmission takes no empty packet from the queue, and no frame that is too long. -/
def Accountable (encodedLen : BentPipeMessage → ℕ) (l : Ledger) : LedgerOp → Prop
  | .enqueue .. => True
  | .drive index now expected startOfTransmission =>
      ∀ t allowed, l.mac.serving index now expected = some (t, allowed) →
        l.mac.canSend index now allowed →
        NoneEmpty l.mac.aggregationEnable l.mac.fragmentationEnable (effectiveMtu t.toTransponder) now
            0 (l.mac.queues index) ∧
          ((l.mac.dequeued index t now).components ≠ [] →
            encodedLen (wireMessage t startOfTransmission (l.mac.dequeued index t now).components) < 65536)

end Ledger

/-! ## What `drive` does to queues and messages -/

namespace Mac

variable {encodedLen : BentPipeMessage → ℕ} {mac : Mac} {index : UInt16} {now : ℤ}

theorem scheduleTransmit_same (mac : Mac) (index : UInt16) (time : ℤ) :
    (mac.scheduleTransmit index time).queues = mac.queues ∧
      (mac.scheduleTransmit index time).sent = mac.sent := by
  rw [scheduleTransmit_eq]
  exact ⟨rfl, rfl⟩

theorem scheduleNext_same (mac : Mac) (index : UInt16) (next : Option ℤ) :
    (mac.scheduleNext index next).queues = mac.queues ∧
      (mac.scheduleNext index next).sent = mac.sent := by
  obtain ⟨wakeups, hmac, -⟩ := mac.scheduleNext_eq index next
  rw [hmac]
  exact ⟨rfl, rfl⟩

/-- What `drive` does: it serves the queue, or nothing is taken and nothing sent. -/
theorem drive_serving (encodedLen : BentPipeMessage → ℕ) (mac : Mac) (index : UInt16) (now : ℤ)
    (expected : Option ℤ) (startOfTransmission : ℤ) :
    let driven := mac.drive encodedLen index now expected startOfTransmission
    match mac.serving index now expected with
    | none => driven.queues = mac.queues ∧ driven.sent = mac.sent
    | some (t, allowed) => driven = mac.serve encodedLen index t now allowed startOfTransmission := by
  unfold serving drive
  cases mac.transponders[index]? with
  | none => exact ⟨rfl, rfl⟩
  | some t =>
      dsimp only
      by_cases hantenna : t.transmitAntennaIndex ∉ mac.antennas
      · simp only [if_pos hantenna, and_self]
      · simp only [if_neg hantenna]
        cases expected.filter fun _ => t.slotted with
        | none => rfl
        | some slot =>
            dsimp only
            by_cases hintime : now < slot + t.transmitSlotSizeUs
            · simp only [if_pos hintime]
            · simp only [if_neg hintime]
              exact scheduleTransmit_same ..

theorem drive_of_serving_eq_none {expected : Option ℤ} (h : mac.serving index now expected = none)
    (startOfTransmission : ℤ) :
    (mac.drive encodedLen index now expected startOfTransmission).queues = mac.queues ∧
      (mac.drive encodedLen index now expected startOfTransmission).sent = mac.sent := by
  have hdrive := mac.drive_serving encodedLen index now expected startOfTransmission
  rwa [h] at hdrive

theorem drive_of_serving_eq_some {expected : Option ℤ} {t : FullTransponder} {allowed : ℤ}
    (h : mac.serving index now expected = some (t, allowed)) (startOfTransmission : ℤ) :
    mac.drive encodedLen index now expected startOfTransmission =
      mac.serve encodedLen index t now allowed startOfTransmission := by
  have hdrive := mac.drive_serving encodedLen index now expected startOfTransmission
  rwa [h] at hdrive

theorem serve_idle {t : FullTransponder} {allowed : ℤ} (h : mac.canSend index now allowed = false)
    (startOfTransmission : ℤ) :
    (mac.serve encodedLen index t now allowed startOfTransmission).queues = mac.queues ∧
      (mac.serve encodedLen index t now allowed startOfTransmission).sent = mac.sent := by
  have htaken : mac.takeComponents index t now allowed = (mac, []) := by
    rw [takeComponents, h]
    rfl
  unfold serve
  rw [htaken]
  exact scheduleNext_same ..

theorem messages_congr {mac mac' : Mac} (h : mac'.sent = mac.sent) (i : UInt16) :
    mac'.messages i = mac.messages i := by
  rw [messages, h, messages]

theorem messages_append {mac mac' : Mac} {transmission : Transmission}
    (h : mac'.sent = mac.sent ++ [transmission]) (i : UInt16) :
    mac'.messages i =
      mac.messages i ++ if transmission.index = i then transmission.frame.messages else [] := by
  rw [messages, h, messages, List.filter_append, List.flatMap_append]
  by_cases hindex : transmission.index = i <;> simp [hindex]

/-- What `take_components` takes when the transponder can send. -/
theorem takeComponents_dequeued {t : FullTransponder} {allowed : ℤ}
    (h : mac.canSend index now allowed = true) :
    (mac.takeComponents index t now allowed).1.queues =
        Function.update mac.queues index (mac.dequeued index t now).queue ∧
      (mac.takeComponents index t now allowed).1.sent = mac.sent ∧
      (mac.takeComponents index t now allowed).2 = (mac.dequeued index t now).components := by
  rw [takeComponents, if_pos h]
  dsimp only
  split
  · case isTrue hempty => exact ⟨rfl, rfl, (List.isEmpty_iff.mp hempty).symm⟩
  · exact ⟨rfl, rfl, rfl⟩

/-- The messages that `send_downstream` hands to the PHY for components: none if they are too long. -/
def handed (encodedLen : BentPipeMessage → ℕ) (t : FullTransponder) (startOfTransmission : ℤ)
    (components : List TxComponent) : List BentPipeComponent :=
  if encodedLen (wireMessage t startOfTransmission components) < 65536 then
    components.map wireComponent
  else []

theorem handDown_messages (encodedLen : BentPipeMessage → ℕ) (mac : Mac) (index : UInt16)
    (t : FullTransponder) (now : ℤ) (components : List TxComponent) (frameSequence : UInt64)
    (startOfTransmission : ℤ) (i : UInt16) :
    (mac.handDown encodedLen index t now components frameSequence startOfTransmission).queues = mac.queues ∧
      (mac.handDown encodedLen index t now components frameSequence startOfTransmission).messages i =
        mac.messages i ++ if index = i then handed encodedLen t startOfTransmission components else [] := by
  unfold handDown
  by_cases hempty : components = []
  · subst hempty
    simp [handed]
  rw [if_neg (by simpa using hempty)]
  refine ⟨rfl, ?_⟩
  unfold handed
  by_cases hfits : encodedLen (wireMessage t startOfTransmission components) < 65536
  · obtain ⟨frame, hframe, hframeMessages⟩ :
        ∃ frame, sendDownstream encodedLen components frameSequence t startOfTransmission = some frame ∧
          frame.messages = components.map wireComponent :=
      ⟨_, if_pos hfits, rfl⟩
    rw [hframe, if_pos hfits, ← hframeMessages]
    exact @messages_append mac _ ⟨index, now, frame⟩ rfl i
  · have hframe : sendDownstream encodedLen components frameSequence t startOfTransmission = none :=
      if_neg hfits
    rw [hframe, if_neg hfits, ite_self, List.append_nil]
    exact messages_congr (List.append_nil _) i

/-- What a transponder that can send takes from its queue and hands to the PHY. -/
theorem serve_sends {t : FullTransponder} {allowed : ℤ} (h : mac.canSend index now allowed = true)
    (startOfTransmission : ℤ) (i : UInt16) :
    (mac.serve encodedLen index t now allowed startOfTransmission).queues =
        Function.update mac.queues index (mac.dequeued index t now).queue ∧
      (mac.serve encodedLen index t now allowed startOfTransmission).messages i =
        mac.messages i ++
          if index = i then handed encodedLen t startOfTransmission (mac.dequeued index t now).components
          else [] := by
  obtain ⟨hqueues, hsent, hcomponents⟩ := @takeComponents_dequeued mac index now t allowed h
  obtain ⟨hdown, hmessages⟩ := (mac.takeComponents index t now allowed).1.handDown_messages encodedLen
    index t now (mac.takeComponents index t now allowed).2 mac.frameSequence startOfTransmission i
  obtain ⟨hnext, hnextSent⟩ := scheduleNext_same
    ((mac.takeComponents index t now allowed).1.handDown encodedLen index t now
      (mac.takeComponents index t now allowed).2 mac.frameSequence startOfTransmission) index
    ((mac.takeComponents index t now allowed).1.nextWakeup index t now)
  constructor
  · exact hnext.trans (hdown.trans hqueues)
  · rw [messages_congr hsent] at hmessages
    rw [← hcomponents, ← hmessages]
    exact messages_congr hnextSent i

end Mac

/-! ## Runs -/

namespace Ledger

variable {encodedLen : BentPipeMessage → ℕ} {l : Ledger} {i : UInt16}

theorem conserved_fresh (mac : Mac) : Conserved i (fresh mac) :=
  ⟨[], [], rfl, rfl, List.Perm.refl _⟩

/-- Conservation is about what the ledger has for the transponder. -/
theorem Conserved.congr (h : Conserved i l) {l' : Ledger} (hmessages : l'.mac.messages i = l.mac.messages i)
    (hqueue : l'.mac.queues i = l.mac.queues i) (haccepted : l'.accepted i = l.accepted i)
    (hoverflow : l'.overflow i = l.overflow i) (htooBig : l'.tooBig i = l.tooBig i) : Conserved i l' := by
  obtain ⟨stories, current, hparts, hcontinues, hperm⟩ := h
  refine ⟨stories, current, hmessages.trans hparts, hqueue.symm ▸ hcontinues, ?_⟩
  rw [hqueue, haccepted, hoverflow, htooBig]
  exact hperm

theorem conserved_enqueue (h : Conserved i l) (index : UInt16) (packet : OwnedPacket) (readyAt : ℤ) :
    Conserved i (l.step encodedLen (.enqueue index packet readyAt)) := by
  have hsent : (l.step encodedLen (.enqueue index packet readyAt)).mac.messages i = l.mac.messages i :=
    Mac.messages_congr rfl i
  by_cases hi : i = index
  · subst hi
    obtain ⟨stories, current, hmessages, hcontinues, hperm⟩ := h
    obtain ⟨dropped, current', hparts, hpartial, hcontinues', hperm'⟩ :=
      enqueue_taken l.mac.state i packet readyAt hcontinues
    refine ⟨stories ++ dropped, current', ?_, hcontinues', ?_⟩
    · rw [hsent, hmessages, allParts_append, List.append_assoc, hparts]
    · rw [wholePackets_append, hpartial, List.append_nil]
      simp only [step, Function.update_self]
      rw [List.perm_iff_count] at hperm hperm' ⊢
      intro other
      have hcount := hperm other
      have hcount' := hperm' other
      simp only [List.count_append, Mac.withState, Mac.state] at hcount hcount' ⊢
      omega
  · have hqueue : (l.step encodedLen (.enqueue index packet readyAt)).mac.queues i = l.mac.queues i := by
      rcases enqueue_cases l.mac.state index packet readyAt with ⟨hstate, -⟩ | ⟨queue, -, hstate, -⟩
      · simp only [step, hstate]
        rfl
      · simp only [step, hstate]
        exact Function.update_of_ne hi ..
    exact h.congr hsent hqueue (Function.update_of_ne hi ..) (Function.update_of_ne hi ..) rfl

/-- A transponder whose queue is not served keeps its ledger. -/
theorem conserved_idle (h : Conserved i l) {index : UInt16} {now : ℤ} {expected : Option ℤ}
    {startOfTransmission : ℤ} (htooBig : l.mac.driveTooBig index now expected = [])
    (hsame : (l.mac.drive encodedLen index now expected startOfTransmission).queues = l.mac.queues ∧
      (l.mac.drive encodedLen index now expected startOfTransmission).sent = l.mac.sent) :
    Conserved i (l.step encodedLen (.drive index now expected startOfTransmission)) := by
  refine h.congr (Mac.messages_congr hsame.2 i) (congrFun hsame.1 i) rfl rfl ?_
  simp only [step, htooBig, List.append_nil, Function.update_eq_self]

/-- **A transponder that is served**: what is taken from its queue goes down or is recorded as too big. -/
theorem conserved_served (h : Conserved i l) {now allowed : ℤ} {expected : Option ℤ} {t : FullTransponder}
    {startOfTransmission : ℤ} (hserving : l.mac.serving i now expected = some (t, allowed))
    (hcan : l.mac.canSend i now allowed = true)
    (haccount : l.Accountable encodedLen (.drive i now expected startOfTransmission)) :
    Conserved i (l.step encodedLen (.drive i now expected startOfTransmission)) := by
  obtain ⟨hnone, hfits⟩ := haccount t allowed hserving hcan
  have hdrive := @Mac.drive_of_serving_eq_some encodedLen _ _ _ _ _ _ hserving startOfTransmission
  obtain ⟨hqueues, hmessages'⟩ := @Mac.serve_sends encodedLen _ _ _ t _ hcan startOfTransmission i
  -- the message is short enough, so the PHY gets all that was taken
  have hhanded : Mac.handed encodedLen t startOfTransmission (l.mac.dequeued i t now).components =
      (l.mac.dequeued i t now).components.map wireComponent := by
    by_cases hempty : (l.mac.dequeued i t now).components = []
    · simp [Mac.handed, hempty]
    · exact if_pos (hfits hempty)
  have htooBig : l.mac.driveTooBig i now expected = (l.mac.dequeued i t now).tooBig := by
    rw [Mac.driveTooBig, hserving]
    exact if_pos hcan
  obtain ⟨stories, current, hmessages, hcontinues, hperm⟩ := h
  obtain ⟨sent, current', hparts, hcontinues', hperm'⟩ :=
    dequeueLoop_taken _ _ _ now (l.mac.queues i) 0 current hcontinues hnone
  have hqueue : (l.step encodedLen (.drive i now expected startOfTransmission)).mac.queues i =
      (l.mac.dequeued i t now).queue := by
    simp only [step, hdrive, hqueues, Function.update_self]
  refine ⟨stories ++ sent, current', ?_, ?_, ?_⟩
  · rw [if_pos rfl, hhanded, hmessages, ← List.map_append, List.append_assoc] at hmessages'
    rw [allParts_append, List.append_assoc, ← hparts]
    simp only [step, hdrive]
    exact hmessages'
  · rw [hqueue]
    exact hcontinues'
  · rw [hqueue, wholePackets_append]
    simp only [step, htooBig, Function.update_self]
    rw [List.perm_iff_count] at hperm hperm' ⊢
    intro other
    have hcount := hperm other
    have hcount' := hperm' other
    simp only [List.count_append, Mac.dequeued] at hcount hcount' ⊢
    omega

theorem conserved_drive (h : Conserved i l) {index : UInt16} {now : ℤ} {expected : Option ℤ}
    {startOfTransmission : ℤ}
    (haccount : l.Accountable encodedLen (.drive index now expected startOfTransmission)) :
    Conserved i (l.step encodedLen (.drive index now expected startOfTransmission)) := by
  cases hserving : l.mac.serving index now expected with
  | none =>
      refine conserved_idle h ?_ (Mac.drive_of_serving_eq_none hserving startOfTransmission)
      rw [Mac.driveTooBig, hserving]
  | some served =>
      obtain ⟨t, allowed⟩ := served
      have hdrive := @Mac.drive_of_serving_eq_some encodedLen _ _ _ _ _ _ hserving startOfTransmission
      by_cases hcan : l.mac.canSend index now allowed = true
      · by_cases hi : i = index
        · subst hi
          exact conserved_served h hserving hcan haccount
        · -- another transponder is driven
          obtain ⟨hqueues, hmessages⟩ := @Mac.serve_sends encodedLen _ _ _ t _ hcan startOfTransmission i
          rw [if_neg (Ne.symm hi), List.append_nil] at hmessages
          refine h.congr ?_ ?_ rfl rfl (Function.update_of_ne hi ..)
          · simpa only [step, hdrive] using hmessages
          · simp only [step, hdrive, hqueues, Function.update_of_ne hi]
      · refine conserved_idle h ?_ ?_
        · rw [Mac.driveTooBig, hserving]
          exact if_neg hcan
        · rw [hdrive]
          exact Mac.serve_idle (Bool.not_eq_true _ ▸ hcan) startOfTransmission

theorem conserved_step (h : Conserved i l) (op : LedgerOp) (haccount : l.Accountable encodedLen op) :
    Conserved i (l.step encodedLen op) := by
  cases op with
  | enqueue index packet readyAt => exact conserved_enqueue h index packet readyAt
  | drive index now expected startOfTransmission => exact conserved_drive h haccount

/-- **Packets are conserved.** -/
theorem conserved_of_accountable (encodedLen : BentPipeMessage → ℕ) (mac : Mac) (index : UInt16)
    (ops : List LedgerOp)
    (haccount : StepsMeet (step encodedLen) (Accountable encodedLen) (fresh mac) ops) :
    Throughout (step encodedLen) (Conserved index) (fresh mac) ops :=
  haccount.throughout (P := Conserved index) (fun _ op h hop => conserved_step h op hop)
    (conserved_fresh mac)

/-! ## Packets that vanish -/

/-- A packet that was accepted and is nowhere is not conserved. -/
theorem not_conserved (haccepted : l.accepted i ≠ []) (hmessages : l.mac.messages i = [])
    (hqueue : l.mac.queues i = []) (hoverflow : l.overflow i = []) (htooBig : l.tooBig i = []) :
    ¬ Conserved i l := by
  rintro ⟨stories, current, hparts, -, hperm⟩
  rw [hmessages, eq_comm, List.map_eq_nil_iff, List.append_eq_nil_iff] at hparts
  have hnone : stories = [] := by
    cases stories with
    | nil => rfl
    | cons story stories =>
        have hstory := List.flatMap_eq_nil_iff.mp hparts.1 story List.mem_cons_self
        exact absurd hstory story.parts_ne_nil
  rw [hqueue, hoverflow, htooBig, hnone] at hperm
  exact haccepted hperm.eq_nil

/-- A transponder without slots and with an MTU of 100000 bytes. -/
def wideTransponder : FullTransponder :=
  { slotTransponder .process [] with transmitMtuBytes := 100000 }

def wideMac : Mac :=
  { slotMac .process [] with
    transponders := (∅ : Std.ExtTreeMap UInt16 FullTransponder).insert 3 wideTransponder }

/-- A packet is accepted and the transponder driven. -/
def sendOne (payload : Bytes) : List LedgerOp :=
  [.enqueue 3 ⟨⟨1, 2⟩, payload⟩ 0, .drive 3 0 none 0]

section

variable {payload : Bytes}

/-- The layer when the packet is in the queue. -/
def queuedOne (payload : Bytes) : Ledger :=
  (fresh wideMac).step BentPipeMessage.encodedLen (.enqueue 3 ⟨⟨1, 2⟩, payload⟩ 0)

theorem queuedOne_queue (payload : Bytes) :
    (queuedOne payload).mac.queues 3 = [newEntry ⟨⟨1, 2⟩, payload⟩ 0 0] := rfl

theorem queuedOne_serving (payload : Bytes) :
    (queuedOne payload).mac.serving 3 0 none = some (wideTransponder, 0) := by rfl

theorem queuedOne_canSend (payload : Bytes) : (queuedOne payload).mac.canSend 3 0 0 = true := by rfl

/-- The only packet of a queue is taken as a whole. -/
theorem dequeueLoop_whole {front : PendingTx} {mtu : ℕ} {now : ℤ} (aggregate fragment : Bool)
    (hready : front.readyAt ≤ now) (hlt : front.offset < front.packet.payload.length)
    (hle : front.packet.payload.length - front.offset ≤ mtu) :
    dequeueLoop aggregate fragment mtu now 0 [front] = ⟨[], [lastComponent front], []⟩ := by
  rw [dequeueLoop, if_neg (by omega), if_neg (by omega)]
  dsimp only
  rw [if_neg (by omega), if_pos (by omega)]
  cases aggregate <;> rfl

theorem queuedOne_dequeued (hpos : 0 < payload.length) (hle : payload.length ≤ 100000) :
    (queuedOne payload).mac.dequeued 3 wideTransponder 0 =
      ⟨[], [lastComponent (newEntry ⟨⟨1, 2⟩, payload⟩ 0 0)], []⟩ := by
  have hmtu : effectiveMtu wideTransponder.toTransponder = 100000 := by decide
  rw [Mac.dequeued, queuedOne_queue, hmtu]
  exact dequeueLoop_whole _ _ (Int.le_refl 0) hpos hle

/-- A packet whose message is too long is taken from the queue and vanishes. -/
theorem long_vanishes (hlong : 65536 ≤ payload.length) (hle : payload.length ≤ 100000) :
    ¬ Conserved 3 ((sendOne payload).foldl (step BentPipeMessage.encodedLen) (fresh wideMac)) := by
  have hdrive := @Mac.drive_of_serving_eq_some BentPipeMessage.encodedLen _ _ _ _ _ _
    (queuedOne_serving payload) 0
  have hdequeued := @queuedOne_dequeued payload (by omega) hle
  obtain ⟨hqueues, hmessages⟩ :=
    @Mac.serve_sends BentPipeMessage.encodedLen _ 3 0 wideTransponder 0 (queuedOne_canSend payload) 0 3
  -- the message is longer than its data
  have hhanded : Mac.handed BentPipeMessage.encodedLen wideTransponder 0
      [lastComponent (newEntry ⟨⟨1, 2⟩, payload⟩ 0 0)] = [] := by
    refine if_neg ?_
    simp [BentPipeMessage.encodedLen, wireMessage, BentPipeComponent.encodedLen, wireComponent,
      lastComponent, newEntry]
    omega
  rw [hdequeued] at hqueues hmessages
  rw [if_pos rfl, hhanded, List.append_nil] at hmessages
  have htooBig : (queuedOne payload).mac.driveTooBig 3 0 none = [] := by
    rw [Mac.driveTooBig, queuedOne_serving]
    dsimp only
    rw [if_pos (queuedOne_canSend payload), hdequeued]
  refine not_conserved ?_ ?_ ?_ ?_ ?_
  · change [(⟨⟨1, 2⟩, payload⟩ : OwnedPacket)] ≠ []
    exact List.cons_ne_nil _ _
  · exact (congrArg (fun mac : Mac => mac.messages 3) hdrive).trans hmessages
  · exact (congrArg (fun mac : Mac => mac.queues 3) hdrive).trans
      ((congrFun hqueues 3).trans (Function.update_self ..))
  · rfl
  · change (queuedOne payload).tooBig 3 ++ (queuedOne payload).mac.driveTooBig 3 0 none = []
    rw [htooBig]
    rfl

end

/-- An empty packet is taken from the queue and vanishes. -/
theorem empty_vanishes :
    ¬ Conserved 3 ((sendOne []).foldl (step BentPipeMessage.encodedLen) (fresh wideMac)) := by
  apply not_conserved <;> decide +kernel

theorem packets_vanish :
    ¬ Conserved 3 ((sendOne []).foldl (step BentPipeMessage.encodedLen) (fresh wideMac)) ∧
      ¬ Conserved 3 ((sendOne (List.replicate 65536 0)).foldl (step BentPipeMessage.encodedLen)
        (fresh wideMac)) :=
  ⟨empty_vanishes, long_vanishes (List.length_replicate.symm.le)
    (List.length_replicate.le.trans (by norm_num))⟩

theorem conserved_of_accountable_one :
    Throughout (step BentPipeMessage.encodedLen) (Conserved 3) (fresh wideMac) (sendOne [7]) := by
  have haccount : (queuedOne [7]).Accountable BentPipeMessage.encodedLen (.drive 3 0 none 0) := by
    intro t allowed hserving _
    obtain ⟨rfl, rfl⟩ := Prod.mk.inj (Option.some.inj ((queuedOne_serving [7]).symm.trans hserving))
    refine ⟨?_, fun _ => ?_⟩
    · rw [queuedOne_queue]
      intro _ _
      exact ⟨by decide, fun _ _ => trivial, fun _ _ => trivial⟩
    · rw [queuedOne_dequeued (by decide) (by decide)]
      decide +kernel
  exact conserved_of_accountable BentPipeMessage.encodedLen wideMac 3 (sendOne [7])
    ⟨trivial, haccount, trivial⟩

end Ledger

end Emane.BentPipe
