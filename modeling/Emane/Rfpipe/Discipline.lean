import Mathlib
import Emane.Lib.Clock
import Emane.Rfpipe.Transmit

set_option autoImplicit false

/-! # The transmit queue of the RFPipe MAC

Packets leave the queue at its front only: they are sent, one after the other and under successive
numbers, or they make room in a full queue. With flow control every token is available or belongs to a
packet in the queue (`Mac.Contract`). While there are packets, the MAC waits for a wakeup that will come,
provided that the framework accepts its timers (`Mac.Woken`). `queue_contract` says so of every run
with a clock that does not go back.

The wakeup is the one of the packet in front or of a packet behind it; jitter can make the latter ready
first. Both will do, since `driveTransmit` asks for the next wakeup whenever it leaves a packet.
-/

namespace Emane.Rfpipe.Transmit

open Emane.Lib
open Emane.PluginApi (ModelHeader)

/-! ## What a run has done -/

/-- An entry of a list to which an element is added. -/
theorem getElem?_concat {α : Type*} {xs : List α} {x y : α} {i : ℕ} :
    (xs ++ [x])[i]? = some y ↔ xs[i]? = some y ∨ i = xs.length ∧ x = y := by
  rcases lt_trichotomy i xs.length with hlt | rfl | hgt
  · rw [List.getElem?_append_left hlt]
    exact ⟨.inl, fun h => h.resolve_right fun hend => hlt.ne hend.1⟩
  · simp
  · rw [List.getElem?_eq_none (by simpa using hgt), List.getElem?_eq_none hgt.le]
    simp [hgt.ne']

/-- The end of a transmission, in the arithmetic of the clock. -/
def Transmission.ends (t : Transmission) : ℤ := I64.saturatingAdd t.start t.duration

/-- The second transmission begins when the first is over. -/
def Transmission.Before (t t' : Transmission) : Prop := I64.Over t.start t.duration t'.start

/-- The packet and its transmission, if it was sent. -/
def Departure.sent (departure : Departure) : Option (PendingTx × Transmission) :=
  match departure.fate with
  | .sent t => some (departure.pending, t)
  | .overflowed _ => none

/-- The packets that were sent with their transmissions, in that order. -/
def Mac.transmissions (mac : Mac) : List (PendingTx × Transmission) :=
  mac.life.departed.filterMap Departure.sent

/-- The packets that were sent when the next number is `sequence` and the air is clear from `clearFrom`
on; `base` is the first number. -/
structure Sent (base sequence : UInt64) (clearFrom : ℤ) (sent : List (PendingTx × Transmission)) :
    Prop where
  numbers : sent.map (fun s => s.2.header.sequence) =
    (List.range sent.length).map fun n => base + UInt64.ofNat n
  next : sequence = base + UInt64.ofNat sent.length
  durations : ∀ s ∈ sent, s.2.duration = s.1.duration
  disjoint : sent.Pairwise fun s s' => s.2.Before s'.2
  ended : ∀ s ∈ sent, s.2.ends ≤ clearFrom

/-- The invariant of a started MAC. `owed` tokens were taken for packets that are not in the queue yet. -/
structure Sound (base : UInt64) (owed : ℕ) (mac : Mac) : Prop where
  started : mac.started = true
  order : mac.life.departed.map Departure.pending ++ mac.queue = mac.life.accepted
  overflow : ∀ (i : ℕ) (pending : PendingTx) (arrived : ℕ),
    mac.life.departed[i]? = some ⟨pending, .overflowed arrived⟩ → arrived = i + queueCapacity
  sent : Sent base mac.sequence mac.currentEndOfTransmission mac.transmissions
  tokens : mac.config.flowControlEnable = true →
    mac.availableTokens + mac.queue.length + owed = mac.config.flowControlTokens.toNat
  queue_le : mac.queue.length ≤ queueCapacity

/-- The MAC waits for a callback that will come, if it has a packet. -/
structure Mac.Woken (mac : Mac) : Prop where
  armed : mac.wakeup.Armed
  woken : mac.queue ≠ [] → mac.wakeup.next ≠ 0

section

variable {base sequence : UInt64} {owed : ℕ} {mac mac' : Mac} {env : Env} {front : PendingTx}
  {queue : List PendingTx} {now : ℤ}

/-- The invariant does not speak of the wakeup and of what is sent upwards. -/
theorem Sound.of_silent (h : Sound base owed mac) (wakeup : Wakeup ℤ) (flowUpdates : List ℕ) :
    Sound base owed { mac with wakeup, life := { mac.life with flowUpdates } } :=
  ⟨h.started, h.order, h.overflow, h.sent, h.tokens, h.queue_le⟩

/-! ### Tokens -/

/-- A token comes back, and nothing else changes. -/
theorem returnToken_frame (mac : Mac) :
    ∃ availableTokens, mac.returnToken = { mac with availableTokens } ∧
      (mac.config.flowControlEnable = true →
        mac.availableTokens < mac.config.flowControlTokens.toNat →
          availableTokens = mac.availableTokens + 1) := by
  unfold Mac.returnToken
  split
  · refine ⟨_, rfl, fun _ hlt => ?_⟩
    have h16 : mac.config.flowControlTokens.toNat < 65536 := mac.config.flowControlTokens.toNat_lt
    omega
  · next hflow => exact ⟨mac.availableTokens, rfl, fun henabled => absurd henabled hflow⟩

/-- A token is taken, and nothing else changes. -/
theorem takeToken_frame (h : ¬ (mac.config.flowControlEnable = true ∧ mac.availableTokens = 0)) :
    ∃ availableTokens, mac.takeToken = some { mac with availableTokens } ∧
      (mac.config.flowControlEnable = true → availableTokens + 1 = mac.availableTokens) := by
  unfold Mac.takeToken
  split
  · next hflow =>
      have hne : mac.availableTokens ≠ 0 := fun hzero => h ⟨hflow, hzero⟩
      rw [if_neg hne]
      exact ⟨mac.availableTokens - 1, rfl, fun _ => Nat.succ_pred_eq_of_ne_zero hne⟩
  · next hflow => exact ⟨mac.availableTokens, rfl, fun henabled => absurd henabled hflow⟩

/-! ### Packets that leave the queue -/

/-- **The front of the queue leaves it.** Its token comes back, and if it makes room then it does so in a
full queue. -/
theorem Sound.departure (h : Sound base owed mac) (hqueue : mac.queue = front :: queue) {fate : Fate}
    {availableTokens : ℕ} {sequence : UInt64} {currentEndOfTransmission : ℤ} (queueDiscards : ℕ)
    (hreturn : mac.config.flowControlEnable = true →
      mac.availableTokens < mac.config.flowControlTokens.toNat →
        availableTokens = mac.availableTokens + 1)
    (hfull : ∀ arrived, fate = .overflowed arrived →
      arrived = mac.life.accepted.length ∧ queueCapacity ≤ mac.queue.length)
    (hsent : Sent base sequence currentEndOfTransmission
      (mac.transmissions ++ (Departure.mk front fate).sent.toList)) :
    Sound base owed { mac with
      queue, availableTokens, sequence, currentEndOfTransmission, queueDiscards
      life := { mac.life with departed := mac.life.departed ++ [⟨front, fate⟩] } } := by
  have hlength : mac.queue.length = queue.length + 1 := by
    rw [hqueue, List.length_cons]
  have hle := h.queue_le
  constructor
  case started => exact h.started
  case order =>
      show (mac.life.departed ++ [_]).map Departure.pending ++ queue = mac.life.accepted
      rw [← h.order, hqueue, List.map_append, List.append_assoc]
      rfl
  case overflow =>
      intro i pending arrived hi
      rcases getElem?_concat.mp hi with hold | ⟨rfl, heq⟩
      · exact h.overflow i pending arrived hold
      · -- the queue was full, and the others that were accepted had left before
        obtain ⟨rfl, rfl⟩ := Departure.mk.inj heq
        obtain ⟨rfl, hcapacity⟩ := hfull _ rfl
        rw [← h.order, List.length_append, List.length_map, hle.antisymm hcapacity]
  case sent =>
      show Sent base sequence currentEndOfTransmission
        ((mac.life.departed ++ [_]).filterMap Departure.sent)
      rw [List.filterMap_append]
      cases fate <;> exact hsent
  case tokens =>
      -- the packet in front held a token, so fewer than all are available and one can come back
      intro henabled
      have htokens := h.tokens henabled
      have hone := hreturn henabled (by omega)
      show availableTokens + queue.length + owed = mac.config.flowControlTokens.toNat
      omega
  case queue_le =>
      show queue.length ≤ queueCapacity
      omega

/-- The front of a full queue makes room. -/
theorem Sound.overflow_front (h : Sound base owed mac) (hqueue : mac.queue = front :: queue)
    (hfull : queueCapacity ≤ mac.queue.length) :
    Sound base owed (mac.overflow front queue) ∧ (mac.overflow front queue).queue = queue := by
  let departure : Departure := { pending := front, fate := .overflowed mac.life.accepted.length }
  obtain ⟨availableTokens, hreturn, hone⟩ := returnToken_frame
    { mac with
      queue
      queueDiscards := min (mac.queueDiscards + 1) (2 ^ 32 - 1)
      life := { mac.life with departed := mac.life.departed ++ [departure] } }
  unfold Mac.overflow
  rw [hreturn]
  refine ⟨h.departure hqueue _ hone (fun arrived heq => ?_) ?_, rfl⟩
  · exact ⟨(Fate.overflowed.inj heq).symm, hfull⟩
  · exact (List.append_nil mac.transmissions).symm ▸ h.sent

/-- A packet is sent after the others. -/
theorem Sent.append {clearFrom : ℤ} {sent : List (PendingTx × Transmission)}
    (h : Sent base sequence clearFrom sent) (hclear : clearFrom ≤ now) (hmax : now ≤ I64.max)
    {pending : PendingTx} {header : ModelHeader} (hnumber : header.sequence = sequence) :
    Sent base (sequence + 1) (I64.saturatingAdd now (I64.cast pending.duration))
      (sent ++ [(pending, { header, start := now, duration := pending.duration })]) where
  numbers := by
    rw [List.map_append, List.length_append, List.length_singleton, List.range_succ, List.map_append,
      h.numbers]
    exact congrArg _ (congrArg (fun n => [n]) (hnumber.trans h.next))
  next := by
    rw [h.next, List.length_append, List.length_singleton, UInt64.ofNat_add, UInt64.add_assoc]
    rfl
  durations := by
    intro s hs
    rcases List.mem_append.mp hs with hs | hs
    · exact h.durations s hs
    · obtain rfl := List.mem_singleton.mp hs
      rfl
  disjoint := by
    refine List.pairwise_append.mpr ⟨h.disjoint, List.pairwise_singleton .., ?_⟩
    intro s hs s' hs'
    obtain rfl := List.mem_singleton.mp hs'
    -- all that was sent before has ended when the air is clear
    exact I64.over_of_le ((h.ended s hs).trans hclear) hmax
  ended := by
    intro s hs
    have hcast : I64.cast pending.duration = pending.duration := I64.cast_eq pending.duration_lt
    rw [hcast]
    rcases List.mem_append.mp hs with hs | hs
    · calc s.2.ends ≤ clearFrom := h.ended s hs
        _ ≤ now := hclear
        _ ≤ I64.saturatingAdd now pending.duration :=
            I64.le_saturatingAdd hmax (Int.natCast_nonneg _)
    · obtain rfl := List.mem_singleton.mp hs
      exact le_rfl

/-- **The front of the queue is sent** when the air is clear. -/
theorem Sound.send_front (h : Sound base owed mac) (hqueue : mac.queue = front :: queue)
    (hclear : mac.currentEndOfTransmission ≤ now) (hmax : now ≤ I64.max) :
    Sound base owed (mac.send front queue now) := by
  obtain ⟨availableTokens, hreturn, hone⟩ := returnToken_frame { mac with queue }
  unfold Mac.send
  rw [hreturn]
  exact h.departure hqueue _ hone nofun (h.sent.append hclear hmax rfl)

/-! ## The operations -/

/-- What the wakeups rest on is not changed when a packet leaves the queue. -/
structure Mac.SameSetup (mac mac' : Mac) : Prop where
  started : mac'.started = mac.started
  wakeup : mac'.wakeup = mac.wakeup

theorem overflow_sameSetup (mac : Mac) (front : PendingTx) (queue : List PendingTx) :
    mac.SameSetup (mac.overflow front queue) := by
  obtain ⟨availableTokens, hreturn, -⟩ := returnToken_frame
    { mac with
      queue
      queueDiscards := min (mac.queueDiscards + 1) (2 ^ 32 - 1)
      life := { mac.life with
        departed := mac.life.departed ++ [⟨front, .overflowed mac.life.accepted.length⟩] } }
  unfold Mac.overflow
  rw [hreturn]
  exact ⟨rfl, rfl⟩

theorem send_frame (mac : Mac) (front : PendingTx) (queue : List PendingTx) (now : ℤ) :
    mac.SameSetup (mac.send front queue now) ∧ (mac.send front queue now).currentEndOfTransmission =
      I64.saturatingAdd now front.duration := by
  obtain ⟨availableTokens, hreturn, -⟩ := returnToken_frame { mac with queue }
  have hcast : I64.cast front.duration = front.duration := I64.cast_eq front.duration_lt
  unfold Mac.send
  rw [hreturn, hcast]
  exact ⟨⟨rfl, rfl⟩, rfl⟩

theorem makeRoom_sameSetup (mac : Mac) (queue : List PendingTx) :
    mac.SameSetup (mac.makeRoom queue) := by
  induction queue generalizing mac with
  | nil => exact ⟨rfl, rfl⟩
  | cons front queue ih =>
      rw [Mac.makeRoom]
      split
      -- one more packet makes room, and the loop goes on with the others
      · have hfront := overflow_sameSetup mac front queue
        have hrest := ih (mac.overflow front queue)
        exact ⟨hrest.started.trans hfront.started, hrest.wakeup.trans hfront.wakeup⟩
      · exact ⟨rfl, rfl⟩

/-- After the loop there is room for a packet. -/
theorem Sound.makeRoom (h : Sound base owed mac) (hqueue : mac.queue = queue) :
    Sound base owed (mac.makeRoom queue) ∧ (mac.makeRoom queue).queue.length < queueCapacity := by
  induction queue generalizing mac with
  | nil =>
      refine ⟨h, ?_⟩
      rw [Mac.makeRoom, hqueue]
      exact Nat.zero_lt_succ 254
  | cons front queue ih =>
      rw [Mac.makeRoom]
      split
      case isTrue hfull =>
        obtain ⟨hleft, hrest⟩ := h.overflow_front hqueue (hqueue ▸ hfull)
        exact ih hleft hrest
      case isFalse hroom =>
        refine ⟨h, ?_⟩
        rw [hqueue]
        exact not_le.mp hroom

/-- A packet joins the queue with the token that was taken for it. -/
theorem Sound.pushBack (h : Sound base 1 mac) (hroom : mac.queue.length < queueCapacity)
    (entry : PendingTx) : Sound base 0 (mac.pushBack entry) := by
  constructor
  case started => exact h.started
  case order =>
      show mac.life.departed.map Departure.pending ++ (mac.queue ++ [entry]) = mac.life.accepted ++ [entry]
      rw [← h.order, List.append_assoc]
  case overflow => exact h.overflow
  case sent => exact h.sent
  case tokens =>
      intro henabled
      have htokens := h.tokens henabled
      show mac.availableTokens + (mac.queue ++ [entry]).length + 0 = mac.config.flowControlTokens.toNat
      rw [List.length_append, List.length_singleton]
      omega
  case queue_le =>
      show (mac.queue ++ [entry]).length ≤ queueCapacity
      rw [List.length_append, List.length_singleton]
      exact hroom

theorem scheduleTransmit_wakeup (hstarted : mac.started = true) (time : ℤ) (accepted : Bool) :
    (mac.scheduleTransmit time accepted).wakeup = mac.wakeup.schedule time accepted :=
  if_pos hstarted

/-- A MAC that asks for a wakeup waits for it. -/
theorem scheduleTransmit_woken (hstarted : mac.started = true) (harmed : mac.wakeup.Armed) {time : ℤ}
    (hpos : 0 < time) {accepted : Bool} (haccepted : accepted = true) :
    (mac.scheduleTransmit time accepted).Woken := by
  have hwakeup := scheduleTransmit_wakeup hstarted time accepted
  rw [haccepted] at hwakeup ⊢
  constructor
  · rw [hwakeup]
    exact harmed.schedule time
  · rw [hwakeup]
    exact fun _ => (Wakeup.schedule_next _ hpos.ne' true).1

/-- What `driveTransmit` does to the packets: nothing, or the front of the queue is sent. -/
inductive Mac.Drives (now : ℤ) (mac : Mac) : Mac → Prop
  | waits (h : ∀ front ∈ mac.queue.head?, now < max front.readyAt mac.currentEndOfTransmission) :
      Drives now mac mac
  | sends {front : PendingTx} {queue : List PendingTx} (hqueue : mac.queue = front :: queue)
      (hclear : mac.currentEndOfTransmission ≤ now) : Drives now mac (mac.send front queue now)

theorem sendFront_drives (mac : Mac) (now : ℤ) : mac.Drives now (mac.sendFront now).1 := by
  unfold Mac.sendFront
  split
  case h_1 hqueue =>
    refine .waits fun front hfront => ?_
    rw [hqueue] at hfront
    cases hfront
  case h_2 pending queue hqueue =>
    split
    case isTrue hready => exact .sends hqueue hready.1
    case isFalse hready =>
      refine .waits fun front hfront => ?_
      rw [hqueue] at hfront
      obtain rfl := Option.some.inj hfront
      rcases not_and_or.mp hready with hbusy | hearly
      · exact lt_max_of_lt_right (not_le.mp hbusy)
      · exact lt_max_of_lt_left (not_le.mp hearly)

theorem Mac.Drives.sameSetup (h : mac.Drives now mac') : mac.SameSetup mac' := by
  cases h with
  | waits => exact ⟨rfl, rfl⟩
  | sends => exact (send_frame ..).1

theorem Mac.Drives.sound (h : mac.Drives now mac') (hmax : now ≤ I64.max) (hsound : Sound base owed mac) :
    Sound base owed mac' := by
  cases h with
  | waits => exact hsound
  | sends hqueue hclear => exact hsound.send_front hqueue hclear hmax

/-- The next wakeup is not at the time `0`, which would mean that there is none. -/
theorem Mac.Drives.wakeup_pos (h : mac.Drives now mac') (hnonneg : 0 ≤ now) (hmax : now ≤ I64.max)
    (hfront : front ∈ mac'.queue.head?) : 0 < max (max front.readyAt mac'.currentEndOfTransmission) now := by
  cases h with
  | waits hlater => exact lt_max_of_lt_left (hnonneg.trans_lt (hlater front hfront))
  | @sends sent queue =>
      rw [(send_frame mac sent queue now).2]
      apply lt_max_of_lt_left
      apply lt_max_of_lt_right
      exact I64.saturatingAdd_pos hnonneg hmax (by exact_mod_cast sent.duration_pos)

theorem driveTransmit_eq (env : Env) (hstarted : mac.started = true) :
    mac.driveTransmit env =
      match (mac.sendFront env.now).1.queue with
      | [] => (mac.sendFront env.now).1.sendFlowUpdate (mac.sendFront env.now).2
      | front :: _ =>
          ((mac.sendFront env.now).1.sendFlowUpdate (mac.sendFront env.now).2).scheduleTransmit
            (max (max front.readyAt (mac.sendFront env.now).1.currentEndOfTransmission) env.now)
            env.timerAccepted :=
  if_neg (not_not.mpr hstarted)

theorem driveTransmit_started (hstarted : mac.started = true) (env : Env) :
    (mac.driveTransmit env).started = true := by
  rw [driveTransmit_eq env hstarted]
  have hsame := (sendFront_drives mac env.now).sameSetup
  split
  · exact hsame.started.trans hstarted
  · exact hsame.started.trans hstarted

theorem Sound.driveTransmit (h : Sound base 0 mac) (hmax : env.now ≤ I64.max) :
    Sound base 0 (mac.driveTransmit env) := by
  rw [driveTransmit_eq env h.started]
  have hsent := (sendFront_drives mac env.now).sound hmax h
  split
  · exact hsent.of_silent _ _
  · exact hsent.of_silent _ _

/-- **`driveTransmit` asks for a wakeup** whenever it leaves a packet. -/
theorem driveTransmit_woken (hstarted : mac.started = true) (harmed : mac.wakeup.Armed)
    (hnonneg : 0 ≤ env.now) (hmax : env.now ≤ I64.max) (haccepted : env.timerAccepted = true) :
    (mac.driveTransmit env).Woken := by
  rw [driveTransmit_eq env hstarted]
  have hdrives := sendFront_drives mac env.now
  have hsame := hdrives.sameSetup
  rw [← hsame.wakeup] at harmed
  split
  · next hempty => exact ⟨harmed, fun hne => absurd hempty hne⟩
  · next front queue hqueue =>
      have hfront : front ∈ (mac.sendFront env.now).1.queue.head? := by
        rw [hqueue]
        rfl
      refine scheduleTransmit_woken ?_ ?_ (hdrives.wakeup_pos hnonneg hmax hfront) haccepted
      · exact hsame.started.trans hstarted
      · exact harmed

/-! ## The callbacks -/

/-- The MAC when a packet has joined the queue, with so many tokens left. -/
def Mac.enqueue (mac : Mac) (availableTokens : ℕ) (entry : PendingTx) : Mac :=
  ({ mac with availableTokens }.makeRoom mac.queue).pushBack entry

theorem enqueue_sameSetup (mac : Mac) (availableTokens : ℕ) (entry : PendingTx) :
    mac.SameSetup (mac.enqueue availableTokens entry) := by
  have hroom := makeRoom_sameSetup { mac with availableTokens } mac.queue
  exact ⟨hroom.started, hroom.wakeup⟩

/-- **What `processDownstream` can do**: a packet is refused, or it joins the queue for a token; then
the MAC transmits or asks for the wakeup of the packet. -/
theorem processDownstream_cases (mac : Mac) (packet : OwnedPacket) (env : Env) :
    mac.processDownstream packet env = some mac ∨
      ∃ availableTokens entry,
        (mac.config.flowControlEnable = true → availableTokens + 1 = mac.availableTokens) ∧
        (mac.processDownstream packet env =
            some ((mac.enqueue availableTokens entry).driveTransmit env) ∨
          ∃ time, env.now < time ∧ mac.processDownstream packet env =
            some ((mac.enqueue availableTokens entry).scheduleTransmit time env.timerAccepted)) := by
  unfold Mac.processDownstream
  split
  case isTrue => exact .inl rfl
  case isFalse hpasses =>
    right
    obtain ⟨-, htoken⟩ := not_or.mp hpasses
    obtain ⟨availableTokens, htake, hone⟩ := takeToken_frame htoken
    rw [htake, Option.map_some]
    refine ⟨availableTokens, { mac with availableTokens }.newEntry packet env, hone, ?_⟩
    dsimp only
    split
    case isTrue => exact .inl rfl
    case isFalse hlater => exact .inr ⟨_, not_le.mp hlater, rfl⟩

theorem Sound.enqueue (h : Sound base 0 mac) {availableTokens : ℕ}
    (hone : mac.config.flowControlEnable = true → availableTokens + 1 = mac.availableTokens)
    (entry : PendingTx) : Sound base 0 (mac.enqueue availableTokens entry) := by
  -- the token that was taken is owed until the packet is in the queue
  have htaken : Sound base 1 { mac with availableTokens } := by
    refine ⟨h.started, h.order, h.overflow, h.sent, fun henabled => ?_, h.queue_le⟩
    have htokens := h.tokens henabled
    have hless := hone henabled
    show availableTokens + mac.queue.length + 1 = mac.config.flowControlTokens.toNat
    omega
  obtain ⟨hsound, hroom⟩ := htaken.makeRoom rfl
  exact hsound.pushBack hroom entry

theorem processTimedEvent_eq (mac : Mac) (value : ℤ) (env : Env) :
    mac.processTimedEvent value env =
      if (mac.wakeup.fire value).2 then
        { mac with wakeup := (mac.wakeup.fire value).1 }.driveTransmit env
      else { mac with wakeup := (mac.wakeup.fire value).1 } := rfl

/-- The invariant of a run in which the framework accepts all timers if `accepting`. -/
structure Kept (accepting : Prop) (base : UInt64) (clock : ℤ) (mac : Mac) : Prop
    extends Sound base 0 mac where
  nonneg : 0 ≤ clock
  woken : accepting → mac.Woken

/-- **A callback does not fail and keeps the invariant.** -/
theorem callback_kept {accepting : Prop} {clock : ℤ} {callback : Callback}
    (hclock : clock ≤ callback.now) (hmax : callback.now ≤ I64.max)
    (haccepted : accepting → callback.env.timerAccepted = true) (h : Kept accepting base clock mac) :
    ∃ mac', mac.callback callback = some mac' ∧ Kept accepting base callback.now mac' := by
  have hnonneg : 0 ≤ callback.now := h.nonneg.trans hclock
  cases callback with
  | downstream source destination payload env =>
      rw [Mac.callback]
      cases ownPacket source destination payload with
      | none => exact ⟨mac, rfl, h.toSound, hnonneg, h.woken⟩
      | some packet =>
          dsimp only
          rcases processDownstream_cases mac packet env with hrefused | ⟨tokens, entry, hone, hqueued⟩
          · exact ⟨mac, hrefused, h.toSound, hnonneg, h.woken⟩
          · have hsound := h.toSound.enqueue hone entry
            have harmed : accepting → (mac.enqueue tokens entry).wakeup.Armed := by
              intro haccepting
              rw [(enqueue_sameSetup mac tokens entry).wakeup]
              exact (h.woken haccepting).armed
            rcases hqueued with hdrive | ⟨time, hlater, hschedule⟩
            · refine ⟨_, hdrive, hsound.driveTransmit hmax, hnonneg, fun haccepting => ?_⟩
              exact driveTransmit_woken hsound.started (harmed haccepting) hnonneg hmax
                (haccepted haccepting)
            · refine ⟨_, hschedule, hsound.of_silent _ _, hnonneg, fun haccepting => ?_⟩
              exact scheduleTransmit_woken hsound.started (harmed haccepting)
                (hnonneg.trans_lt hlater) (haccepted haccepting)
  | timed value env =>
      refine ⟨_, rfl, ?_⟩
      have hfired : Sound base 0 { mac with wakeup := (mac.wakeup.fire value).1 } :=
        h.toSound.of_silent _ _
      rw [processTimedEvent_eq]
      split
      case isTrue hdue =>
        exact ⟨hfired.driveTransmit hmax, hnonneg, fun haccepting =>
          driveTransmit_woken hfired.started (Wakeup.fire_due hdue) hnonneg hmax (haccepted haccepting)⟩
      -- a callback that is out of date leaves the wakeup that is waited for
      case isFalse hstale =>
        refine ⟨hfired, hnonneg, fun haccepting => ?_⟩
        obtain ⟨hnext, harmed⟩ := Wakeup.fire_stale (Bool.eq_false_iff.mpr hstale)
        have hwoken := h.woken haccepting
        refine ⟨harmed hwoken.armed, fun hne => ?_⟩
        show (mac.wakeup.fire value).1.next ≠ 0
        rw [hnext]
        exact hwoken.woken hne

/-! ## Whole runs -/

/-- A MAC that does not run. -/
structure Mac.Stopped (mac : Mac) : Prop where
  started : mac.started = false
  queue : mac.queue = []
  wakeup : mac.wakeup = Wakeup.idle

theorem Mac.stopped_fresh (config : Config) : (Mac.fresh config).Stopped := ⟨rfl, rfl, rfl⟩

/-- A MAC that is started has done nothing yet. -/
theorem kept_start (h : mac.Stopped) {clock : ℤ} (hclock : 0 ≤ clock) (accepting : Prop) :
    Kept accepting mac.sequence clock (mac.start true) := by
  have hqueue : (mac.start true).queue = [] := h.queue
  have hwakeup : (mac.start true).wakeup = Wakeup.idle := h.wakeup
  refine ⟨⟨rfl, hqueue, nofun, ?_, fun _ => ?_, by simp [hqueue]⟩, hclock, fun _ => ⟨?_, ?_⟩⟩
  · exact ⟨rfl, (UInt64.add_zero _).symm, nofun, List.Pairwise.nil, nofun⟩
  · rw [hqueue]
    rfl
  · rw [hwakeup]
    exact Wakeup.idle_armed
  · exact fun hne => absurd hqueue hne

/-- A callback of a MAC that does not run leaves it so. -/
theorem callback_stopped (h : mac.Stopped) (callback : Callback) :
    ∃ mac', mac.callback callback = some mac' ∧ mac'.Stopped := by
  cases callback with
  | downstream source destination payload env =>
      rw [Mac.callback]
      cases ownPacket source destination payload with
      | none => exact ⟨mac, rfl, h⟩
      | some packet =>
          refine ⟨mac, ?_, h⟩
          show mac.processDownstream packet env = some mac
          exact if_pos (.inl (by rw [h.started]; decide))
  | timed value env =>
      refine ⟨_, rfl, ?_⟩
      have hfired : (mac.wakeup.fire value).1 = Wakeup.idle := by
        rw [h.wakeup]
        exact Wakeup.idle_fire value
      have hstopped : Mac.Stopped { mac with wakeup := (mac.wakeup.fire value).1 } :=
        ⟨h.started, h.queue, hfired⟩
      have hdrive : { mac with wakeup := (mac.wakeup.fire value).1 }.driveTransmit env =
          { mac with wakeup := (mac.wakeup.fire value).1 } :=
        if_pos (by rw [hstopped.started]; decide)
      rw [processTimedEvent_eq, hdrive, ite_self]
      exact hstopped

/-- A callback of a MAC that runs does not fail, whatever the clock says. -/
theorem callback_started (h : mac.started = true) (callback : Callback) :
    ∃ mac', mac.callback callback = some mac' ∧ mac'.started = true := by
  cases callback with
  | downstream source destination payload env =>
      rw [Mac.callback]
      cases ownPacket source destination payload with
      | none => exact ⟨mac, rfl, h⟩
      | some packet =>
          dsimp only
          rcases processDownstream_cases mac packet env with
            hrefused | ⟨tokens, entry, -, hdrive | ⟨time, -, hschedule⟩⟩
          · exact ⟨mac, hrefused, h⟩
          · have hsame := enqueue_sameSetup mac tokens entry
            exact ⟨_, hdrive, driveTransmit_started (hsame.started.trans h) env⟩
          · have hsame := enqueue_sameSetup mac tokens entry
            exact ⟨_, hschedule, hsame.started.trans h⟩
  | timed value env =>
      refine ⟨_, rfl, ?_⟩
      rw [processTimedEvent_eq]
      split
      · apply driveTransmit_started
        exact h
      · exact h

theorem transmitSide_keeps :
    transmitSide.Keeps (fun mac => mac.Stopped) fun mac => mac.started = true where
  failed _ h := h
  start _ _ := rfl
  stop _ _ := ⟨rfl, rfl, rfl⟩
  idle _ callback h := callback_stopped h callback
  callback _ callback h := callback_started h callback

/-! ## The contract -/

/-- What the MAC has done since its start; `base` is the first sequence number. -/
structure Mac.Contract (base : UInt64) (mac : Mac) : Prop where
  /-- packets leave the queue in the order in which they were accepted -/
  order : mac.life.departed.map Departure.pending ++ mac.queue = mac.life.accepted
  /-- each packet is sent at most once, in that order -/
  sent : (mac.transmissions.map Prod.fst).Sublist mac.life.accepted
  /-- a packet that is lost was the oldest one of a full queue -/
  overflow : ∀ (i : ℕ) (pending : PendingTx) (arrived : ℕ),
    mac.life.departed[i]? = some ⟨pending, .overflowed arrived⟩ → arrived = i + queueCapacity
  /-- the packets that are sent have successive numbers -/
  numbers : mac.transmissions.map (fun s => s.2.header.sequence) =
    (List.range mac.transmissions.length).map fun n => base + UInt64.ofNat n
  /-- a transmission takes as long as its packet -/
  durations : ∀ s ∈ mac.transmissions, s.2.duration = s.1.duration
  /-- no two transmissions overlap -/
  disjoint : mac.transmissions.Pairwise fun s s' => s.2.Before s'.2
  /-- every token is available or belongs to a packet in the queue -/
  tokens : mac.config.flowControlEnable = true →
    mac.availableTokens + mac.queue.length = mac.config.flowControlTokens.toNat

/-- The packets that were sent are among those that have left. -/
theorem transmissions_sublist (departed : List Departure) :
    ((departed.filterMap Departure.sent).map Prod.fst).Sublist (departed.map Departure.pending) := by
  induction departed with
  | nil => exact .slnil
  | cons departure departed ih =>
      obtain ⟨pending, fate⟩ := departure
      cases fate with
      | sent t => exact ih.cons_cons pending
      | overflowed arrived => exact ih.cons pending

theorem Sound.contract (h : Sound base 0 mac) : mac.Contract base where
  order := h.order
  sent := by
    rw [← h.order]
    exact (transmissions_sublist _).trans (List.sublist_append_left ..)
  overflow := h.overflow
  numbers := h.sent.numbers
  durations := h.sent.durations
  disjoint := h.sent.disjoint
  tokens := h.tokens

end

/-- **The transmit queue**: from any start of the MAC, with a clock that does not go back, no callback
fails. The packets accepted since the start are sent in their order, one at a time and under successive
numbers, or make room as the oldest of a full queue, and the tokens are conserved. If the framework
accepts the timers, a MAC with packets waits for a callback that will come. -/
theorem queue_contract (config : Config) (before : List (LayerOp Callback)) {layer : Layer Mac}
    (hbefore : runSteps transmitSide.step ⟨Mac.fresh config, false⟩ before = some layer)
    (hstopped : layer.started = false) (clock : ℤ) (hclock : 0 ≤ clock) (callbacks : List Callback)
    (htimed : Timed Callback.now Callback.now clock callbacks)
    (hmax : ∀ callback ∈ callbacks, callback.now ≤ I64.max) :
    ∃ mac, runSteps Mac.callback (layer.state.start true) callbacks = some mac ∧
      mac.Contract layer.state.sequence ∧
      ((∀ callback ∈ callbacks, callback.env.timerAccepted = true) → mac.Woken) := by
  -- whatever was done before, a layer that is not started has a MAC that does not run
  obtain ⟨layer', hrun, hsound⟩ := transmitSide_keeps.run (Mac.stopped_fresh config) before
  obtain rfl := Option.some.inj (hrun.symm.trans hbefore)
  have hkept := kept_start (hsound.stopped hstopped) hclock
    (∀ callback ∈ callbacks, callback.env.timerAccepted = true)
  have hstep : ∀ clock mac callback, callback ∈ callbacks → clock ≤ callback.now →
      callback.now ≤ callback.now →
      Kept (∀ callback ∈ callbacks, callback.env.timerAccepted = true) layer'.state.sequence clock mac →
      ∃ mac', mac.callback callback = some mac' ∧
        Kept (∀ callback ∈ callbacks, callback.env.timerAccepted = true) layer'.state.sequence
          callback.now mac' := by
    intro clock mac callback hmem hbegins _ hI
    exact callback_kept hbegins (hmax callback hmem) (fun haccepting => haccepting callback hmem) hI
  obtain ⟨mac, clock', hmac, hend⟩ := timed_completes (fun callback => callback ∈ callbacks) hstep
    callbacks clock (layer'.state.start true) (fun _ hmem => hmem) htimed hkept
  exact ⟨mac, hmac, hend.toSound.contract, hend.woken⟩

/-- Two tokens, a megabit per second, and a delay of 100 microseconds. -/
def twoTokens : Config where
  dataRateBps := 1000000
  delayMicroseconds := 100
  flowControlEnable := true
  flowControlTokens := 2

/-- A MAC that was started before. The second packet is ready before the first one and the third is
refused; the callback with 99 is out of date. -/
theorem queue_contract_twoTokens :
    ∃ mac, runSteps Mac.callback (((Mac.fresh twoTokens).start true).stop.start true)
        [.downstream 1 2 [7] { now := 100, jitter := 50, timerAccepted := true },
          .downstream 1 2 [8] { now := 110, jitter := -60, timerAccepted := true },
          .downstream 1 2 [9] { now := 120, jitter := 0, timerAccepted := true },
          .timed 150 { now := 150, jitter := 0, timerAccepted := true },
          .timed 99 { now := 200, jitter := 0, timerAccepted := true },
          .timed 250 { now := 255, jitter := 0, timerAccepted := true }] = some mac ∧
      mac.Contract 0 ∧ mac.Woken := by
  have hbefore : runSteps transmitSide.step ⟨Mac.fresh twoTokens, false⟩ [.start true, .stop] =
      some ⟨((Mac.fresh twoTokens).start true).stop, false⟩ := rfl
  obtain ⟨mac, hrun, hcontract, hwoken⟩ := queue_contract twoTokens _ hbefore rfl 0 le_rfl
    [.downstream 1 2 [7] { now := 100, jitter := 50, timerAccepted := true },
      .downstream 1 2 [8] { now := 110, jitter := -60, timerAccepted := true },
      .downstream 1 2 [9] { now := 120, jitter := 0, timerAccepted := true },
      .timed 150 { now := 150, jitter := 0, timerAccepted := true },
      .timed 99 { now := 200, jitter := 0, timerAccepted := true },
      .timed 250 { now := 255, jitter := 0, timerAccepted := true }] (by decide) (by decide)
  exact ⟨mac, hrun, hcontract, hwoken (by decide)⟩

end Emane.Rfpipe.Transmit
