import Mathlib
import Emane.Ieee80211.Transmit
import Emane.Lib.Accounting

set_option autoImplicit false

/-! # What the callbacks do to packets

`drive` and `processDownstream` are made of few moves: a packet is dropped from the front of its queue,
becomes active, waits for its backoff, is sent, is tried again or leaves. `drive_spec` says that the
loop of `drive` ends, that what it does is a series of such moves, and how it leaves the active packet;
`processDownstream_cases` says the same of a packet from above. The invariants of the layer are proved
for one move each.
-/

namespace Emane.Ieee80211

open Emane.Lib
open Relation (ReflTransGen)

/-- What happens to one packet in a callback. -/
inductive Move (env : Env) : Mac → Mac → Prop
  /-- the front of a queue is dropped -/
  | drop {mac : Mac} {category : Fin 4} {front : PendingTx} {queue : List PendingTx}
      (reason : DiscardReason) (hqueue : mac.queues category = front :: queue) :
      Move env mac (mac.dropFront category front queue reason)
  /-- the front of a queue becomes active -/
  | select {mac : Mac} {category : Fin 4} {front : PendingTx} {queue : List PendingTx}
      (hactive : mac.activeTx = none) (hqueue : mac.queues category = front :: queue) :
      Move env mac { mac with
        activeTx := some front
        queues := Function.update mac.queues category queue }
  /-- the backoff begins -/
  | backoff {mac : Mac} {pending : PendingTx} (hactive : mac.activeTx = some pending)
      (hphase : pending.phase = .idle) (readyAt : ℤ) (postDelayMicroseconds : ℕ) (collision : Bool) :
      Move env mac { mac with
        activeTx := some { pending with readyAt, postDelayMicroseconds, collision, phase := .pre } }
  /-- the backoff is over -/
  | transmit {mac : Mac} {pending : PendingTx} (hactive : mac.activeTx = some pending)
      (hphase : pending.phase = .pre) (hready : pending.readyAt ≤ env.now) :
      Move env mac (mac.transmit pending env.now)
  /-- the transmission is over and is tried again -/
  | retry {mac : Mac} {pending : PendingTx} (hactive : mac.activeTx = some pending)
      (hphase : pending.phase = .post) (hready : pending.readyAt ≤ env.now)
      (hretries : pending.retries < pending.maxRetries.toNat) :
      Move env mac { mac with
        activeTx := some { pending with retries := min (pending.retries + 1) 255, phase := .idle } }
  /-- the active packet leaves, with its backoff not begun or its transmission over -/
  | leave {mac : Mac} {pending : PendingTx} (hactive : mac.activeTx = some pending)
      (hphase : pending.phase = .idle ∨ pending.phase = .post ∧ pending.readyAt ≤ env.now)
      (outcome : Option DiscardReason) (queueDiscards : Fin 4 → ℕ) :
      Move env mac (({ mac with activeTx := none, queueDiscards }.settle pending outcome).returnToken)

/-- A series of moves. -/
def Moves (env : Env) : Mac → Mac → Prop := ReflTransGen (Move env)

/-- What every move keeps, a series of moves keeps. -/
theorem Moves.keeps {env : Env} {I : Mac → Prop} (hmove : ∀ mac mac', I mac → Move env mac mac' → I mac')
    {mac mac' : Mac} (h : Moves env mac mac') (hI : I mac) : I mac' := by
  induction h with
  | refl => exact hI
  | tail _ hlast ih => exact hmove _ _ ih hlast

/-! ## What the helpers leave alone -/

namespace Mac

variable {mac : Mac}

@[simp] theorem returnToken_config (mac : Mac) : mac.returnToken.config = mac.config := by
  unfold returnToken; split <;> rfl

@[simp] theorem returnToken_started (mac : Mac) : mac.returnToken.started = mac.started := by
  unfold returnToken; split <;> rfl

@[simp] theorem returnToken_queues (mac : Mac) : mac.returnToken.queues = mac.queues := by
  unfold returnToken; split <;> rfl

@[simp] theorem returnToken_activeTx (mac : Mac) : mac.returnToken.activeTx = mac.activeTx := by
  unfold returnToken; split <;> rfl

@[simp] theorem returnToken_sequence (mac : Mac) : mac.returnToken.sequence = mac.sequence := by
  unfold returnToken; split <;> rfl

@[simp] theorem returnToken_wakeup (mac : Mac) : mac.returnToken.wakeup = mac.wakeup := by
  unfold returnToken; split <;> rfl

@[simp] theorem returnToken_life (mac : Mac) : mac.returnToken.life = mac.life := by
  unfold returnToken; split <;> rfl

@[simp] theorem dropFront_queues (category : Fin 4) (front : PendingTx) (queue : List PendingTx)
    (reason : DiscardReason) :
    (mac.dropFront category front queue reason).queues = Function.update mac.queues category queue :=
  returnToken_queues _

/-- The active packet that leaves takes its place with it and nothing else. -/
theorem settle_frame (mac : Mac) (pending : PendingTx) (outcome : Option DiscardReason) :
    ∃ finished discarded, mac.settle pending outcome =
      { mac with life := { mac.life with finished, discarded } } := by
  cases outcome with
  | some reason => exact ⟨_, _, rfl⟩
  | none => exact ⟨_, _, rfl⟩

end Mac

/-- The part of the state that moves leave alone. -/
structure Mac.SameSetup (mac mac' : Mac) : Prop where
  config : mac'.config = mac.config
  started : mac'.started = mac.started
  wakeup : mac'.wakeup = mac.wakeup
  accepted : mac'.life.accepted = mac.life.accepted

theorem Mac.SameSetup.trans {s₁ s₂ s₃ : Mac} (h : s₁.SameSetup s₂) (h' : s₂.SameSetup s₃) :
    s₁.SameSetup s₃ :=
  ⟨h'.config.trans h.config, h'.started.trans h.started, h'.wakeup.trans h.wakeup,
    h'.accepted.trans h.accepted⟩

theorem Move.sameSetup {env : Env} {mac mac' : Mac} (h : Move env mac mac') : mac.SameSetup mac' := by
  cases h with
  | drop reason hqueue =>
      constructor <;> simp [Mac.dropFront, Mac.countDiscard]
  | select | backoff | transmit | retry => exact ⟨rfl, rfl, rfl, rfl⟩
  | leave hactive hphase outcome queueDiscards =>
      cases outcome with
      | some reason => constructor <;> simp [Mac.settle]
      | none => constructor <;> simp [Mac.settle]

theorem Moves.sameSetup {env : Env} {mac mac' : Mac} (h : Moves env mac mac') :
    mac.SameSetup mac' :=
  h.keeps (I := mac.SameSetup)
    (fun _ _ hI hmove => hI.trans hmove.sameSetup) ⟨rfl, rfl, rfl, rfl⟩

/-! ## The loops over the queues -/

section

variable {env : Env} {mac : Mac}

@[simp] theorem Driving.updated_mac (d : Driving) : d.updated.mac = d.mac := by
  unfold Driving.updated; split <;> rfl

theorem expireQueue_moves (now : ℤ) (category : Fin 4) (queue : List PendingTx) (d : Driving)
    (hqueue : d.mac.queues category = queue) :
    Moves env d.mac (d.expireQueue now category queue).mac := by
  induction queue generalizing d with
  | nil => exact .refl
  | cons front queue ih =>
      rw [Driving.expireQueue]
      split
      case isTrue =>
        refine .head (Move.drop .txop hqueue) ?_
        have hrest := ih (Driving.updated
          { d with mac := d.mac.dropFront category front queue .txop }) (by simp)
        rwa [Driving.updated_mac] at hrest
      case isFalse => exact .refl

theorem expire_moves (now : ℤ) (d : Driving) : Moves env d.mac (d.expire now).mac := by
  unfold Driving.expire
  induction List.finRange 4 generalizing d with
  | nil => exact .refl
  | cons category categories ih =>
      exact (expireQueue_moves now category _ d rfl).trans (ih _)

theorem makeRoom_moves (queueSize : ℕ) (category : Fin 4) (queue : List PendingTx) (mac : Mac)
    (hqueue : mac.queues category = queue) :
    Moves env mac (Mac.makeRoom queueSize category queue mac) := by
  induction queue generalizing mac with
  | nil => exact .refl
  | cons front queue ih =>
      rw [Mac.makeRoom]
      split
      case isTrue => exact .head (Move.drop .overflow hqueue) (ih _ (by simp))
      case isFalse => exact .refl

/-! ## The loop over the phases -/

/-- The number of queued packets as an account in which each is worth one. -/
theorem Mac.queued_eq_account (mac : Mac) :
    mac.queued = account (fun _ : PendingTx => 1) mac.queues := by
  unfold queued account
  simp

theorem queued_update {category : Fin 4} {front : PendingTx} {queue : List PendingTx}
    (hqueue : mac.queues category = front :: queue) :
    mac.queued = ∑ c, (Function.update mac.queues category queue c).length + 1 := by
  rw [Mac.queued_eq_account, account_front hqueue, add_comm]
  unfold account
  simp

theorem takeActive_none (h : mac.takeActive = none) :
    mac.activeTx = none ∧ ∀ category, mac.queues category = [] := by
  unfold Mac.takeActive at h
  split at h
  · cases h
  next hactive =>
  refine ⟨hactive, fun category => ?_⟩
  have hnone := List.findSome?_eq_none_iff.mp h category (by simp)
  split at hnone
  · next hqueue => exact hqueue
  · cases hnone

/-- The packet that is taken was active, or it is selected now; in the first case the queues stay as
they are, in the second there is one packet less. -/
theorem takeActive_some (env : Env) {pending : PendingTx} {mac' : Mac} (h : mac.takeActive = some (pending, mac')) :
    Moves env mac { mac' with activeTx := some pending } ∧ mac'.activeTx = none ∧
      4 * mac'.queued + pending.phase.distance ≤ mac.turns := by
  unfold Mac.takeActive at h
  split at h
  · next active hactive =>
      obtain ⟨rfl, rfl⟩ := Prod.mk.inj (Option.some.inj h)
      refine ⟨?_, rfl, ?_⟩
      · rw [show ({ mac with activeTx := some active } : Mac) = mac by rw [← hactive]]
        exact .refl
      · rw [Mac.turns, hactive]
        exact le_rfl
  · next hactive =>
      obtain ⟨category, -, hfront⟩ := List.exists_of_findSome?_eq_some h
      split at hfront
      · cases hfront
      next front queue hqueue =>
      obtain ⟨rfl, rfl⟩ := Prod.mk.inj (Option.some.inj hfront)
      refine ⟨.single (Move.select hactive hqueue), rfl, ?_⟩
      have hqueued := queued_update hqueue
      have hdistance : front.phase.distance ≤ 3 := by cases front.phase <;> decide
      rw [Mac.turns, hactive, hqueued]
      change 4 * ∑ c, (Function.update mac.queues category queue c).length + _ ≤ _
      omega

/-- How `drive` leaves the active packet: there is none and nothing to send, or it waits for a time
that is not over. -/
def Mac.Rests (env : Env) (mac : Mac) : Prop :=
  match mac.activeTx with
  | none => ∀ category, mac.queues category = []
  | some pending => 0 ≤ env.now → env.now ≤ I64.max → env.now ≤ pending.readyAt ∧ 0 < pending.readyAt

/-- A packet that was just sent is ready when its transmission is over, which takes some time. -/
theorem transmit_rests (mac : Mac) (pending : PendingTx) (env : Env) :
    (mac.transmit pending env.now).Rests env := by
  change 0 ≤ env.now → env.now ≤ I64.max → _
  intro hnonneg hmax
  set duration := packetDuration mac.config.mode pending.packet.payload.length
    (if pending.packet.broadcast then mac.config.multicastRateIndex else mac.config.unicastRateIndex)
    pending.packet.broadcast pending.rtsCts with hduration
  have hpos : 0 < I64.cast duration := by
    rw [I64.cast_eq (packetDuration_lt _ _ _ _ _ pending.packet.payload_le)]
    exact Int.natCast_pos.mpr (packetDuration_pos _ _ _ _ _)
  have hend : env.now ≤ I64.saturatingAdd env.now (I64.cast duration) :=
    I64.le_saturatingAdd hmax hpos.le
  have hready := I64.le_saturatingAdd (I64.saturatingAdd_le_max env.now (I64.cast duration))
    (I64.clamp_nonneg pending.postDelayMicroseconds)
  have hzero : 0 < I64.saturatingAdd env.now (I64.cast duration) :=
    I64.saturatingAdd_pos hnonneg hmax hpos
  exact ⟨hend.trans hready, hzero.trans_le hready⟩

/-- The turns that are left when nothing is active. -/
theorem turns_of_activeTx_none (h : mac.activeTx = none) : mac.turns = 4 * mac.queued := by
  rw [Mac.turns, h]
  rfl

theorem turns_settle {mac' : Mac} (h : mac'.activeTx = none) (pending : PendingTx)
    (outcome : Option DiscardReason) :
    (mac'.settle pending outcome).returnToken.turns = 4 * mac'.queued := by
  cases outcome with
  | some reason =>
      rw [turns_of_activeTx_none (by simpa [Mac.settle] using h)]
      simp [Mac.settle, Mac.queued]
  | none =>
      rw [turns_of_activeTx_none (by simpa [Mac.settle] using h)]
      simp [Mac.settle, Mac.queued]

/-- **A turn that is not the last**: it is a series of moves and brings the loop closer to its end. -/
theorem turn_again {d d' : Driving} (h : d.turn env = .again d') :
    Moves env d.mac d'.mac ∧ d'.mac.turns < d.mac.turns := by
  simp only [Driving.turn] at h
  split at h
  · cases h
  next pending mac' htake =>
  obtain ⟨hmoves, hactive, hturns⟩ := takeActive_some env htake
  have hmac : { mac' with activeTx := none } = mac' := by rw [← hactive]
  -- what a packet that leaves does, for each of the three ways to leave
  have hleave (outcome : Option DiscardReason) (queueDiscards : Fin 4 → ℕ)
      (hphase : pending.phase = .idle ∨ pending.phase = .post ∧ pending.readyAt ≤ env.now) :
      Moves env d.mac (({ mac' with queueDiscards }.settle pending outcome).returnToken) ∧
        ({ mac' with queueDiscards }.settle pending outcome).returnToken.turns < d.mac.turns := by
    constructor
    · refine hmoves.tail ?_
      rw [← hmac]
      exact Move.leave rfl hphase outcome queueDiscards
    · have hgone : Mac.activeTx { mac' with queueDiscards } = none := hactive
      rw [turns_settle hgone]
      change 4 * mac'.queued < _
      have : 0 < pending.phase.distance := by cases pending.phase <;> decide
      omega
  split at h
  · next hphase =>
      split at h
      · cases h
        rw [Driving.updated_mac]
        exact hleave (some .txop) _ (.inl hphase)
      · cases h
        refine ⟨hmoves.tail (Move.backoff rfl hphase ..), ?_⟩
        rw [hphase] at hturns
        change 4 * mac'.queued + 1 < _
        change 4 * mac'.queued + 2 ≤ _ at hturns
        omega
  · split at h
    · cases h
    · cases h
  · next hphase =>
      split at h
      · cases h
      next hready =>
      have hready := not_lt.mp hready
      split at h
      · split at h
        · cases h
          rw [Driving.updated_mac]
          exact hleave (some .retries) mac'.queueDiscards (.inr ⟨hphase, hready⟩)
        next hretries =>
        cases h
        refine ⟨hmoves.tail (Move.retry rfl hphase hready (not_le.mp hretries)), ?_⟩
        rw [hphase] at hturns
        change 4 * mac'.queued + 2 < _
        change 4 * mac'.queued + 3 ≤ _ at hturns
        omega
      · cases h
        rw [Driving.updated_mac]
        exact hleave none mac'.queueDiscards (.inr ⟨hphase, hready⟩)

/-- **The last turn.** -/
theorem turn_done {d d' : Driving} (h : d.turn env = .done d') :
    Moves env d.mac d'.mac ∧ d'.mac.Rests env := by
  simp only [Driving.turn] at h
  split at h
  · next htake =>
      cases h
      obtain ⟨hactive, hqueues⟩ := takeActive_none htake
      refine ⟨.refl, ?_⟩
      unfold Mac.Rests
      rw [hactive]
      exact hqueues
  next pending mac' htake =>
  obtain ⟨hmoves, -, -⟩ := takeActive_some env htake
  have hwait (hready : env.now < pending.readyAt) :
      Mac.Rests env { mac' with activeTx := some pending } :=
    fun hnonneg _ => ⟨hready.le, hnonneg.trans_lt hready⟩
  split at h
  · split at h
    · cases h
    · cases h
  · next hphase =>
      split at h
      · next hready =>
          cases h
          exact ⟨hmoves, hwait hready⟩
      next hready =>
      cases h
      exact ⟨hmoves.tail (Move.transmit rfl hphase (not_lt.mp hready)), transmit_rests mac' pending env⟩
  · split at h
    · next hready =>
        cases h
        exact ⟨hmoves, hwait hready⟩
    · split at h
      · split at h
        · cases h
        · cases h
      · cases h

/-! ## The callbacks -/

/-- The end of `drive`: an update is sent, and a wakeup is scheduled for the active packet. -/
def Mac.wind (mac : Mac) (update : Option ℕ) (accepted : Bool) : Mac :=
  match mac.activeTx with
  | some pending => (mac.sendFlowUpdate update).scheduleTransmit pending.readyAt accepted
  | none => mac.sendFlowUpdate update

/-- **`drive` ends**, and it is a series of moves that leaves nothing to do now. -/
theorem drive_spec (env : Env) (hstarted : mac.started = true) :
    ∃ mid update, Moves env mac mid ∧ mid.Rests env ∧
      mac.drive env = some (mid.wind update env.timerAccepted) := by
  set d := Driving.expire env.now { mac, flowUpdate := none } with hd
  have hexpire : Moves env mac d.mac := expire_moves env.now { mac, flowUpdate := none }
  obtain ⟨d', hloop, hmoves, hrests⟩ := loop_spec (Driving.turn env)
    (I := fun d => Moves env mac d.mac) (Q := fun d => Moves env mac d.mac ∧ d.mac.Rests env)
    (fun d => d.mac.turns)
    (fun _ _ hI hturn => ⟨hI.trans (turn_again hturn).1, (turn_again hturn).2⟩)
    (fun _ _ hI hturn => ⟨hI.trans (turn_done hturn).1, (turn_done hturn).2⟩)
    hexpire (Nat.lt_succ_self d.mac.turns)
  refine ⟨d'.mac, d'.flowUpdate, hmoves, hrests, ?_⟩
  unfold Mac.drive
  rw [if_neg (not_not.mpr hstarted)]
  simp only [← hd, hloop, Option.map_some]
  unfold Mac.wind Mac.nextTransmit
  unfold Mac.Rests at hrests
  cases hactive : d'.mac.activeTx with
  | some pending => simp only [Mac.sendFlowUpdate, hactive]
  | none =>
      rw [hactive] at hrests
      have hidle : ¬ ∃ category, d'.mac.queues category ≠ [] := by
        rintro ⟨category, hne⟩
        exact hne (hrests category)
      simp only [Mac.sendFlowUpdate, hactive, if_neg hidle]

theorem takeToken_frame {taken : Mac} (h : mac.takeToken = some taken) :
    ∃ availableTokens, taken = { mac with availableTokens } := by
  unfold Mac.takeToken at h
  split at h
  · split at h
    · cases h
    · cases h
      exact ⟨_, rfl⟩
  · cases h
    exact ⟨mac.availableTokens, rfl⟩

theorem takeToken_sameSetup {taken : Mac} (h : mac.takeToken = some taken) : mac.SameSetup taken := by
  obtain ⟨availableTokens, rfl⟩ := takeToken_frame h
  exact ⟨rfl, rfl, rfl, rfl⟩

theorem processTimedEvent_eq (mac : Mac) (value : ℤ) (env : Env) :
    mac.processTimedEvent value env =
      if (mac.wakeup.fire value).2 then { mac with wakeup := (mac.wakeup.fire value).1 }.drive env
      else some { mac with wakeup := (mac.wakeup.fire value).1 } := rfl

/-- What a packet from above can do: it is refused and changes no packet, or it takes a token, room is
made for it, and the layer is driven with it in its queue. -/
theorem processDownstream_cases (mac : Mac) (packet : OwnedPacket) (env : Env) :
    (∃ queueDiscards updates, mac.processDownstream packet env = some { mac with
        queueDiscards
        life := { mac.life with flowUpdates := mac.life.flowUpdates ++ updates } }) ∨
      ∃ taken room category, mac.started = true ∧ mac.takeToken = some taken ∧
        Moves env taken room ∧
        mac.processDownstream packet env =
          (room.pushBack category (room.newEntry category packet env.now)).drive env := by
  unfold Mac.processDownstream
  dsimp only
  split
  · exact .inl ⟨mac.queueDiscards, [], by simp⟩
  next hopen =>
  split
  · exact .inl ⟨_, mac.refusalUpdate.toList, rfl⟩
  split
  · exact .inl ⟨_, mac.refusalUpdate.toList, rfl⟩
  push Not at hopen
  refine .inr ?_
  have htaken : ∃ taken, mac.takeToken = some taken := by
    unfold Mac.takeToken
    split
    · next hflow => exact ⟨_, if_neg (hopen.2 hflow)⟩
    · exact ⟨_, rfl⟩
  obtain ⟨taken, htaken⟩ := htaken
  rw [htaken, Option.bind_some]
  exact ⟨taken, _, _, hopen.1, rfl, makeRoom_moves _ _ _ taken rfl, rfl⟩

end

end Emane.Ieee80211
