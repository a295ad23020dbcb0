import Mathlib
import Emane.Ieee80211.Moves

set_option autoImplicit false

/-! # The tokens of the IEEE 802.11 layer

A packet that is accepted takes a token. It gives it back at one of four places: when a full queue drops
it, when its opportunity passes in the queue or while it is active, and when it was sent or tried too
often. `start` makes all tokens available again, and `stop` drops all packets.

So every token is available or belongs to a packet for which it was taken, in every state of a started
layer (`tokens_conserved`). The caps of the additions are never reached, and the subtraction does not
underflow.
-/

namespace Emane.Ieee80211

open Emane.Lib

/-! ## One move -/

namespace Mac

/-- The number of active packets. -/
def active (mac : Mac) : ℕ := if mac.activeTx.isSome then 1 else 0

/-- The tokens that are available or belong to a packet. -/
def tokens (mac : Mac) : ℕ := mac.availableTokens + mac.queued + mac.active

variable {mac : Mac}

theorem active_some {pending : PendingTx} (h : mac.activeTx = some pending) : mac.active = 1 := by
  rw [active, h]
  rfl

theorem active_none (h : mac.activeTx = none) : mac.active = 0 := by
  rw [active, h]
  rfl

/-- A token that is missing comes back. -/
theorem returnToken_available (hflow : mac.config.flowControl = true)
    (hlt : mac.availableTokens < mac.config.flowTokens.toNat) :
    mac.returnToken.availableTokens = mac.availableTokens + 1 := by
  have h16 : mac.config.flowTokens.toNat < 65536 := mac.config.flowTokens.toNat_lt
  rw [returnToken, if_pos hflow]
  change min (min (mac.availableTokens + 1) 65535) mac.config.flowTokens.toNat = _
  omega

/-- The token of a packet that is gone comes back. -/
theorem tokens_returnToken {n : ℕ} (hflow : mac.config.flowControl = true) (h : mac.tokens + 1 = n)
    (hle : n ≤ mac.config.flowTokens.toNat) : mac.returnToken.tokens = n := by
  unfold tokens at h
  have havailable := returnToken_available hflow (by omega)
  unfold tokens queued active at *
  rw [returnToken_queues, returnToken_activeTx, havailable]
  omega

end Mac

section

variable {env : Env} {mac mac' : Mac}

/-- **A move keeps the tokens**: no packet takes one, and a packet that goes gives its own back, of
which there is room for. -/
theorem Move.tokens (h : Move env mac mac') (hflow : mac.config.flowControl = true)
    (hle : mac.tokens ≤ mac.config.flowTokens.toNat) : mac'.tokens = mac.tokens := by
  cases h with
  | @drop category front queue reason hqueue =>
      have hqueued := queued_update hqueue
      have hwithout : Mac.tokens ({ mac with
          queues := Function.update mac.queues category queue
          life := { mac.life with discarded := mac.life.discarded ++ [(front.id, reason)] }
        }.countDiscard category) + 1 = mac.tokens := by
        change mac.availableTokens + ∑ c, (Function.update mac.queues category queue c).length +
          mac.active + 1 = mac.availableTokens + mac.queued + mac.active
        omega
      exact Mac.tokens_returnToken hflow hwithout hle
  | @select category front queue hactive hqueue =>
      have hqueued := queued_update hqueue
      have hnone := Mac.active_none hactive
      change mac.availableTokens + ∑ c, (Function.update mac.queues category queue c).length + 1 =
        mac.availableTokens + mac.queued + mac.active
      omega
  | backoff hactive | transmit hactive | retry hactive =>
      have hone := Mac.active_some hactive
      change mac.availableTokens + mac.queued + 1 = mac.availableTokens + mac.queued + mac.active
      omega
  | @leave pending hactive hphase outcome queueDiscards =>
      have hone := Mac.active_some hactive
      obtain ⟨finished, discarded, hsettle⟩ :=
        { mac with activeTx := none, queueDiscards }.settle_frame pending outcome
      have hwithout : Mac.tokens { mac with
          activeTx := none
          queueDiscards
          life := { mac.life with finished, discarded } } + 1 = mac.tokens := by
        change mac.availableTokens + mac.queued + 0 + 1 =
          mac.availableTokens + mac.queued + mac.active
        omega
      rw [hsettle]
      exact Mac.tokens_returnToken hflow hwithout hle

theorem Moves.tokens (h : Moves env mac mac') (hflow : mac.config.flowControl = true)
    (hle : mac.tokens ≤ mac.config.flowTokens.toNat) : mac'.tokens = mac.tokens := by
  have hkeeps := h.keeps (I := fun m => m.config = mac.config ∧ m.tokens = mac.tokens)
    (fun m m' hI hmove => ?_) ⟨rfl, rfl⟩
  · exact hkeeps.2
  · refine ⟨hmove.sameSetup.config.trans hI.1, ?_⟩
    rw [hmove.tokens (by rw [hI.1]; exact hflow) (by rw [hI.1, hI.2]; exact hle)]
    exact hI.2

/-- What comes after the loop of `drive` does not touch the tokens. -/
theorem tokens_wind (mac : Mac) (update : Option ℕ) (accepted : Bool) :
    (mac.wind update accepted).tokens = mac.tokens ∧ (mac.wind update accepted).config = mac.config ∧
      (mac.wind update accepted).started = mac.started := by
  unfold Mac.wind
  split <;> exact ⟨rfl, rfl, rfl⟩

/-- A packet joins its queue. -/
theorem tokens_pushBack (mac : Mac) (category : Fin 4) (entry : PendingTx) :
    (mac.pushBack category entry).tokens = mac.tokens + 1 := by
  have hqueued : (mac.pushBack category entry).queued = mac.queued + 1 := by
    rw [Mac.queued_eq_account, Mac.queued_eq_account, Mac.pushBack, account_push]
  change mac.availableTokens + (mac.pushBack category entry).queued + mac.active = _
  rw [hqueued]
  unfold Mac.tokens
  omega

/-! ## The callbacks -/

/-- A started layer: with flow control, every token is available or belongs to a packet. -/
structure Mac.Conserved (mac : Mac) : Prop where
  started : mac.started = true
  conserved : mac.config.flowControl = true → mac.tokens = mac.config.flowTokens.toNat

/-- `drive` ends and keeps the tokens. -/
theorem drive_conserved (h : mac.Conserved) (env : Env) :
    ∃ mac', mac.drive env = some mac' ∧ mac'.Conserved ∧ mac'.config = mac.config := by
  obtain ⟨mid, update, hmoves, -, hdrive⟩ := drive_spec env h.started
  obtain ⟨htokens, hconfig, hstarted⟩ := tokens_wind mid update env.timerAccepted
  have hsame := hmoves.sameSetup
  refine ⟨_, hdrive, ⟨?_, fun hflow => ?_⟩, hconfig.trans hsame.config⟩
  · rw [hstarted, hsame.started]
    exact h.started
  · rw [hconfig, hsame.config] at hflow
    have hconserved := h.conserved hflow
    rw [htokens, hmoves.tokens hflow hconserved.le, hconfig, hsame.config]
    exact hconserved

/-- A token is taken. -/
theorem tokens_takeToken {taken : Mac} (hflow : mac.config.flowControl = true)
    (h : mac.takeToken = some taken) : taken.tokens + 1 = mac.tokens := by
  rw [Mac.takeToken, if_pos hflow] at h
  split at h
  · cases h
  next hpos =>
  cases h
  change mac.availableTokens - 1 + mac.queued + mac.active + 1 =
    mac.availableTokens + mac.queued + mac.active
  omega

/-- **A packet from above** takes one token, after the packets for which there is no room have given
theirs back. -/
theorem processDownstream_conserved (h : mac.Conserved) (packet : OwnedPacket) (env : Env) :
    ∃ mac', mac.processDownstream packet env = some mac' ∧ mac'.Conserved ∧
      mac'.config = mac.config := by
  rcases processDownstream_cases mac packet env with
    ⟨queueDiscards, updates, hrefused⟩ | ⟨taken, room, category, -, htaken, hroom, haccepted⟩
  · exact ⟨_, hrefused, ⟨h.started, h.conserved⟩, rfl⟩
  · have hsame := (takeToken_sameSetup htaken).trans hroom.sameSetup
    have hentered : (room.pushBack category (room.newEntry category packet env.now)).Conserved := by
      refine ⟨hsame.started.trans h.started, fun hflow => ?_⟩
      have hflow : mac.config.flowControl = true := hsame.config ▸ hflow
      have hconserved := h.conserved hflow
      have htokens := tokens_takeToken hflow htaken
      have htakenConfig := (takeToken_sameSetup htaken).config
      have hkept := hroom.tokens (htakenConfig.symm ▸ hflow) (by
        rw [htakenConfig]
        omega)
      have hconfig : (room.pushBack category (room.newEntry category packet env.now)).config =
          mac.config := hsame.config
      rw [tokens_pushBack, hconfig, hkept, htokens, hconserved]
    rw [haccepted]
    obtain ⟨mac', hdrive, hmac', hconfig⟩ := drive_conserved hentered env
    exact ⟨mac', hdrive, hmac', hconfig.trans hsame.config⟩

theorem callback_conserved (h : mac.Conserved) (callback : Callback) :
    ∃ mac', mac.callback callback = some mac' ∧ mac'.Conserved ∧ mac'.config = mac.config := by
  cases callback with
  | downstream info payload env =>
      rw [Mac.callback]
      cases ownPacket info payload with
      | none => exact ⟨mac, rfl, h, rfl⟩
      | some packet => exact processDownstream_conserved h packet env
  | timed value env =>
      have hfired : Mac.Conserved { mac with wakeup := (mac.wakeup.fire value).1 } :=
        ⟨h.started, h.conserved⟩
      rw [Mac.callback, processTimedEvent_eq]
      split
      · exact drive_conserved hfired env
      · exact ⟨_, rfl, hfired, rfl⟩

/-! ## Whole runs -/

/-- A layer that is not started has no packets and waits for no callback. -/
structure Mac.Stopped (mac : Mac) : Prop where
  started : mac.started = false
  queues : ∀ category, mac.queues category = []
  activeTx : mac.activeTx = none
  wakeup : mac.wakeup = Wakeup.idle

theorem Mac.stopped_stop (mac : Mac) : mac.stop.Stopped := ⟨rfl, fun _ => rfl, rfl, rfl⟩

/-- Callbacks that come after `stop` change nothing. -/
theorem callback_stopped (h : mac.Stopped) (callback : Callback) :
    ∃ mac', mac.callback callback = some mac' ∧ mac'.Stopped ∧ mac'.config = mac.config := by
  cases callback with
  | downstream info payload env =>
      rw [Mac.callback]
      cases ownPacket info payload with
      | none => exact ⟨mac, rfl, h, rfl⟩
      | some packet =>
          refine ⟨mac, ?_, h, rfl⟩
          simp only [Mac.processDownstream]
          exact if_pos (.inl (by rw [h.started]; decide))
  | timed value env =>
      have hidle : (mac.wakeup.fire value).1 = Wakeup.idle := by
        rw [h.wakeup]
        exact Wakeup.idle_fire value
      have hstopped : Mac.Stopped { mac with wakeup := (mac.wakeup.fire value).1 } :=
        ⟨h.started, h.queues, h.activeTx, hidle⟩
      refine ⟨_, ?_, hstopped, rfl⟩
      rw [Mac.callback, processTimedEvent_eq]
      split
      · rw [Mac.drive, if_pos (by rw [h.started]; decide)]
      · rfl

/-- All tokens are available to a layer that is started. -/
theorem start_conserved (h : mac.Stopped) : (mac.start true).Conserved := by
  refine ⟨rfl, fun _ => ?_⟩
  have hqueued : mac.queued = 0 := by simp [Mac.queued, h.queues]
  have hactive := Mac.active_none h.activeTx
  change mac.config.flowTokens.toNat + mac.queued + mac.active = mac.config.flowTokens.toNat
  omega

end

/-- **The tokens are conserved while the layer runs**, and a stopped layer has no packets. -/
theorem transmitSide_keeps (config : Config) :
    transmitSide.Keeps (fun mac => mac.Stopped ∧ mac.config = config)
      (fun mac => mac.Conserved ∧ mac.config = config) where
  failed _ h := h
  start _ h := ⟨start_conserved h.1, h.2⟩
  stop mac h := ⟨mac.stopped_stop, h.2⟩
  idle mac callback h := by
    obtain ⟨mac', hmac', hstopped, hconfig⟩ := callback_stopped h.1 callback
    exact ⟨mac', hmac', hstopped, hconfig.trans h.2⟩
  callback mac callback h := by
    obtain ⟨mac', hmac', hconserved, hconfig⟩ := callback_conserved h.1 callback
    exact ⟨mac', hmac', hconserved, hconfig.trans h.2⟩

theorem Mac.stopped_fresh (config : Config) : (Mac.fresh config).Stopped :=
  ⟨rfl, fun _ => rfl, rfl, rfl⟩

/-- **Token conservation.** No sequence of starts, stops and callbacks makes the subtraction underflow,
and with flow control, while the layer is started, each token is available or belongs to a packet in a
queue or to the active one. -/
theorem tokens_conserved (config : Config) (ops : List (LayerOp Callback)) :
    ∃ layer, runSteps transmitSide.step ⟨Mac.fresh config, false⟩ ops = some layer ∧
      (config.flowControl = true → layer.started = true →
        layer.state.availableTokens + ∑ category, (layer.state.queues category).length +
          (if layer.state.activeTx.isSome then 1 else 0) = config.flowTokens.toNat) := by
  obtain ⟨layer, hrun, hsound⟩ :=
    (transmitSide_keeps config).run ⟨Mac.stopped_fresh config, rfl⟩ ops
  refine ⟨layer, hrun, fun hflow hstarted => ?_⟩
  obtain ⟨hconserved, hconfig⟩ := hsound.running hstarted
  have htokens := hconserved.conserved
  rw [hconfig] at htokens
  exact htokens hflow

/-! ## A layer with two tokens -/

/-- Two tokens, queues with room for one packet, and one retry. -/
def oneRetry : Config where
  wmm := false
  mode := 0
  unicastRateIndex := .ofIndex 4 (by decide)
  multicastRateIndex := .ofIndex 1 (by decide)
  rtsThreshold := 0
  maxDistanceMeters := 1000
  flowControl := true
  flowTokens := 2
  categories := fun _ =>
    { queueSize := 1, maxEntrySize := 2, aifsUs := 2, retryLimit := 1, txopMicroseconds := 0 }

/-- A callback without collision and with no other traffic. -/
def quiet (now : ℤ) : Env :=
  { now, preDelay := 0, postDelay := 0, collision := false, timerAccepted := true }

/-- Of two packets one is active and one waits in its queue, and no token is left; then the first one was
sent, and its token is available again. -/
example :
    let ops : List (LayerOp Callback) := [.start true, .callback (.downstream ⟨1, 2, 0⟩ [7] (quiet 100)),
      .callback (.downstream ⟨1, 65535, 0⟩ [8] (quiet 110))]
    let tokens := fun ops => (runSteps transmitSide.step ⟨Mac.fresh oneRetry, false⟩ ops).map fun layer =>
      (layer.state.availableTokens, ∑ category, (layer.state.queues category).length,
        layer.state.activeTx.isSome)
    tokens ops = some (0, 1, true) ∧
      tokens (ops ++ [.callback (.timed 134 (quiet 140)), .callback (.timed 569 (quiet 569))]) =
        some (1, 0, true) := by
  decide +kernel

end Emane.Ieee80211
