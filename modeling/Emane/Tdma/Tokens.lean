import Mathlib
import Emane.Lib.Accounting
import Emane.Lib.Run
import Emane.Tdma.Transmit

set_option autoImplicit false

/-! # The tokens of the TDMA layer

A packet that is queued takes a token, and the token comes back when the packet leaves the queues: when
its last fragment is sent, when it is too big, or when a full queue drops it. `start` makes all tokens
available again. That is right for empty queues, but `stop` leaves the packets where they are.

So the tokens are conserved throughout a run exactly if the queues are empty at each of its starts
(`tokens_conserved_iff`).
-/

namespace Emane.Tdma

open Emane.Lib
open Emane.PluginApi (FfiPacketInfo)

/-! ## Starting and stopping -/

/-- The section of `start` under the lock, as far as the transmit side goes; `loaded` says whether the
curves could be loaded. -/
def State.start (state : State) (loaded : Bool) : State :=
  if loaded then { state with availableTokens := state.flowControlTokens } else state

/-- What happens at the layer. -/
inductive TokenOp
  | start (loaded : Bool)
  | stop
  | downstream (info : FfiPacketInfo) (payload : Bytes)
  | schedule (schedule : ValidSchedule)
  | transmit (absoluteSlot : ℕ) (now : ℤ)

section

variable (encodedLen : TdmaBaseModelMessage → ℕ) (reaches : ℕ → ℕ → Bool)

def State.tokenStep (state : State) : TokenOp → State
  | .start loaded => state.start loaded
  -- the flag, the timers and the pending receptions are reset, the queues are not
  | .stop => state
  | .downstream info payload =>
      match ownPacket info payload with
      | none => state
      | some packet => (Tdma.downstream state packet).state
  | .schedule schedule => { state with schedule := some schedule }
  | .transmit absoluteSlot now => (transmitSlot encodedLen reaches state absoluteSlot now).state

end

/-- Each token is available or belongs to a queued packet. -/
def State.Conserved (state : State) : Prop :=
  state.availableTokens + state.queued = state.flowControlTokens

instance (state : State) : Decidable state.Conserved := inferInstanceAs (Decidable (_ = _))

/-- Flow control is on, with a number of tokens that fits in 16 bits. -/
structure State.Controlled (state : State) : Prop where
  enabled : state.flowControlEnable = true
  tokens_lt : state.flowControlTokens < 2 ^ 16

/-- A start that succeeds finds empty queues. -/
def TokenOp.StartsEmpty (state : State) : TokenOp → Prop
  | .start loaded => loaded = true → state.queued = 0
  | _ => True

instance (state : State) : (op : TokenOp) → Decidable (op.StartsEmpty state)
  | .start loaded => inferInstanceAs (Decidable (loaded = true → state.queued = 0))
  | .stop => isTrue trivial
  | .downstream .. => isTrue trivial
  | .schedule _ => isTrue trivial
  | .transmit .. => isTrue trivial

/-! ## What the operations do to the tokens -/

/-- The tokens are conserved, as many as before, and flow control stays on. -/
structure State.Keeps (state after : State) : Prop where
  enabled : after.flowControlEnable = state.flowControlEnable
  tokens : after.flowControlTokens = state.flowControlTokens
  conserved : state.Conserved → after.Conserved

theorem State.Keeps.refl (state : State) : state.Keeps state := ⟨rfl, rfl, id⟩

theorem State.Keeps.trans {s₁ s₂ s₃ : State} (h : s₁.Keeps s₂) (h' : s₂.Keeps s₃) : s₁.Keeps s₃ :=
  ⟨h'.enabled.trans h.enabled, h'.tokens.trans h.tokens, fun hc => h'.conserved (h.conserved hc)⟩

theorem State.Keeps.controlled {state after : State} (h : state.Keeps after) (hs : state.Controlled) :
    after.Controlled :=
  ⟨h.enabled.trans hs.enabled, h.tokens.trans_lt hs.tokens_lt⟩

/-- The number of queued packets as an account in which each is worth one. -/
theorem State.queued_eq_account (state : State) :
    state.queued = account (fun _ : QueuedPacket => 1) state.queues := by
  unfold queued account
  simp

variable {state : State}

theorem State.queued_removeAt_succ {index : Fin 5} {position : ℕ}
    (h : position < (state.queues index).length) :
    (state.removeAt index position).queued + 1 = state.queued := by
  rw [queued_eq_account, queued_eq_account, removeAt,
    account_erase (f := fun _ => 1) (List.getElem?_eq_getElem h), add_comm]

/-- **A packet leaves the queues** and its token comes back. -/
theorem State.keeps_remove (hs : state.Controlled) {index : Fin 5} {position : ℕ}
    (h : position < (state.queues index).length) :
    state.Keeps (state.removeAt index position).returnToken := by
  have hqueued := State.queued_removeAt_succ h
  have hreturn : (state.removeAt index position).returnToken =
      { state.removeAt index position with
        availableTokens := min (min (state.availableTokens + 1) (2 ^ 16 - 1)) state.flowControlTokens } :=
    if_pos hs.enabled
  rw [hreturn]
  refine ⟨rfl, rfl, fun hc => ?_⟩
  unfold Conserved at hc ⊢
  -- the packet had a token, so the caps are not reached
  have hcap : min (min (state.availableTokens + 1) (2 ^ 16 - 1)) state.flowControlTokens =
      state.availableTokens + 1 := by
    have := hs.tokens_lt
    omega
  show min (min (state.availableTokens + 1) (2 ^ 16 - 1)) state.flowControlTokens +
    (state.removeAt index position).queued = state.flowControlTokens
  omega

theorem Drops.keeps {after : State} (h : Drops state after) (hs : state.Controlled) :
    state.Keeps after := by
  induction h with
  | refl state => exact .refl state
  | step index position hlt _ ih =>
      have hone := State.keeps_remove hs hlt
      exact hone.trans (ih (hone.controlled hs))

/-- A fragment is taken from a packet that stays, or the packet leaves. -/
theorem Takes.keeps {after : State} {component : Component} (h : Takes state after component)
    (hs : state.Controlled) : state.Keeps after := by
  obtain ⟨index, position, front, take, hfront, -, -, rfl, -⟩ := h
  unfold State.takeFrom
  split
  · have hqueued : State.queued { state with
        queues := Function.update state.queues index
          ((state.queues index).set position (front.advance take)) } = state.queued := by
      rw [State.queued_eq_account, State.queued_eq_account,
        account_set (f := fun _ => 1) (m := 0) hfront (Nat.zero_add 1).symm, Nat.zero_add]
    refine ⟨rfl, rfl, fun hc => ?_⟩
    unfold State.Conserved at hc ⊢
    rw [hqueued]
    exact hc
  · exact State.keeps_remove hs (List.getElem?_eq_some_iff.mp hfront).1

theorem takeTransmission_keeps (hs : state.Controlled) (absoluteSlot used : ℕ) :
    state.Keeps (takeTransmission state absoluteSlot used).state := by
  obtain ⟨mid, hdrops, hnone, hsome⟩ := takeTransmission_spec state absoluteSlot used
  have hmid := hdrops.keeps hs
  cases htransmission : (takeTransmission state absoluteSlot used).transmission with
  | none =>
      rw [hnone htransmission]
      exact hmid
  | some item => exact hmid.trans ((hsome item htransmission).keeps (hmid.controlled hs))

theorem fillSlot_keeps (reaches : ℕ → ℕ → Bool) (absoluteSlot capacity used : ℕ) (state : State)
    (hs : state.Controlled) :
    state.Keeps (fillSlot reaches absoluteSlot capacity used state).state := by
  fun_induction fillSlot reaches absoluteSlot capacity used state with
  | case1 used state hnone => exact takeTransmission_keeps hs absoluteSlot used
  | case2 used state item hitem used' hstop => exact takeTransmission_keeps hs absoluteSlot used
  | case3 used state item hitem used' hstop r ih =>
      have htake := takeTransmission_keeps hs absoluteSlot used
      exact htake.trans (ih (htake.controlled hs))

/-- **A slot** gives back one token for each packet that leaves the queues. -/
theorem transmitSlot_keeps (encodedLen : TdmaBaseModelMessage → ℕ) (reaches : ℕ → ℕ → Bool)
    (hs : state.Controlled) (absoluteSlot : ℕ) (now : ℤ) :
    state.Keeps (transmitSlot encodedLen reaches state absoluteSlot now).state := by
  unfold transmitSlot
  split
  · exact .refl state
  split
  · exact .refl state
  split
  · exact .refl state
  · exact .refl state
  next schedule _ _ _ _ dataRateBps _ _ _ _ =>
  have hfill := fillSlot_keeps reaches absoluteSlot (schedule.capacity dataRateBps) 0 state hs
  dsimp only
  split
  · exact hfill
  · split
    · exact ⟨hfill.enabled, hfill.tokens, hfill.conserved⟩
    · exact ⟨hfill.enabled, hfill.tokens, hfill.conserved⟩

/-- A packet joins a queue and takes a token. -/
theorem keeps_pushBack (hs : state.Controlled) (hpos : 0 < state.availableTokens) (index : Fin 5)
    (packet : OwnedPacket) : state.Keeps (pushBack state index packet) := by
  refine ⟨rfl, rfl, fun hc => ?_⟩
  have hqueued : (pushBack state index packet).queued = state.queued + 1 := by
    rw [State.queued_eq_account, State.queued_eq_account, pushBack, account_push]
  have havailable : (pushBack state index packet).availableTokens = state.availableTokens - 1 :=
    if_pos hs.enabled
  unfold State.Conserved at hc ⊢
  rw [hqueued, havailable]
  show state.availableTokens - 1 + (state.queued + 1) = state.flowControlTokens
  omega

/-- **A packet from above** takes a token if it is queued; the packet that makes room gives its own
back. The subtraction is made only for a token that is there. -/
theorem downstream_keeps (hs : state.Controlled) (packet : OwnedPacket) :
    state.Keeps (downstream state packet).state := by
  unfold downstream
  split
  · exact .refl state
  next havailable =>
  have hpos : 0 < state.availableTokens := by
    rw [not_and] at havailable
    exact Nat.pos_of_ne_zero (havailable hs.enabled)
  split
  · exact .refl state
  next hdepth =>
  dsimp only
  unfold makeRoom
  split
  · next hfull =>
      have hlt := dropPosition_lt (lt_of_lt_of_le (Nat.pos_of_ne_zero hdepth) hfull)
      have hroom := State.keeps_remove hs hlt
      refine ⟨hroom.enabled, hroom.tokens, fun hc => ?_⟩
      refine (keeps_pushBack (hroom.controlled hs) ?_ _ packet).conserved (hroom.conserved hc)
      rw [State.returnToken, if_pos (show (state.removeAt _ _).flowControlEnable = true from hs.enabled)]
      show 0 < min (min (state.availableTokens + 1) (2 ^ 16 - 1)) state.flowControlTokens
      unfold State.Conserved at hc
      omega
  · exact keeps_pushBack hs hpos _ packet

/-! ## Whole runs -/

/-- A start succeeds: all tokens are available, so they are conserved exactly over empty queues. -/
theorem conserved_start (state : State) :
    (state.start true).Conserved ↔ state.queued = 0 := by
  change state.flowControlTokens + state.queued = state.flowControlTokens ↔ _
  omega

section

variable (encodedLen : TdmaBaseModelMessage → ℕ) (reaches : ℕ → ℕ → Bool)

/-- All that is not a start keeps the tokens. -/
theorem tokenStep_keeps (hs : state.Controlled) {op : TokenOp} (hop : ∀ loaded, op ≠ .start loaded) :
    state.Keeps (state.tokenStep encodedLen reaches op) := by
  cases op with
  | start loaded => exact absurd rfl (hop loaded)
  | stop => exact .refl state
  | downstream info payload =>
      change state.Keeps (match ownPacket info payload with
        | none => state
        | some packet => (downstream state packet).state)
      cases ownPacket info payload with
      | none => exact .refl state
      | some packet => exact downstream_keeps hs packet
  | schedule schedule => exact ⟨rfl, rfl, id⟩
  | transmit absoluteSlot now => exact transmitSlot_keeps encodedLen reaches hs absoluteSlot now

theorem tokenStep_controlled (hs : state.Controlled) (op : TokenOp) :
    (state.tokenStep encodedLen reaches op).Controlled := by
  by_cases hop : ∀ loaded, op ≠ .start loaded
  · exact (tokenStep_keeps encodedLen reaches hs hop).controlled hs
  · push Not at hop
    obtain ⟨loaded, rfl⟩ := hop
    cases loaded with
    | false => exact hs
    | true => exact ⟨hs.enabled, hs.tokens_lt⟩

/-- With the tokens conserved, a step keeps them so exactly if it is not a start over queued packets. -/
theorem tokenStep_conserved_iff (hs : state.Controlled) (hc : state.Conserved) (op : TokenOp) :
    (state.tokenStep encodedLen reaches op).Conserved ↔ op.StartsEmpty state := by
  by_cases hop : ∀ loaded, op ≠ .start loaded
  · have hkeeps := (tokenStep_keeps encodedLen reaches hs hop).conserved hc
    cases op with
    | start loaded => exact absurd rfl (hop loaded)
    | stop | downstream | schedule | transmit => exact ⟨fun _ => trivial, fun _ => hkeeps⟩
  · push Not at hop
    obtain ⟨loaded, rfl⟩ := hop
    cases loaded with
    | false => exact ⟨fun _ h => absurd h (by decide), fun _ => hc⟩
    | true => exact (conserved_start state).trans ⟨fun h _ => h, fun h => h rfl⟩

/-- The state after the steps of `ops`. -/
def State.tokenRun (state : State) (ops : List TokenOp) : State :=
  ops.foldl (State.tokenStep encodedLen reaches) state

theorem tokenRun_controlled (hs : state.Controlled) (ops : List TokenOp) :
    (state.tokenRun encodedLen reaches ops).Controlled := by
  induction ops generalizing state with
  | nil => exact hs
  | cons op ops ih => exact ih (tokenStep_controlled encodedLen reaches hs op)

/-- **Token conservation.** From the first successful start on, through any steps, the tokens are
conserved exactly if each successful start, the first one included, finds the queues empty. -/
theorem tokens_conserved_iff (config : Config) (henable : config.flowControlEnable = true)
    (htokens : config.flowControlTokens < 2 ^ 16) (before ops : List TokenOp) :
    let state := (Sender.fresh config).state.tokenRun encodedLen reaches before
    Throughout (State.tokenStep encodedLen reaches) State.Conserved (state.start true) ops ↔
      StepsMeet (State.tokenStep encodedLen reaches) (fun state op => op.StartsEmpty state) state
        (.start true :: ops) := by
  intro state
  have hs : state.Controlled := tokenRun_controlled encodedLen reaches ⟨henable, htokens⟩ before
  have hstart : (state.start true).Controlled := ⟨hs.enabled, hs.tokens_lt⟩
  have hrule (h : (state.start true).Conserved) :
      Throughout (State.tokenStep encodedLen reaches) State.Conserved (state.start true) ops ↔
        StepsMeet (State.tokenStep encodedLen reaches) (fun state op => op.StartsEmpty state)
          (state.start true) ops :=
    throughout_iff_stepsMeet (J := State.Controlled) (P := State.Conserved)
      (fun _ op hs => tokenStep_controlled encodedLen reaches hs op)
      (fun _ op hs hc => tokenStep_conserved_iff encodedLen reaches hs hc op) hstart h ops
  constructor
  · intro h
    have hfirst := h.first
    exact ⟨fun _ => (conserved_start state).mp hfirst, (hrule hfirst).mp h⟩
  · rintro ⟨hempty, hrest⟩
    exact (hrule ((conserved_start state).mpr (hempty rfl))).mpr hrest

end

/-- Two tokens, and queues with room for one packet. -/
def twoTokens : Config :=
  { byteConfig with flowControlEnable := true, flowControlTokens := 2 }

/-- A packet that is sent in two slots, one that is pushed out of its queue, and a restart. -/
theorem tokens_conserved_twoTokens :
    Throughout (State.tokenStep TdmaBaseModelMessage.encodedLen (fun _ _ => false)) State.Conserved
      ((Sender.fresh twoTokens).state.start true)
      [.schedule byteSchedule, .downstream ⟨1, 2, 0⟩ [0], .downstream ⟨1, 2, 0⟩ [1, 2],
        .transmit 0 0, .transmit 1 10, .stop, .start true] :=
  (tokens_conserved_iff _ _ twoTokens rfl (by decide) [] _).mpr (by decide +kernel)

/-- **A restart over a queued packet** makes three tokens of two. -/
theorem tokens_not_conserved :
    let step := State.tokenStep TdmaBaseModelMessage.encodedLen (fun _ _ => false)
    let state := (Sender.fresh twoTokens).state.start true
    ¬ Throughout step State.Conserved state [.downstream ⟨1, 2, 0⟩ [1], .stop, .start true] ∧
      let after := step (step (step state (.downstream ⟨1, 2, 0⟩ [1])) .stop) (.start true)
      after.flowControlTokens = 2 ∧ after.availableTokens = 2 ∧ after.queued = 1 := by
  decide +kernel

end Emane.Tdma
