import Mathlib
import Emane.Lib.Credit
import Emane.Lib.Run

set_option autoImplicit false

/-! # The flow control handshake

The flow control manager of a layer counts the tokens of a queue and grants them to a client, which
spends one for each packet it sends. The manager sends an update with the count, the client takes it over
and returns it; until the manager has seen the count come back it accepts no packet. Packets and counts
of the client share one channel.

The invariant is that the packets in flight are covered (`Emane.Lib.Backed`): while the manager accepts
packets, by the tokens it believes the client to have. So its shadow count never falls below zero
(`handshake_safe`), whichever acknowledgement it takes for which update.
-/

namespace Emane.FlowControl

open Emane.Lib

/-! ## The manager -/

structure FlowControlManager where
  tokensAvailable : ℕ
  totalTokensAvailable : ℕ
  shadowTokenCount : ℕ
  lastTokensUpdate : ℕ
  ackPending : Bool
  deriving DecidableEq

namespace FlowControlManager

/-- `FlowControlManager::new` -/
def new : FlowControlManager :=
  { tokensAvailable := 0
    totalTokensAvailable := 0
    shadowTokenCount := 0
    lastTokensUpdate := 0
    ackPending := true }

variable (m : FlowControlManager)

/-- `update_shadow_and_ack`: the manager and the update that it sends. -/
def updateShadowAndAck : FlowControlManager × ℕ :=
  ({ m with
      shadowTokenCount := m.tokensAvailable
      lastTokensUpdate := m.tokensAvailable
      ackPending := true }, m.tokensAvailable)

/-- `start` -/
def start (totalTokens : ℕ) : FlowControlManager × ℕ :=
  updateShadowAndAck { m with totalTokensAvailable := totalTokens, tokensAvailable := totalTokens }

/-- `stop` -/
def stop : FlowControlManager :=
  { m with totalTokensAvailable := 0, tokensAvailable := 0, shadowTokenCount := 0 }

/-- `add_token`: the tokens, whether they were added, and the update that is sent. -/
def addToken (tokens : ℕ) : FlowControlManager × ℕ × Bool × Option ℕ :=
  let status := decide (m.tokensAvailable + tokens ≤ m.totalTokensAvailable)
  let m := if status then { m with tokensAvailable := m.tokensAvailable + tokens } else m
  if m.shadowTokenCount = 0 ∧ m.tokensAvailable > 0 then
    let (m, update) := m.updateShadowAndAck
    (m, m.tokensAvailable, status, some update)
  else (m, m.tokensAvailable, status, none)

/-- `remove_token`: the tokens and whether one was removed, `none` if a count underflows. -/
def removeToken : Option (FlowControlManager × ℕ × Bool) :=
  if m.ackPending then some (m, m.tokensAvailable, false)
  else if m.tokensAvailable = 0 then some (m, m.tokensAvailable, false)
  else if m.shadowTokenCount = 0 then none
  else
    let m := { m with
      tokensAvailable := m.tokensAvailable - 1
      shadowTokenCount := m.shadowTokenCount - 1 }
    some (m, m.tokensAvailable, true)

/-- `process_flow_control_message`: the manager and the update that it sends. -/
def processFlowControlMessage (tokens : ℕ) : FlowControlManager × Option ℕ :=
  if ¬ m.ackPending then
    let (m, update) := m.updateShadowAndAck
    (m, some update)
  else if tokens = m.lastTokensUpdate then ({ m with ackPending := false }, none)
  else
    let (m, update) := m.updateShadowAndAck
    (m, some update)

end FlowControlManager

/-! ## The client -/

structure FlowControlClient where
  tokensAvailable : ℕ
  cancel : Bool
  deriving DecidableEq

namespace FlowControlClient

/-- `FlowControlClient::new` -/
def new : FlowControlClient := { tokensAvailable := 0, cancel := false }

variable (c : FlowControlClient)

/-- `start`: the count that is sent. -/
def start : ℕ := c.tokensAvailable

/-- `stop` -/
def stop : FlowControlClient := { c with cancel := true }

/-- `remove_token`, with what it returns; `none` while it waits for a token. -/
def removeToken : Option (FlowControlClient × ℕ × Bool) :=
  if c.tokensAvailable = 0 ∧ ¬ c.cancel then none
  else if c.cancel then some (c, 0, false)
  else some ({ c with tokensAvailable := c.tokensAvailable - 1 }, c.tokensAvailable - 1, true)

/-- `process_flow_control_message`: the client and the count that it sends. -/
def processFlowControlMessage (tokens : ℕ) : FlowControlClient × ℕ :=
  ({ c with tokensAvailable := tokens }, tokens)

end FlowControlClient

/-! ## The two of them -/

/-- What the manager did: an update was sent, a packet was accepted. -/
inductive Deed
  | update (tokens : ℕ)
  | accepted
  deriving DecidableEq

structure System where
  manager : FlowControlManager
  client : FlowControlClient
  /-- the updates on their way to the client, first one first -/
  upstream : List ℕ
  /-- the packets and counts on their way to the manager -/
  downstream : List CreditMessage
  /-- what the manager did, newest first -/
  deeds : List Deed
  deriving DecidableEq

def System.init : System :=
  { manager := .new
    client := .new
    upstream := []
    downstream := []
    deeds := [] }

inductive Action
  | managerStart (totalTokens : ℕ)
  | managerStop
  | addToken (tokens : ℕ)
  | clientStart
  | clientStop
  /-- the client removes a token and sends a packet -/
  | send
  /-- the first update arrives at the client -/
  | deliverUp
  /-- the first packet or count arrives at the manager -/
  | deliverDown

/-- The manager sends an update. -/
def System.sendUpdate (s : System) (tokens : ℕ) : System :=
  { s with upstream := s.upstream ++ [tokens], deeds := .update tokens :: s.deeds }

/-- The manager sends an update if there is one. -/
def System.sendUpdate? (s : System) : Option ℕ → System
  | none => s
  | some tokens => s.sendUpdate tokens

/-- One step, `none` if it cannot be taken (or a count underflows). -/
def System.step (s : System) : Action → Option System
  | .managerStart totalTokens =>
      let (manager, update) := s.manager.start totalTokens
      some ({ s with manager }.sendUpdate update)
  | .managerStop => some { s with manager := s.manager.stop }
  | .addToken tokens =>
      let (manager, _, _, update) := s.manager.addToken tokens
      some ({ s with manager }.sendUpdate? update)
  | .clientStart => some { s with downstream := s.downstream ++ [.count s.client.start] }
  | .clientStop => some { s with client := s.client.stop }
  | .send =>
      match s.client.removeToken with
      | some (client, _, true) => some { s with client, downstream := s.downstream ++ [.item] }
      | some (client, _, false) => some { s with client }
      | none => none
  | .deliverUp =>
      match s.upstream with
      | [] => none
      | tokens :: upstream =>
          let (client, count) := s.client.processFlowControlMessage tokens
          some { s with client, upstream, downstream := s.downstream ++ [.count count] }
  | .deliverDown =>
      match s.downstream with
      | [] => none
      | .item :: downstream =>
          match s.manager.removeToken with
          | some (manager, _, true) =>
              some { s with manager, downstream, deeds := .accepted :: s.deeds }
          | some (manager, _, false) => some { s with manager, downstream }
          | none => none
      | .count tokens :: downstream =>
          let (manager, update) := s.manager.processFlowControlMessage tokens
          some ({ s with manager, downstream }.sendUpdate? update)

/-! ## What the updates cover -/

/-- Each update covers the packets that were accepted before the next one, and the last update covers
`left` more. -/
def Covered (left : ℕ) : List Deed → Prop
  | [] => left = 0
  | .update tokens :: older => left ≤ tokens ∧ Covered 0 older
  | .accepted :: older => Covered (left + 1) older

theorem Covered.mono {left less : ℕ} {deeds : List Deed} (h : Covered left deeds) (hle : less ≤ left) :
    Covered less deeds := by
  induction deeds generalizing left less with
  | nil =>
      have hzero : left = 0 := h
      exact show less = 0 by omega
  | cons deed older ih =>
      cases deed with
      | update tokens => exact ⟨hle.trans h.1, h.2⟩
      | accepted => exact ih h (Nat.succ_le_succ hle)

theorem Covered.of_append {left : ℕ} {newer older : List Deed} (h : Covered left (newer ++ older)) :
    Covered 0 older := by
  induction newer generalizing left with
  | nil => exact h.mono (Nat.zero_le left)
  | cons deed newer ih =>
      cases deed with
      | update tokens => exact ih h.2
      | accepted => exact ih h

theorem Covered.accepted_le {left n tokens : ℕ} {older : List Deed}
    (h : Covered left (List.replicate n .accepted ++ .update tokens :: older)) : left + n ≤ tokens := by
  induction n generalizing left with
  | zero => exact h.1
  | succ n ih =>
      have hle : left + 1 + n ≤ tokens := ih h
      omega

/-! ## The invariant -/

structure Inv (s : System) : Prop where
  shadow_le : s.manager.shadowTokenCount ≤ s.manager.tokensAvailable
  tokens_le : s.manager.tokensAvailable ≤ s.manager.totalTokensAvailable
  /-- the shadow count does not change while an acknowledgement is pending -/
  shadow_eq : s.manager.ackPending → s.manager.totalTokensAvailable = 0 ∨
    s.manager.shadowTokenCount = s.manager.lastTokensUpdate
  /-- the packets in flight are covered, and by the shadow count if they are going to be accepted -/
  backed : ∃ credit, Backed s.client.tokensAvailable s.downstream credit ∧
    (s.manager.ackPending = false → s.manager.totalTokensAvailable = 0 ∨
      credit ≤ s.manager.shadowTokenCount)
  covered : Covered s.manager.shadowTokenCount s.deeds

theorem init_inv : Inv .init where
  shadow_le := le_rfl
  tokens_le := le_rfl
  shadow_eq _ := .inl rfl
  backed := ⟨0, le_rfl, fun _ => .inl rfl⟩
  covered := rfl

/-- After an update the manager waits for its acknowledgement, so only the order of the messages in the
channel matters. -/
theorem update_inv {s : System} {manager : FlowControlManager} {downstream : List CreditMessage}
    {credit : ℕ} (htokens : manager.tokensAvailable ≤ manager.totalTokensAvailable)
    (hbacked : Backed s.client.tokensAvailable downstream credit)
    (hcovered : Covered 0 s.deeds) :
    Inv ({ s with manager := manager.updateShadowAndAck.1, downstream }.sendUpdate
      manager.updateShadowAndAck.2) where
  shadow_le := le_rfl
  tokens_le := htokens
  shadow_eq _ := .inr rfl
  backed := ⟨credit, hbacked, fun h => by cases h⟩
  covered := ⟨le_rfl, hcovered⟩

/-- **What `add_token` can do**: the tokens grow up to the total, and an update may be sent. -/
theorem addToken_cases (m : FlowControlManager) (tokens : ℕ)
    (htotal : m.tokensAvailable ≤ m.totalTokensAvailable) :
    ∃ available, m.tokensAvailable ≤ available ∧ available ≤ m.totalTokensAvailable ∧
      let m' := { m with tokensAvailable := available }
      ((m.addToken tokens).1 = m' ∧ (m.addToken tokens).2.2.2 = none ∨
        (m.addToken tokens).1 = m'.updateShadowAndAck.1 ∧
          (m.addToken tokens).2.2.2 = some m'.updateShadowAndAck.2) := by
  by_cases hstatus : m.tokensAvailable + tokens ≤ m.totalTokensAvailable
  · refine ⟨m.tokensAvailable + tokens, Nat.le_add_right .., hstatus, ?_⟩
    simp only [FlowControlManager.addToken, hstatus, decide_true, if_true]
    split
    · exact .inr ⟨rfl, rfl⟩
    · exact .inl ⟨rfl, rfl⟩
  · refine ⟨m.tokensAvailable, le_rfl, htotal, ?_⟩
    simp only [FlowControlManager.addToken, hstatus, decide_false, Bool.false_eq_true, if_false]
    split
    · exact .inr ⟨rfl, rfl⟩
    · exact .inl ⟨rfl, rfl⟩

theorem addToken_inv {s : System} (h : Inv s) (tokens : ℕ) :
    Inv ({ s with manager := (s.manager.addToken tokens).1 }.sendUpdate?
      (s.manager.addToken tokens).2.2.2) := by
  obtain ⟨credit, hbacked, hcredit⟩ := h.backed
  obtain ⟨available, hle, htotal, hcases⟩ := addToken_cases s.manager tokens h.tokens_le
  rcases hcases with ⟨hmanager, hupdate⟩ | ⟨hmanager, hupdate⟩
  · rw [hmanager, hupdate]
    exact ⟨h.shadow_le.trans hle, htotal, h.shadow_eq, ⟨credit, hbacked, hcredit⟩, h.covered⟩
  · rw [hmanager, hupdate]
    exact update_inv htotal hbacked (h.covered.mono (Nat.zero_le _))

/-- A count arrives. It covers the packets behind it, and it is the shadow count if it is taken for an
acknowledgement. -/
theorem count_inv {s : System} (h : Inv s) {tokens : ℕ} {downstream : List CreditMessage}
    (hdown : s.downstream = .count tokens :: downstream) :
    Inv ({ s with
      manager := (s.manager.processFlowControlMessage tokens).1
      downstream }.sendUpdate? (s.manager.processFlowControlMessage tokens).2) := by
  obtain ⟨credit, hbacked, -⟩ := h.backed
  rw [hdown] at hbacked
  have hrest : Backed s.client.tokensAvailable downstream tokens := hbacked
  have hcovered := h.covered.mono (Nat.zero_le _)
  unfold FlowControlManager.processFlowControlMessage
  split
  · exact update_inv h.tokens_le hrest hcovered
  next hpending =>
  split
  · next hlast =>
      refine ⟨h.shadow_le, h.tokens_le, (fun hack => by cases hack), ⟨tokens, hrest, fun _ => ?_⟩, h.covered⟩
      rcases h.shadow_eq (not_not.mp hpending) with htotal | hshadow
      · exact .inl htotal
      · exact .inr (by show tokens ≤ s.manager.shadowTokenCount; omega)
  · exact update_inv h.tokens_le hrest hcovered

/-- **What `remove_token` can do.** -/
theorem removeToken_cases (m : FlowControlManager) :
    (m.ackPending ∨ m.tokensAvailable = 0) ∧ m.removeToken = some (m, m.tokensAvailable, false) ∨
    (m.ackPending = false ∧ 0 < m.tokensAvailable) ∧
      (m.shadowTokenCount = 0 ∧ m.removeToken = none ∨
        0 < m.shadowTokenCount ∧ m.removeToken = some ({ m with
          tokensAvailable := m.tokensAvailable - 1
          shadowTokenCount := m.shadowTokenCount - 1 }, m.tokensAvailable - 1, true)) := by
  unfold FlowControlManager.removeToken
  by_cases hack : m.ackPending
  · exact .inl ⟨.inl hack, if_pos hack⟩
  rw [if_neg hack]
  by_cases htokens : m.tokensAvailable = 0
  · exact .inl ⟨.inr htokens, if_pos htokens⟩
  rw [if_neg htokens]
  refine .inr ⟨⟨by simpa using hack, by omega⟩, ?_⟩
  by_cases hshadow : m.shadowTokenCount = 0
  · exact .inl ⟨hshadow, if_pos hshadow⟩
  · exact .inr ⟨by omega, if_neg hshadow⟩

/-- **A packet that arrives does not underflow the shadow count.** -/
theorem item_removes {s : System} (h : Inv s) {downstream : List CreditMessage}
    (hdown : s.downstream = .item :: downstream) : s.manager.removeToken ≠ none := by
  obtain ⟨credit, hbacked, hcredit⟩ := h.backed
  rw [hdown] at hbacked
  have htotal := h.tokens_le
  rcases removeToken_cases s.manager with
    ⟨-, hsome⟩ | ⟨⟨hack, hpos⟩, ⟨hshadow, -⟩ | ⟨-, hsome⟩⟩
  · simp [hsome]
  · have hcreditPos := hbacked.1
    rcases hcredit hack with hzero | hle <;> omega
  · simp [hsome]

theorem item_inv {s s' : System} (h : Inv s) {downstream : List CreditMessage}
    (hdown : s.downstream = .item :: downstream) (hstep : s.step .deliverDown = some s') : Inv s' := by
  obtain ⟨credit, hbacked, hcredit⟩ := h.backed
  rw [hdown] at hbacked
  obtain ⟨hpos, hrest⟩ := hbacked
  have hshadow := h.shadow_le
  have htokens := h.tokens_le
  rcases removeToken_cases s.manager with
    ⟨hreject, hsome⟩ | ⟨⟨hack, havailable⟩, ⟨-, hnone⟩ | ⟨hcount, hsome⟩⟩
  · -- the packet is refused
    simp only [System.step, hdown, hsome, Option.some.injEq] at hstep
    rw [← hstep]
    refine ⟨hshadow, htokens, h.shadow_eq, ⟨credit - 1, hrest, fun hack => ?_⟩, h.covered⟩
    rcases hcredit hack with hzero | hle
    · exact .inl hzero
    · exact .inr ((Nat.sub_le ..).trans hle)
  · simp [System.step, hdown, hnone] at hstep
  · -- the packet is accepted
    simp only [System.step, hdown, hsome, Option.some.injEq] at hstep
    rw [← hstep]
    refine ⟨Nat.sub_le_sub_right hshadow 1, (Nat.sub_le ..).trans htokens, ?_,
      ⟨credit - 1, hrest, fun _ => ?_⟩, ?_⟩
    · intro hpending
      cases hack.symm.trans hpending
    · rcases hcredit hack with hzero | hle
      · exact .inl hzero
      · exact .inr (Nat.sub_le_sub_right hle 1)
    · show Covered (s.manager.shadowTokenCount - 1 + 1) s.deeds
      rw [Nat.sub_add_cancel hcount]
      exact h.covered

/-- The client waits, gives up, or takes one of its tokens. -/
theorem FlowControlClient.removeToken_cases (c : FlowControlClient) :
    c.removeToken = none ∨ c.removeToken = some (c, 0, false) ∨
      0 < c.tokensAvailable ∧ c.removeToken =
        some ({ c with tokensAvailable := c.tokensAvailable - 1 }, c.tokensAvailable - 1, true) := by
  unfold FlowControlClient.removeToken
  split
  · exact .inl rfl
  next hwait =>
  split
  · exact .inr (.inl rfl)
  · next hcancel => exact .inr (.inr ⟨Nat.pos_of_ne_zero fun hzero => hwait ⟨hzero, hcancel⟩, rfl⟩)

/-- **Every step keeps the invariant.** -/
theorem step_inv {s s' : System} (h : Inv s) {action : Action} (hstep : s.step action = some s') :
    Inv s' := by
  obtain ⟨credit, hbacked, hcredit⟩ := h.backed
  cases action with
  | managerStart totalTokens =>
      cases hstep
      exact update_inv le_rfl hbacked (h.covered.mono (Nat.zero_le _))
  | managerStop =>
      cases hstep
      exact ⟨le_rfl, le_rfl, fun _ => .inl rfl, ⟨credit, hbacked, fun _ => .inl rfl⟩,
        h.covered.mono (Nat.zero_le _)⟩
  | addToken tokens =>
      cases hstep
      exact addToken_inv h tokens
  | clientStart =>
      cases hstep
      exact ⟨h.shadow_le, h.tokens_le, h.shadow_eq, ⟨credit, hbacked.send_count le_rfl, hcredit⟩,
        h.covered⟩
  | clientStop =>
      cases hstep
      exact ⟨h.shadow_le, h.tokens_le, h.shadow_eq, ⟨credit, hbacked, hcredit⟩, h.covered⟩
  | send =>
      rcases FlowControlClient.removeToken_cases s.client with hnone | hsome | ⟨hpos, hsome⟩
      · simp [System.step, hnone] at hstep
      · simp only [System.step, hsome, Option.some.injEq] at hstep
        rw [← hstep]
        exact h
      · simp only [System.step, hsome, Option.some.injEq] at hstep
        rw [← hstep]
        rw [← Nat.sub_add_cancel hpos] at hbacked
        exact ⟨h.shadow_le, h.tokens_le, h.shadow_eq, ⟨credit, hbacked.send_item, hcredit⟩, h.covered⟩
  | deliverUp =>
      cases hup : s.upstream with
      | nil => simp [System.step, hup] at hstep
      | cons tokens upstream =>
          simp only [System.step, hup, Option.some.injEq] at hstep
          rw [← hstep]
          exact ⟨h.shadow_le, h.tokens_le, h.shadow_eq, ⟨credit, hbacked.send_count le_rfl, hcredit⟩,
            h.covered⟩
  | deliverDown =>
      cases hdown : s.downstream with
      | nil => simp [System.step, hdown] at hstep
      | cons message downstream =>
          cases message with
          | item => exact item_inv h hdown hstep
          | count tokens =>
              simp only [System.step, hdown, Option.some.injEq] at hstep
              rw [← hstep]
              exact count_inv h hdown

/-! ## Safety -/

/-- **The handshake is safe.** In every state that a run reaches: a packet that arrives does not underflow
the shadow count; the shadow count is at most the tokens available and these at most the total; no packet
is accepted while an acknowledgement is pending; and after each update that the manager sent, up to the
next one, it accepted at most as many packets as the update granted. -/
theorem handshake_safe {actions : List Action} {s : System}
    (hrun : runSteps System.step .init actions = some s) :
    (∀ downstream, s.downstream = .item :: downstream → s.manager.removeToken ≠ none) ∧
    s.manager.shadowTokenCount ≤ s.manager.tokensAvailable ∧
    s.manager.tokensAvailable ≤ s.manager.totalTokensAvailable ∧
    (∀ manager tokens, s.manager.removeToken = some (manager, tokens, true) →
      s.manager.ackPending = false) ∧
    (∀ newer n tokens older,
      s.deeds = newer ++ (List.replicate n .accepted ++ .update tokens :: older) → n ≤ tokens) := by
  have hinv : Inv s := runSteps_keeps (fun _ _ _ h hstep => step_inv h hstep) init_inv hrun
  refine ⟨fun _ hdown => item_removes hinv hdown, hinv.shadow_le, hinv.tokens_le, ?_, ?_⟩
  · intro manager tokens hremove
    rcases removeToken_cases s.manager with ⟨-, hsome⟩ | ⟨⟨hack, -⟩, -⟩
    · cases hsome.symm.trans hremove
    · exact hack
  · intro newer n tokens older hdeeds
    have hcovered := hinv.covered
    rw [hdeeds] at hcovered
    simpa using hcovered.of_append.accepted_le

/-- Two updates with the same count are under way: the acknowledgement of the first is taken for the
second, and the client counts its tokens twice. The packets that it has no right to send are refused. -/
def doubledUpdate : List Action :=
  [.managerStart 2, .clientStart, .deliverDown, .deliverUp, .deliverDown, .send, .deliverUp, .send, .send,
    .deliverDown, .deliverDown, .deliverDown]

/-- The state after it. -/
def doubledState : System :=
  { manager := ⟨1, 2, 1, 1, true⟩
    client := ⟨0, false⟩
    upstream := [1]
    downstream := [.item]
    deeds := [.update 1, .accepted, .update 2, .update 2] }

theorem handshake_safe_doubledUpdate :
    runSteps System.step .init doubledUpdate = some doubledState ∧
      doubledState.manager.removeToken ≠ none ∧
      doubledState.manager.shadowTokenCount ≤ doubledState.manager.tokensAvailable ∧
      doubledState.manager.tokensAvailable ≤ doubledState.manager.totalTokensAvailable := by
  have hrun : runSteps System.step .init doubledUpdate = some doubledState := by decide +kernel
  obtain ⟨hremove, hshadow, htokens, -, -⟩ := handshake_safe hrun
  exact ⟨hrun, hremove [] rfl, hshadow, htokens⟩

end Emane.FlowControl
