import Mathlib
import Emane.Lib.Bytes
import Emane.Lib.Run

set_option autoImplicit false

/-! # Flow control between the transport and the RFPipe MAC

The MAC counts tokens: a packet from the transport takes one, a transmission returns it, and then the MAC
sends the count upwards. The transport takes over each count it receives and holds its frames back when
it has no tokens left. The count is that of the MAC when it sent the update; packets that were on their
way at that time, or were sent since, are not subtracted from it.

So the transport may send more packets than the MAC has tokens for, and the MAC drops them. That happens
for every number of tokens from 2 up to the capacity of the queue and for no other number
(`flowControl_safe_iff`); it does not happen in a run in which each update, when it reaches the transport,
grants no more than the MAC has left for it.
-/

namespace Emane.Rfpipe

open Emane.Lib

/-! ## Ethernet frames -/

def ethHeaderLen : ℕ := 14

def ipv4HeaderLen : ℕ := 20

def ipv6HeaderLen : ℕ := 40

def etharpHeaderLen : ℕ := 28

def ethPIpv4 : ℕ := 0x0800

def ethPArp : ℕ := 0x0806

def ethPIpv6 : ℕ := 0x86DD

/-- `verify_frame`: a negative answer for a frame that is shorter than its headers, and `1` for a
protocol that it does not know. -/
def verifyFrame (frame : Bytes) : ℤ :=
  if frame.length < ethHeaderLen then -1
  else
    let ethProtocol := ofBe (frame.extract 12 14)
    let payloadLen := frame.length - ethHeaderLen
    if ethProtocol = ethPIpv4 then if payloadLen < ipv4HeaderLen then -1 else 0
    else if ethProtocol = ethPIpv6 then if payloadLen < ipv6HeaderLen then -1 else 0
    else if ethProtocol = ethPArp then if payloadLen < etharpHeaderLen then -1 else 0
    else 1

/-- The bytes of a header whose addresses and protocol are zero. -/
def bareFrame : Bytes := List.replicate ethHeaderLen 0

theorem verifyFrame_bareFrame : verifyFrame bareFrame = 1 := by decide

/-! ## The transport -/

/-- The part of the state of a built-in transport that flow control uses. A frame is its payload. -/
structure Transport where
  flowControlEnabled : Bool
  flowControlTokens : ℕ
  pendingTransportFrames : List Bytes
  deriving DecidableEq

/-- The loop of `release_transport_frames`: the tokens, the frames that are still pending and those that
are released. -/
def releaseLoop : ℕ → List Bytes → ℕ × List Bytes × List Bytes
  | 0, pending => (0, pending, [])
  | tokens + 1, [] => (tokens + 1, [], [])
  | tokens + 1, frame :: pending =>
      let (tokens, pending, frames) := releaseLoop tokens pending
      (tokens, pending, frame :: frames)

/-- `release_transport_frames`, with the frames that are sent for it. -/
def Transport.releaseTransportFrames (t : Transport) (update : ℕ) : Transport × List Bytes :=
  if ¬ t.flowControlEnabled then (t, [])
  else
    let (tokens, pending, frames) := releaseLoop update t.pendingTransportFrames
    ({ t with flowControlTokens := tokens, pendingTransportFrames := pending }, frames)

/-- `builtin_ethernet_downstream`, with the frames that are sent for it. `parse_frame`, which reads the
destination and the priority, does not fail on a frame that was verified. -/
def Transport.ethernetDownstream (t : Transport) (frame : Bytes) : Transport × List Bytes :=
  if verifyFrame frame < 0 then (t, [])
  else if t.flowControlEnabled then
    if t.flowControlTokens = 0 then
      ({ t with pendingTransportFrames := t.pendingTransportFrames ++ [frame] }, [])
    else ({ t with flowControlTokens := t.flowControlTokens - 1 }, [frame])
  else (t, [frame])

/-! ## The MAC -/

/-- `QUEUE_CAPACITY` -/
def queueCapacity : ℕ := 255

structure PendingTx where
  packet : Bytes
  readyAt : ℤ
  duration : ℕ
  deriving DecidableEq

/-- The part of the state of the MAC that flow control and the queue use. Times are unbounded. -/
structure Mac where
  dataRateBps : ℕ
  delayMicroseconds : ℤ
  flowControlEnable : Bool
  flowControlTokens : ℕ
  availableTokens : ℕ
  queue : List PendingTx
  currentEndOfTransmission : ℤ
  queueDiscards : ℕ
  started : Bool
  deriving DecidableEq

/-- `duration_microseconds` -/
def durationMicroseconds (length dataRate : ℕ) : ℕ :=
  if dataRate = 0 then 0
  else (min (min (length * 8) (2 ^ 64 - 1) * 1000000) (2 ^ 64 - 1) + (dataRate - 1)) / dataRate

namespace Mac

variable (m : Mac)

/-- A token is returned. -/
def returnToken : Mac :=
  if m.flowControlEnable then
    { m with availableTokens := min (min (m.availableTokens + 1) 65535) m.flowControlTokens }
  else m

/-- The section of `start` under the lock, after the curve was loaded, and the update that is sent. -/
def start : Mac × Option ℕ :=
  let m := { m with availableTokens := m.flowControlTokens, started := true }
  (m, if m.flowControlEnable then some m.availableTokens else none)

/-- `drive_transmit`: the packet that is transmitted and the update that is sent. -/
def driveTransmit (now : ℤ) : Mac × Option Bytes × Option ℕ :=
  if ¬ m.started then (m, none, none)
  else
    match m.queue with
    | [] => (m, none, none)
    | pending :: queue =>
        if m.currentEndOfTransmission ≤ now ∧ pending.readyAt ≤ now then
          let m := { m with queue }.returnToken
          ({ m with currentEndOfTransmission := now + pending.duration }, some pending.packet,
            if m.flowControlEnable then some m.availableTokens else none)
        else (m, none, none)

/-- The loop of `process_downstream` that makes room in the queue. -/
def makeRoom (m : Mac) : List PendingTx → Mac
  | [] => { m with queue := [] }
  | pending :: queue =>
      if (pending :: queue).length ≥ queueCapacity then
        makeRoom { m with queueDiscards := m.queueDiscards + 1 }.returnToken queue
      else { m with queue := pending :: queue }

/-- The section of `process_downstream` that queues a packet, with the time at which it is ready. -/
def enqueue (now jitter : ℤ) (packet : Bytes) : Mac × ℤ :=
  let m := if m.flowControlEnable then { m with availableTokens := m.availableTokens - 1 } else m
  let duration := max (durationMicroseconds packet.length m.dataRateBps) 1
  let readyAt := max (now + m.delayMicroseconds + jitter) now
  let m := m.makeRoom m.queue
  let m := { m with queue := m.queue ++ [⟨packet, readyAt, duration⟩] }
  (m, max (max readyAt m.currentEndOfTransmission) now)

/-- `process_downstream` for a packet: whether the packet is dropped by flow control, and the update that
is sent. The jitter is random. -/
def processDownstream (now jitter : ℤ) (packet : Bytes) : Mac × Bool × Option ℕ :=
  if ¬ m.started ∨ m.flowControlEnable ∧ m.availableTokens = 0 then (m, true, none)
  else
    let (m, readyAt) := m.enqueue now jitter packet
    if readyAt ≤ now then
      let (m, _, update) := m.driveTransmit now
      (m, false, update)
    else (m, false, none)

end Mac

/-! ## The two of them -/

structure System where
  transport : Transport
  mac : Mac
  /-- the packets on their way to the MAC, first one first -/
  downstream : List Bytes
  /-- the updates on their way to the transport -/
  upstream : List ℕ
  /-- the number of packets that flow control has dropped -/
  drops : ℕ
  deriving DecidableEq

/-- Both sides have flow control enabled, and the MAC has just been started. -/
def System.init (dataRateBps : ℕ) (delayMicroseconds : ℤ) (tokens : ℕ) : System :=
  let (mac, update) := Mac.start
    { dataRateBps, delayMicroseconds
      flowControlEnable := true
      flowControlTokens := tokens
      availableTokens := tokens
      queue := []
      currentEndOfTransmission := 0
      queueDiscards := 0
      started := false }
  { transport := { flowControlEnabled := true, flowControlTokens := 0, pendingTransportFrames := [] }
    mac
    downstream := []
    upstream := update.toList
    drops := 0 }

inductive Action
  /-- a frame arrives at the transport -/
  | frame (frame : Bytes)
  /-- the first packet reaches the MAC -/
  | packet (now jitter : ℤ)
  /-- the timer of the MAC -/
  | transmit (now : ℤ)
  /-- the first update reaches the transport -/
  | update

/-- One step, `none` if there is nothing to deliver. -/
def System.step (s : System) : Action → Option System
  | .frame frame =>
      let (transport, frames) := s.transport.ethernetDownstream frame
      some { s with transport, downstream := s.downstream ++ frames }
  | .packet now jitter =>
      match s.downstream with
      | [] => none
      | packet :: downstream =>
          let (mac, dropped, update) := s.mac.processDownstream now jitter packet
          some { s with
            mac, downstream
            upstream := s.upstream ++ update.toList
            drops := if dropped then s.drops + 1 else s.drops }
  | .transmit now =>
      let (mac, _, update) := s.mac.driveTransmit now
      some { s with mac, upstream := s.upstream ++ update.toList }
  | .update =>
      match s.upstream with
      | [] => none
      | update :: upstream =>
          let (transport, frames) := s.transport.releaseTransportFrames update
          some { s with transport, upstream, downstream := s.downstream ++ frames }

/-! ## The tokens of the MAC -/

/-- A MAC that runs with flow control: each of its tokens is available or belongs to a packet in the
queue. -/
structure Mac.Ready (m : Mac) : Prop where
  started : m.started
  enabled : m.flowControlEnable
  tokens_le : m.flowControlTokens ≤ 65535
  queue_le : m.queue.length ≤ queueCapacity
  conserved : m.availableTokens + m.queue.length = m.flowControlTokens

/-- A token that is missing is returned. -/
theorem returnToken_eq {m : Mac} (henabled : m.flowControlEnable) (hle : m.flowControlTokens ≤ 65535)
    (hlt : m.availableTokens < m.flowControlTokens) :
    m.returnToken = { m with availableTokens := m.availableTokens + 1 } := by
  have hmin : min (min (m.availableTokens + 1) 65535) m.flowControlTokens = m.availableTokens + 1 := by
    omega
  rw [Mac.returnToken, if_pos henabled, hmin]

/-- **What `drive_transmit` can do**: nothing, or one packet leaves the queue and its token is returned
and reported. -/
theorem driveTransmit_cases {m : Mac} (h : m.Ready) (now : ℤ) :
    m.driveTransmit now = (m, none, none) ∨
      ∃ m' packet, m.driveTransmit now = (m', some packet, some (m.availableTokens + 1)) ∧ m'.Ready ∧
        m'.availableTokens = m.availableTokens + 1 ∧ m'.flowControlTokens = m.flowControlTokens := by
  have hconserved := h.conserved
  have hqueue := h.queue_le
  unfold Mac.driveTransmit
  rw [if_neg (not_not.mpr h.started)]
  split
  · exact .inl rfl
  next pending queue heq =>
  rw [heq, List.length_cons] at hconserved hqueue
  split
  · have hreturn : { m with queue }.returnToken =
        { m with queue, availableTokens := m.availableTokens + 1 } :=
      returnToken_eq h.enabled h.tokens_le (show m.availableTokens < m.flowControlTokens by omega)
    refine .inr ⟨{ m with
      queue
      availableTokens := m.availableTokens + 1
      currentEndOfTransmission := now + pending.duration }, pending.packet, ?_, ?_, rfl, rfl⟩
    · simp only [hreturn]
      rw [if_pos h.enabled]
    · exact ⟨h.started, h.enabled, h.tokens_le, by show queue.length ≤ _; omega,
        by show m.availableTokens + 1 + queue.length = m.flowControlTokens; omega⟩
  · exact .inl rfl

/-- The fields that making room does not change. -/
structure Mac.SameSetup (m m' : Mac) : Prop where
  started : m'.started = m.started
  enabled : m'.flowControlEnable = m.flowControlEnable
  tokens : m'.flowControlTokens = m.flowControlTokens
  endOf : m'.currentEndOfTransmission = m.currentEndOfTransmission

/-- Room is made for one packet, and the tokens of the packets that are dropped are returned. -/
theorem makeRoom_spec (m : Mac) (queue : List PendingTx) (henabled : m.flowControlEnable)
    (hle : m.flowControlTokens ≤ 65535)
    (hconserved : m.availableTokens + queue.length + 1 = m.flowControlTokens) :
    Mac.SameSetup m (m.makeRoom queue) ∧ (m.makeRoom queue).queue.length < queueCapacity ∧
      (m.makeRoom queue).availableTokens + (m.makeRoom queue).queue.length + 1 = m.flowControlTokens ∧
      (queue.length < queueCapacity → (m.makeRoom queue).availableTokens = m.availableTokens ∧
        (m.makeRoom queue).queue = queue) := by
  induction queue generalizing m with
  | nil => exact ⟨⟨rfl, rfl, rfl, rfl⟩, Nat.zero_lt_succ 254, hconserved, fun _ => ⟨rfl, rfl⟩⟩
  | cons pending queue ih =>
      rw [Mac.makeRoom]
      split
      · next hfull =>
        rw [List.length_cons] at hconserved
        have hreturn : { m with queueDiscards := m.queueDiscards + 1 }.returnToken =
            { m with
              queueDiscards := m.queueDiscards + 1
              availableTokens := m.availableTokens + 1 } :=
          returnToken_eq henabled hle (show m.availableTokens < m.flowControlTokens by omega)
        rw [hreturn]
        obtain ⟨hsame, hlt, hsum, -⟩ := ih { m with
          queueDiscards := m.queueDiscards + 1
          availableTokens := m.availableTokens + 1 } henabled hle
          (show m.availableTokens + 1 + queue.length + 1 = m.flowControlTokens by omega)
        exact ⟨⟨hsame.started, hsame.enabled, hsame.tokens, hsame.endOf⟩, hlt, hsum,
          fun hroom => absurd hroom (not_lt.mpr hfull)⟩
      · next hroom =>
        exact ⟨⟨rfl, rfl, rfl, rfl⟩, not_le.mp hroom, hconserved, fun _ => ⟨rfl, rfl⟩⟩

/-- A packet is queued for a token. -/
theorem enqueue_spec {m : Mac} (h : m.Ready) (hpos : 0 < m.availableTokens) (now jitter : ℤ)
    (packet : Bytes) :
    (m.enqueue now jitter packet).1.Ready ∧
      m.availableTokens ≤ (m.enqueue now jitter packet).1.availableTokens + 1 ∧
      (m.enqueue now jitter packet).1.flowControlTokens = m.flowControlTokens ∧
      (m.queue.length < queueCapacity →
        (m.enqueue now jitter packet).1.availableTokens + 1 = m.availableTokens) ∧
      (m.enqueue now jitter packet).1.currentEndOfTransmission = m.currentEndOfTransmission ∧
      m.currentEndOfTransmission ≤ (m.enqueue now jitter packet).2 := by
  have hconserved := h.conserved
  have hspend : (if m.flowControlEnable then
      { m with availableTokens := m.availableTokens - 1 } else m) =
      { m with availableTokens := m.availableTokens - 1 } := if_pos h.enabled
  obtain ⟨hsame, hlt, hsum, hkept⟩ := makeRoom_spec { m with availableTokens := m.availableTokens - 1 }
    m.queue h.enabled h.tokens_le
    (show m.availableTokens - 1 + m.queue.length + 1 = m.flowControlTokens by omega)
  simp only [Mac.enqueue, hspend]
  generalize { m with availableTokens := m.availableTokens - 1 }.makeRoom m.queue = m' at *
  have htokens : m'.flowControlTokens = m.flowControlTokens := hsame.tokens
  have hsum' : m'.availableTokens + m'.queue.length + 1 = m.flowControlTokens := hsum
  refine ⟨⟨hsame.started.trans h.started, hsame.enabled.trans h.enabled, htokens ▸ h.tokens_le, ?_, ?_⟩,
    ?_, htokens, fun hfree => ?_, hsame.endOf, ?_⟩
  · rw [List.length_append, List.length_singleton]
    omega
  · rw [List.length_append, List.length_singleton]
    show m'.availableTokens + (m'.queue.length + 1) = m'.flowControlTokens
    omega
  · have hfull := h.queue_le
    by_cases hfree : m.queue.length < queueCapacity
    · have hsameTokens : m'.availableTokens = m.availableTokens - 1 := (hkept hfree).1
      omega
    · omega
  · have hsameTokens : m'.availableTokens = m.availableTokens - 1 := (hkept hfree).1
    omega
  · have hend : m'.currentEndOfTransmission = m.currentEndOfTransmission := hsame.endOf
    rw [hend]
    exact (le_max_right ..).trans (le_max_left ..)

/-- A packet is not refused while there is a token. -/
theorem Mac.Ready.not_refuses {m : Mac} (h : m.Ready) (hpos : 0 < m.availableTokens) :
    ¬ (¬ m.started ∨ m.flowControlEnable ∧ m.availableTokens = 0) := by
  rintro (hstopped | ⟨-, hzero⟩)
  · exact hstopped h.started
  · omega

/-- **What `process_downstream` can do**: the packet is dropped if no token is available; else it takes a
token, which may be returned at once. -/
theorem processDownstream_cases {m : Mac} (h : m.Ready) (now jitter : ℤ) (packet : Bytes) :
    m.availableTokens = 0 ∧ m.processDownstream now jitter packet = (m, true, none) ∨
    0 < m.availableTokens ∧ ∃ m' update, m.processDownstream now jitter packet = (m', false, update) ∧
      m'.Ready ∧ m'.flowControlTokens = m.flowControlTokens ∧
      m.availableTokens ≤ m'.availableTokens + 1 ∧
      (m.queue.length < queueCapacity →
        update = none ∧ m'.availableTokens + 1 = m.availableTokens ∨
        update = some m.availableTokens ∧ m'.availableTokens = m.availableTokens) := by
  unfold Mac.processDownstream
  rcases Nat.eq_zero_or_pos m.availableTokens with hzero | hpos
  · exact .inl ⟨hzero, if_pos (.inr ⟨h.enabled, hzero⟩)⟩
  refine .inr ⟨hpos, ?_⟩
  rw [if_neg (h.not_refuses hpos)]
  obtain ⟨hready, hle, htokens, hfree, -, -⟩ := enqueue_spec h hpos now jitter packet
  by_cases hnow : (m.enqueue now jitter packet).2 ≤ now
  · -- the packet is transmitted at once, or another one is
    rcases driveTransmit_cases hready now with hsame | ⟨m', sent, hdrive, hready', hone, htokens'⟩
    · refine ⟨_, none, ?_, hready, htokens, hle, fun hroom => .inl ⟨rfl, hfree hroom⟩⟩
      simp only [if_pos hnow, hsame]
    · refine ⟨m', some ((m.enqueue now jitter packet).1.availableTokens + 1), ?_, hready',
        htokens'.trans htokens, by omega, fun hroom => .inr ⟨?_, ?_⟩⟩
      · simp only [if_pos hnow, hdrive]
      · rw [hfree hroom]
      · rw [hone, hfree hroom]
  · refine ⟨_, none, ?_, hready, htokens, hle, fun hroom => .inl ⟨rfl, hfree hroom⟩⟩
    simp only [if_neg hnow]

/-! ## The steps of the system -/

structure Inv (tokens : ℕ) (s : System) : Prop where
  ready : s.mac.Ready
  enabled : s.transport.flowControlEnabled
  tokens_eq : s.mac.flowControlTokens = tokens

/-- The tokens of the transport and the packets for which it has spent one. -/
def System.claimed (s : System) : ℕ := s.transport.flowControlTokens + s.downstream.length

/-- A token is spent for each frame that is released. -/
theorem releaseLoop_spec (tokens : ℕ) (pending : List Bytes) :
    (releaseLoop tokens pending).1 + (releaseLoop tokens pending).2.2.length = tokens := by
  induction pending generalizing tokens with
  | nil => cases tokens <;> rfl
  | cons frame pending ih =>
      cases tokens with
      | zero => rfl
      | succ tokens =>
          have hrest := ih tokens
          show (releaseLoop tokens pending).1 + ((releaseLoop tokens pending).2.2.length + 1) = tokens + 1
          omega

/-- A frame is refused, held back, or sent for a token. -/
theorem ethernetDownstream_cases {t : Transport} (henabled : t.flowControlEnabled) (frame : Bytes) :
    verifyFrame frame < 0 ∧ t.ethernetDownstream frame = (t, []) ∨
    t.flowControlTokens = 0 ∧ t.ethernetDownstream frame =
      ({ t with pendingTransportFrames := t.pendingTransportFrames ++ [frame] }, []) ∨
    0 < t.flowControlTokens ∧ t.ethernetDownstream frame =
      ({ t with flowControlTokens := t.flowControlTokens - 1 }, [frame]) := by
  unfold Transport.ethernetDownstream
  by_cases hverify : verifyFrame frame < 0
  · exact .inl ⟨hverify, if_pos hverify⟩
  rw [if_neg hverify, if_pos henabled]
  rcases Nat.eq_zero_or_pos t.flowControlTokens with hzero | hpos
  · exact .inr (.inl ⟨hzero, if_pos hzero⟩)
  · exact .inr (.inr ⟨hpos, if_neg (Nat.ne_of_gt hpos)⟩)

/-- **What a step can do.** A frame moves a token from the transport to the channel or nothing; a packet
arrives and is dropped, or takes a token of the MAC that may be returned at once; a transmission returns
a token and reports it; an update replaces the tokens of the transport. -/
inductive Effect (s s' : System) : Action → Prop
  | frame (frame : Bytes) (hclaimed : s'.claimed = s.claimed) (hmac : s'.mac = s.mac)
      (hup : s'.upstream = s.upstream) (hdrops : s'.drops = s.drops) : Effect s s' (.frame frame)
  | dropped (now jitter : ℤ) (hclaimed : s'.claimed + 1 = s.claimed) (hzero : s.mac.availableTokens = 0)
      (hdrops : s'.drops = s.drops + 1) : Effect s s' (.packet now jitter)
  | accepted (now jitter : ℤ) (hclaimed : s'.claimed + 1 = s.claimed) (hpos : 0 < s.mac.availableTokens)
      (hle : s.mac.availableTokens ≤ s'.mac.availableTokens + 1)
      (hroom : s.mac.queue.length < queueCapacity →
        s'.upstream = s.upstream ∧ s'.mac.availableTokens + 1 = s.mac.availableTokens ∨
        s'.upstream = s.upstream ++ [s.mac.availableTokens] ∧
          s'.mac.availableTokens = s.mac.availableTokens)
      (hdrops : s'.drops = s.drops) : Effect s s' (.packet now jitter)
  | idle (now : ℤ) (hsame : s' = s) : Effect s s' (.transmit now)
  | transmit (now : ℤ) (hclaimed : s'.claimed = s.claimed)
      (hone : s'.mac.availableTokens = s.mac.availableTokens + 1)
      (hup : s'.upstream = s.upstream ++ [s.mac.availableTokens + 1]) (hdrops : s'.drops = s.drops) :
      Effect s s' (.transmit now)
  | update (update : ℕ) (hup : s.upstream = update :: s'.upstream)
      (hclaimed : s'.claimed = update + s.downstream.length) (hmac : s'.mac = s.mac)
      (hdrops : s'.drops = s.drops) : Effect s s' .update

theorem step_effect {tokens : ℕ} {s s' : System} (h : Inv tokens s) {action : Action}
    (hstep : s.step action = some s') : Inv tokens s' ∧ Effect s s' action := by
  cases action with
  | frame frame =>
      simp only [System.step, Option.some.injEq] at hstep
      rcases ethernetDownstream_cases h.enabled frame with
        ⟨-, hresult⟩ | ⟨hzero, hresult⟩ | ⟨hpos, hresult⟩
      · rw [hresult] at hstep
        rw [← hstep]
        refine ⟨⟨h.ready, h.enabled, h.tokens_eq⟩, .frame frame ?_ rfl rfl rfl⟩
        simp [System.claimed]
      · rw [hresult] at hstep
        rw [← hstep]
        refine ⟨⟨h.ready, h.enabled, h.tokens_eq⟩, .frame frame ?_ rfl rfl rfl⟩
        simp [System.claimed]
      · rw [hresult] at hstep
        rw [← hstep]
        refine ⟨⟨h.ready, h.enabled, h.tokens_eq⟩, .frame frame ?_ rfl rfl rfl⟩
        simp only [System.claimed, List.length_append, List.length_singleton]
        omega
  | packet now jitter =>
      cases hdown : s.downstream with
      | nil => simp [System.step, hdown] at hstep
      | cons packet downstream =>
          simp only [System.step, hdown, Option.some.injEq] at hstep
          rcases processDownstream_cases h.ready now jitter packet with
            ⟨hzero, hresult⟩ | ⟨hpos, m', update, hresult, hready, htokens, hle, hroom⟩
          · rw [hresult] at hstep
            rw [← hstep]
            refine ⟨⟨h.ready, h.enabled, h.tokens_eq⟩, .dropped now jitter ?_ hzero rfl⟩
            simp [System.claimed, hdown, Nat.add_assoc]
          · rw [hresult] at hstep
            rw [← hstep]
            refine ⟨⟨hready, h.enabled, htokens.trans h.tokens_eq⟩,
              .accepted now jitter ?_ hpos hle (fun hfree => ?_) rfl⟩
            · simp [System.claimed, hdown, Nat.add_assoc]
            · rcases hroom hfree with ⟨rfl, hspent⟩ | ⟨rfl, hback⟩
              · exact .inl ⟨List.append_nil _, hspent⟩
              · exact .inr ⟨rfl, hback⟩
  | transmit now =>
      simp only [System.step, Option.some.injEq] at hstep
      rcases driveTransmit_cases h.ready now with hsame | ⟨m', packet, hdrive, hready, hone, htokens⟩
      · rw [hsame] at hstep
        have heq : s' = s := by rw [← hstep]; simp
        rw [heq]
        exact ⟨h, .idle now rfl⟩
      · rw [hdrive] at hstep
        rw [← hstep]
        exact ⟨⟨hready, h.enabled, htokens.trans h.tokens_eq⟩, .transmit now rfl hone rfl rfl⟩
  | update =>
      cases hup : s.upstream with
      | nil => simp [System.step, hup] at hstep
      | cons update upstream =>
          simp only [System.step, hup, Option.some.injEq, Transport.releaseTransportFrames, h.enabled,
            not_true_eq_false, if_false] at hstep
          rw [← hstep]
          refine ⟨⟨h.ready, rfl, h.tokens_eq⟩, .update update hup ?_ rfl rfl⟩
          have hspent := releaseLoop_spec update s.transport.pendingTransportFrames
          generalize releaseLoop update s.transport.pendingTransportFrames = r at hspent
          show r.1 + (s.downstream ++ r.2.2).length = update + s.downstream.length
          rw [List.length_append]
          omega

/-! ## Runs without drops -/

/-- An update that reaches the transport grants no more than the MAC has left when the packets in flight
are accepted. -/
def System.Grants (s : System) : Action → Prop
  | .update => ∀ update ∈ s.upstream.head?, update + s.downstream.length ≤ s.mac.availableTokens
  | _ => True

instance decidableGrants (s : System) : ∀ action, Decidable (s.Grants action)
  | .update => inferInstanceAs
      (Decidable (∀ update ∈ s.upstream.head?, update + s.downstream.length ≤ s.mac.availableTokens))
  | .frame _ => inferInstanceAs (Decidable True)
  | .packet _ _ => inferInstanceAs (Decidable True)
  | .transmit _ => inferInstanceAs (Decidable True)

/-- What the transport has and has sent is within the tokens of the MAC. -/
theorem granted_step {tokens : ℕ} {s s' : System} (h : Inv tokens s)
    (hclaimed : s.claimed ≤ s.mac.availableTokens) {action : Action} (hgrants : s.Grants action)
    (hstep : s.step action = some s') :
    s'.claimed ≤ s'.mac.availableTokens ∧ s'.drops = s.drops := by
  cases (step_effect h hstep).2 with
  | frame frame hsame hmac hup hdrops => exact ⟨by rw [hsame, hmac]; exact hclaimed, hdrops⟩
  | dropped now jitter hone hzero hdrops => omega
  | accepted now jitter hone hpos hle hroom hdrops => exact ⟨by omega, hdrops⟩
  | idle now hsame => exact ⟨by rw [hsame]; exact hclaimed, by rw [hsame]⟩
  | transmit now hsame hone hup hdrops => exact ⟨by omega, hdrops⟩
  | update update hup hnew hmac hdrops =>
      refine ⟨?_, hdrops⟩
      rw [hnew, hmac]
      exact hgrants update (by rw [hup]; rfl)

/-- With more tokens than the queue has room for, the queue overflows before the tokens run out. -/
theorem large_step {tokens : ℕ} {s s' : System} (h : Inv tokens s) (hlarge : queueCapacity < tokens)
    {action : Action} (hstep : s.step action = some s') : s'.drops = s.drops := by
  have hconserved := h.ready.conserved
  have hqueue := h.ready.queue_le
  have htokens := h.tokens_eq
  cases (step_effect h hstep).2 with
  | frame frame hsame hmac hup hdrops => exact hdrops
  | dropped now jitter hone hzero hdrops => omega
  | accepted now jitter hone hpos hle hroom hdrops => exact hdrops
  | idle now hsame => rw [hsame]
  | transmit now hsame hone hup hdrops => exact hdrops
  | update update hup hnew hmac hdrops => exact hdrops

/-- With one token, or none, the token is in one place. -/
structure OnePlace (tokens : ℕ) (s : System) : Prop where
  sum : s.claimed + s.upstream.sum = s.mac.availableTokens
  updates : ∀ update ∈ s.upstream, update = tokens

theorem small_step {tokens : ℕ} {s s' : System} (h : Inv tokens s) (hsmall : tokens ≤ 1)
    (hplace : OnePlace tokens s) {action : Action} (hstep : s.step action = some s') :
    OnePlace tokens s' ∧ s'.drops = s.drops := by
  obtain ⟨hsum, hupdates⟩ := hplace
  have hconserved := h.ready.conserved
  have htokens := h.tokens_eq
  obtain ⟨hinv', heffect⟩ := step_effect h hstep
  have hconserved' := hinv'.ready.conserved
  have htokens' := hinv'.tokens_eq
  -- an update that is sent carries all tokens
  have hsent : ∀ {update : ℕ}, update = tokens → ∀ other ∈ s.upstream ++ [update], other = tokens := by
    intro update hupdate other hother
    rcases List.mem_append.mp hother with hold | hnew
    · exact hupdates other hold
    · rw [List.mem_singleton.mp hnew, hupdate]
  cases heffect with
  | frame frame hsame hmac hup hdrops =>
      exact ⟨⟨by rw [hsame, hmac, hup]; exact hsum, by rw [hup]; exact hupdates⟩, hdrops⟩
  | dropped now jitter hone hzero hdrops => omega
  | accepted now jitter hone hpos hle hroom hdrops =>
      have hfree : s.mac.queue.length < queueCapacity := by
        rw [queueCapacity]
        omega
      rcases hroom hfree with ⟨hup, hspent⟩ | ⟨hup, hback⟩
      · exact ⟨⟨by rw [hup]; omega, by rw [hup]; exact hupdates⟩, hdrops⟩
      · refine ⟨⟨?_, by rw [hup]; exact hsent (by omega)⟩, hdrops⟩
        rw [hup, List.sum_append, List.sum_singleton]
        omega
  | idle now hsame =>
      rw [hsame]
      exact ⟨⟨hsum, hupdates⟩, rfl⟩
  | transmit now hsame hone hup hdrops =>
      refine ⟨⟨?_, by rw [hup]; exact hsent (by omega)⟩, hdrops⟩
      rw [hup, List.sum_append, List.sum_singleton]
      omega
  | update update hup hnew hmac hdrops =>
      rw [hup, List.sum_cons, System.claimed] at hsum
      have hall := hupdates update (by rw [hup]; exact List.mem_cons_self)
      refine ⟨⟨?_, fun other hother => hupdates other (by rw [hup]; exact List.mem_cons_of_mem _ hother)⟩,
        hdrops⟩
      rw [hnew, hmac]
      omega

/-! ## Runs with drops -/

/-- A MAC that is transmitting queues the packets that arrive. -/
theorem busy_packet {tokens : ℕ} {s : System} (h : Inv tokens s) (hsmall : tokens ≤ queueCapacity)
    {now : ℤ} (hbusy : now < s.mac.currentEndOfTransmission) (hpos : 0 < s.mac.availableTokens)
    {packet : Bytes} {downstream : List Bytes} (hdown : s.downstream = packet :: downstream) :
    ∃ s', s.step (.packet now 0) = some s' ∧ Inv tokens s' ∧ now < s'.mac.currentEndOfTransmission ∧
      s'.mac.availableTokens + 1 = s.mac.availableTokens ∧ s'.downstream = downstream := by
  have hconserved := h.ready.conserved
  have htokens := h.tokens_eq
  obtain ⟨hready, -, htokens', hfree, hend, hlate⟩ := enqueue_spec h.ready hpos now 0 packet
  have hresult : s.mac.processDownstream now 0 packet = ((s.mac.enqueue now 0 packet).1, false, none) := by
    rw [Mac.processDownstream, if_neg (h.ready.not_refuses hpos)]
    simp only [if_neg (not_le.mpr (hbusy.trans_le hlate))]
  refine ⟨{ s with mac := (s.mac.enqueue now 0 packet).1, downstream }, ?_,
    ⟨hready, h.enabled, htokens'.trans htokens⟩, ?_, hfree (by omega), rfl⟩
  · simp [System.step, hdown, hresult]
  · show now < (s.mac.enqueue now 0 packet).1.currentEndOfTransmission
    rwa [hend]

/-- Packets arrive while the MAC is transmitting. -/
theorem busy_packets {tokens : ℕ} {s : System} (h : Inv tokens s) (hsmall : tokens ≤ queueCapacity)
    {now : ℤ} (hbusy : now < s.mac.currentEndOfTransmission) {n : ℕ} (hn : n ≤ s.mac.availableTokens)
    (hdown : n ≤ s.downstream.length) :
    ∃ s', runSteps System.step s (List.replicate n (.packet now 0)) = some s' ∧ Inv tokens s' ∧
      s'.mac.availableTokens + n = s.mac.availableTokens ∧
      s'.downstream.length + n = s.downstream.length := by
  induction n generalizing s with
  | zero => exact ⟨s, rfl, h, rfl, rfl⟩
  | succ n ih =>
      cases hlist : s.downstream with
      | nil => simp [hlist] at hdown
      | cons packet downstream =>
          rw [hlist, List.length_cons] at hdown
          obtain ⟨s₁, hstep, hinv, hbusy₁, hone, hdown₁⟩ :=
            busy_packet h hsmall hbusy (by omega) hlist
          obtain ⟨s', hrun, hinv', havailable, hlength⟩ := ih hinv hbusy₁ (by omega)
            (by rw [hdown₁]; omega)
          refine ⟨s', ?_, hinv', by omega, ?_⟩
          · rw [List.replicate_succ, runSteps_cons, hstep]
            exact hrun
          · rw [List.length_cons, ← hdown₁]
            omega

/-- The transport sends frames as long as it has tokens. -/
theorem send_frames {tokens : ℕ} {s : System} (h : Inv tokens s) {n : ℕ}
    (hn : n ≤ s.transport.flowControlTokens) :
    ∃ s', runSteps System.step s (List.replicate n (.frame bareFrame)) = some s' ∧ Inv tokens s' ∧
      s'.mac = s.mac ∧ s'.downstream.length = s.downstream.length + n := by
  induction n generalizing s with
  | zero => exact ⟨s, rfl, h, rfl, rfl⟩
  | succ n ih =>
      rcases ethernetDownstream_cases h.enabled bareFrame with
        ⟨hverify, -⟩ | ⟨hzero, -⟩ | ⟨hpos, hresult⟩
      · rw [verifyFrame_bareFrame] at hverify
        omega
      · omega
      obtain ⟨s', hrun, hinv, hmac, hlength⟩ := ih
        (s := { s with
          transport := { s.transport with flowControlTokens := s.transport.flowControlTokens - 1 }
          downstream := s.downstream ++ [bareFrame] }) ⟨h.ready, h.enabled, h.tokens_eq⟩
        (show n ≤ s.transport.flowControlTokens - 1 by omega)
      refine ⟨s', ?_, hinv, hmac, ?_⟩
      · rw [List.replicate_succ, runSteps_cons, System.step, hresult]
        exact hrun
      · rw [hlength, List.length_append, List.length_singleton]
        omega

/-- A packet is on its way to a MAC that is transmitting until `time` and has all its tokens, and the
transport has the same number. -/
def System.crowded (rate : ℕ) (delay : ℤ) (tokens : ℕ) (time : ℤ) : System :=
  { transport := { flowControlEnabled := true, flowControlTokens := tokens, pendingTransportFrames := [] }
    mac :=
      { dataRateBps := rate
        delayMicroseconds := delay
        flowControlEnable := true
        flowControlTokens := tokens
        availableTokens := tokens
        queue := []
        currentEndOfTransmission := time
        queueDiscards := 0
        started := true }
    downstream := [bareFrame]
    upstream := []
    drops := 0 }

/-- Two packets are sent. The first is transmitted, and the update for it reaches the transport before
the second one reaches the MAC. -/
def lateSecond (delay : ℤ) : List Action :=
  [.update, .frame bareFrame, .frame bareFrame, .packet 0 0, .transmit (max delay 0), .update]

/-- Two packets are sent with the tokens of the first update. -/
theorem twoSent_run (rate : ℕ) (delay : ℤ) (n : ℕ) :
    runSteps System.step (.init rate delay (n + 2)) [.update, .frame bareFrame, .frame bareFrame] =
      some { System.init rate delay (n + 2) with
        transport :=
          { flowControlEnabled := true, flowControlTokens := n, pendingTransportFrames := [] }
        downstream := [bareFrame, bareFrame]
        upstream := [] } := by
  simp [runSteps, System.init, Mac.start, System.step, Transport.releaseTransportFrames, releaseLoop,
    Transport.ethernetDownstream, verifyFrame_bareFrame]

theorem lateSecond_run (rate : ℕ) (delay : ℤ) {n : ℕ} (hle : n ≤ 65533) :
    ∃ time, max delay 0 < time ∧
      runSteps System.step (.init rate delay (n + 2)) (lateSecond delay) =
        some (.crowded rate delay (n + 2) time) := by
  refine ⟨max delay 0 + (max (durationMicroseconds bareFrame.length rate) 1 : ℕ), by omega, ?_⟩
  have hmin : min (n + 1 + 1) 65535 = n + 2 := by omega
  apply runSteps_append (twoSent_run rate delay n)
  -- the first packet is transmitted when it arrives, or by the timer
  rcases le_or_gt delay 0 with hneg | hpos
  · simp [runSteps, System.init, Mac.start, System.step, Transport.releaseTransportFrames,
      releaseLoop, Mac.processDownstream, Mac.enqueue, Mac.makeRoom,
      Mac.driveTransmit, Mac.returnToken, System.crowded, hneg, hmin]
  · simp [runSteps, System.init, Mac.start, System.step, Transport.releaseTransportFrames,
      releaseLoop, Mac.processDownstream, Mac.enqueue, Mac.makeRoom,
      Mac.driveTransmit, Mac.returnToken, System.crowded, not_le.mpr hpos, hpos.le, hle]

/-- **Too many packets.** From two tokens up to the capacity of the queue there is a run in which the MAC
drops a packet: after `lateSecond` the transport spends all tokens it was granted, and the MAC is busy
until all packets have arrived. -/
theorem exists_drop (rate : ℕ) (delay : ℤ) {tokens : ℕ} (hmany : 2 ≤ tokens)
    (hfew : tokens ≤ queueCapacity) :
    ∃ actions s, runSteps System.step (.init rate delay tokens) actions = some s ∧ s.drops ≠ 0 := by
  have hcapacity : queueCapacity = 255 := rfl
  obtain ⟨time, htime, hstart⟩ := lateSecond_run rate delay (show tokens - 2 ≤ 65533 by omega)
  rw [Nat.sub_add_cancel hmany] at hstart
  have hcrowded : Inv tokens (.crowded rate delay tokens time) :=
    ⟨⟨rfl, rfl, by show tokens ≤ 65535; omega, Nat.zero_le _, rfl⟩, rfl, rfl⟩
  obtain ⟨s₁, hframes, hinv₁, hmac₁, hlength₁⟩ := send_frames hcrowded (le_refl tokens)
  have hlength₁ : s₁.downstream.length = 1 + tokens := hlength₁
  have hbusy : max delay 0 < s₁.mac.currentEndOfTransmission := by rw [hmac₁]; exact htime
  have hall : s₁.mac.availableTokens = tokens := by rw [hmac₁]; rfl
  obtain ⟨s₂, hpackets, hinv₂, havailable₂, hlength₂⟩ :=
    busy_packets hinv₁ hfew hbusy hall.ge (by omega)
  -- one packet is left, and no token
  cases hdown : s₂.downstream with
  | nil =>
      rw [hdown, List.length_nil] at hlength₂
      omega
  | cons packet downstream =>
      have hzero : s₂.mac.availableTokens = 0 := by omega
      have hresult : s₂.mac.processDownstream (max delay 0) 0 packet = (s₂.mac, true, none) :=
        if_pos (.inr ⟨hinv₂.ready.enabled, hzero⟩)
      have hdropped : runSteps System.step s₂ [.packet (max delay 0) 0] =
          some { s₂ with downstream, drops := s₂.drops + 1 } := by
        simp [runSteps, System.step, hdown, hresult]
      exact ⟨_, _, runSteps_append (runSteps_append (runSteps_append hstart hframes) hpackets) hdropped,
        Nat.succ_ne_zero _⟩

/-! ## When flow control is safe -/

theorem init_inv (rate : ℕ) (delay : ℤ) {tokens : ℕ} (hle : tokens ≤ 65535) :
    Inv tokens (.init rate delay tokens) :=
  ⟨⟨rfl, rfl, hle, Nat.zero_le _, rfl⟩, rfl, rfl⟩

/-- No run of the system makes flow control drop a packet. -/
def Safe (rate : ℕ) (delay : ℤ) (tokens : ℕ) : Prop :=
  ∀ actions s, runSteps System.step (.init rate delay tokens) actions = some s → s.drops = 0

theorem safe_of_large (rate : ℕ) (delay : ℤ) {tokens : ℕ} (hle : tokens ≤ 65535)
    (hlarge : queueCapacity < tokens) : Safe rate delay tokens := by
  intro actions s hrun
  refine (runSteps_keeps (I := fun s => Inv tokens s ∧ s.drops = 0) ?_ ⟨init_inv rate delay hle, rfl⟩
    hrun).2
  rintro s action s' ⟨hinv, hdrops⟩ hstep
  exact ⟨(step_effect hinv hstep).1, (large_step hinv hlarge hstep).trans hdrops⟩

theorem safe_of_small (rate : ℕ) (delay : ℤ) {tokens : ℕ} (hsmall : tokens ≤ 1) :
    Safe rate delay tokens := by
  intro actions s hrun
  have hplace : OnePlace tokens (.init rate delay tokens) :=
    ⟨by simp [System.init, Mac.start, System.claimed], by simp [System.init, Mac.start]⟩
  refine (runSteps_keeps (I := fun s => Inv tokens s ∧ OnePlace tokens s ∧ s.drops = 0) ?_
    ⟨init_inv rate delay (by omega), hplace, rfl⟩ hrun).2.2
  rintro s action s' ⟨hinv, hplace, hdrops⟩ hstep
  obtain ⟨hplace', hsame⟩ := small_step hinv hsmall hplace hstep
  exact ⟨(step_effect hinv hstep).1, hplace', hsame.trans hdrops⟩

/-- In a run in which the updates grant no more than the MAC has left, no packet is dropped. -/
theorem drops_of_grants (rate : ℕ) (delay : ℤ) {tokens : ℕ} (hle : tokens ≤ 65535)
    {actions : List Action} {s : System}
    (hmeets : RunMeets System.step System.Grants (.init rate delay tokens) actions)
    (hrun : runSteps System.step (.init rate delay tokens) actions = some s) : s.drops = 0 := by
  refine (completed_run_invariant (fun _ => True)
    (I := fun _ s => Inv tokens s ∧ s.claimed ≤ s.mac.availableTokens ∧ s.drops = 0)
    (fun _ _ h => h) ?_ actions [] (.init rate delay tokens) s trivial
    ⟨init_inv rate delay hle, Nat.zero_le _, rfl⟩ hmeets hrun).2.2
  rintro past action s s' - ⟨hinv, hclaimed, hdrops⟩ hgrants hstep
  obtain ⟨hclaimed', hsame⟩ := granted_step hinv hclaimed hgrants hstep
  exact ⟨(step_effect hinv hstep).1, hclaimed', hsame.trans hdrops⟩

/-- **When flow control drops packets.** For every configuration, no run drops a packet if and only if the
MAC has at most one token or more tokens than its queue has room. Whatever the number, a run drops no
packet if each update that reaches the transport, together with the packets in flight, is within the
tokens that the MAC has then. -/
theorem flowControl_safe_iff (rate : ℕ) (delay : ℤ) (tokens : UInt16) :
    (Safe rate delay tokens.toNat ↔ tokens.toNat ≤ 1 ∨ queueCapacity < tokens.toNat) ∧
    ∀ actions s, RunMeets System.step System.Grants (.init rate delay tokens.toNat) actions →
      runSteps System.step (.init rate delay tokens.toNat) actions = some s → s.drops = 0 := by
  have hle : tokens.toNat ≤ 65535 := Nat.le_of_lt_succ tokens.toNat_lt
  refine ⟨⟨fun hsafe => ?_, ?_⟩, fun actions s hmeets hrun => drops_of_grants rate delay hle hmeets hrun⟩
  · by_contra hneither
    rw [not_or, not_le, not_lt] at hneither
    obtain ⟨actions, s, hrun, hdrops⟩ := exists_drop rate delay hneither.1 hneither.2
    exact hdrops (hsafe actions s hrun)
  · rintro (hsmall | hlarge)
    · exact safe_of_small rate delay hsmall
    · exact safe_of_large rate delay hle hlarge

/-- Two packets in a row, each one transmitted before the next update arrives. -/
def inTurn : List Action :=
  [.update, .frame bareFrame, .frame bareFrame, .packet 0 0, .packet 0 0, .transmit 112, .update,
    .transmit 224, .update]

/-- The update for the first transmission finds no packet in flight. -/
theorem flowControl_safe_iff_inTurn :
    ¬ Safe 1000000 0 2 ∧
      RunMeets System.step System.Grants (.init 1000000 0 2) inTurn ∧
      ∃ s, runSteps System.step (.init 1000000 0 2) inTurn = some s ∧ s.drops = 0 := by
  obtain ⟨hiff, hruns⟩ := flowControl_safe_iff 1000000 0 2
  refine ⟨fun hsafe => ?_, by decide +kernel, ?_⟩
  · rcases hiff.mp hsafe with hsmall | hlarge
    · exact absurd hsmall (by decide)
    · exact absurd hlarge (by decide)
  · obtain ⟨s, hrun⟩ := Option.isSome_iff_exists.mp
      (show (runSteps System.step (.init 1000000 0 2) inTurn).isSome by decide +kernel)
    exact ⟨s, hrun, hruns inTurn s (by decide +kernel) hrun⟩

/-- With two tokens: the second packet is in flight when the update for the first transmission arrives;
of the three packets that follow each other then, the last one is dropped. -/
theorem not_safe_two : ¬ Safe 1000000 0 2 := by
  intro hsafe
  have hdrops : (runSteps System.step (.init 1000000 0 2)
      (lateSecond 0 ++
        [.frame bareFrame, .frame bareFrame, .packet 0 0, .packet 0 0, .packet 0 0])).map
        System.drops = some 1 := by decide +kernel
  obtain ⟨s, hrun, hone⟩ := Option.map_eq_some_iff.mp hdrops
  cases (hsafe _ s hrun).symm.trans hone

end Emane.Rfpipe
