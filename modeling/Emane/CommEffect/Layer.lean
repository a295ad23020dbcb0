import Mathlib
import Emane.CommEffect.Pending
import Emane.CommEffect.Profiles
import Emane.CommEffect.ReceiveBuffer
import Emane.Lib.Run
import Emane.PluginApi.Properties

set_option autoImplicit false

/-! # The comm effect layer at work

A packet that goes down gets a header with the group of the layer and a number. A packet that comes up is
dropped, sent up at once, or written into a timer for each of its copies, and sent up when this timer fires.
Which of these it is depends on the header, on the filters for its payload, and on the profile of its source.

The random numbers and the clock are part of the input: `Reception.copies` has an entry for each copy that
`task_count` asks for. In every run each packet is sent up as often as its fate says, as it has come and without
its header (`deliveries_accounted`). The headers that one layer writes are those that others read
(`headers_numbered`).
-/

namespace Emane.CommEffect

open Emane.Lib
open Emane.PluginApi (CommEffectHeader)

/-! ## Filters -/

inductive ProtocolRule where
  | udp (source destination : Option UInt16)
  | number (value : UInt8)
  deriving DecidableEq

structure Ipv4Rule where
  source : Option (Vector UInt8 4)
  destination : Option (Vector UInt8 4)
  totalLength : Option UInt16
  tos : Option UInt8
  ttl : Option UInt8
  protocols : List ProtocolRule
  deriving DecidableEq

structure Target where
  ipv4 : Option Ipv4Rule
  deriving DecidableEq

structure Filter where
  target : Target
  effect : Profile
  deriving DecidableEq

/-- A rule about the protocol of a packet whose IP header is `headerLen` bytes long. -/
def ProtocolRule.matches (ip : Bytes) (hip : 20 ≤ ip.length) (headerLen : ℕ) : ProtocolRule → Bool
  | .number value => ip[9] == value
  | .udp source destination =>
      if hudp : ip[9] ≠ 17 ∨ ip.length < headerLen + 8 then false
      else
        have hlength : 8 ≤ (ip.drop headerLen).length := by rw [List.length_drop]; omega
        let udp := ip.drop headerLen
        !(source.any (fromBeBytes [udp[0], udp[1]] != ·)) &&
          !(destination.any (fromBeBytes [udp[2], udp[3]] != ·))

def Ipv4Rule.matches (rule : Ipv4Rule) (frame : Bytes) : Bool :=
  if hframe : frame.length < 34 then false
  else if fromBeBytes [frame[12], frame[13]] ≠ (0x0800 : UInt16) then false
  else
    let ip := frame.drop 14
    have hip : 20 ≤ ip.length := by rw [List.length_drop]; omega
    let headerLen := (ip[0] &&& 0x0f).toNat * 4
    if ip[0] >>> 4 ≠ 4 ∨ headerLen < 20 ∨ ip.length < headerLen then false
    else if rule.source.any (fun value => (ip.drop 12).take 4 != value.toList) ||
        rule.destination.any (fun value => (ip.drop 16).take 4 != value.toList) ||
        rule.totalLength.any (fromBeBytes [ip[2], ip[3]] != ·) ||
        rule.tos.any (ip[1] != ·) || rule.ttl.any (ip[8] != ·) then false
    else if rule.protocols.isEmpty then true
    else rule.protocols.any (ProtocolRule.matches ip hip headerLen)

/-- `Target::matches`; a target without a rule takes every frame. -/
def Target.matches (target : Target) (frame : Bytes) : Bool :=
  match target.ipv4 with
  | none => true
  | some rule => rule.matches frame

/-- What a rule takes is long enough for an Ethernet header and a whole IPv4 header after it. -/
theorem Ipv4Rule.header_of_matches {rule : Ipv4Rule} {frame : Bytes} (h : rule.matches frame = true) :
    ∃ first : UInt8, frame[14]? = some first ∧ first >>> 4 = 4 ∧ 20 ≤ (first &&& 0x0f).toNat * 4 ∧
      14 + (first &&& 0x0f).toNat * 4 ≤ frame.length := by
  unfold Ipv4Rule.matches at h
  split at h
  · cases h
  split at h
  · cases h
  dsimp only at h
  split at h
  · cases h
  rename_i hlength _ hheader
  simp only [not_or, not_not, not_lt, List.length_drop, List.getElem_drop, Nat.add_zero] at hheader
  obtain ⟨hversion, hmin, hmax⟩ := hheader
  exact ⟨frame[14], List.getElem?_eq_getElem _, hversion, hmin, by omega⟩

/-- A UDP packet to port 53, and the same packet cut within its UDP header. -/
example :
    let target : Target := ⟨some ⟨none, none, none, none, some 64, [.udp none (some 53)]⟩⟩
    let frame : Bytes := List.replicate 12 0 ++ [8, 0, 0x45, 0, 0, 28, 0, 0, 0, 0, 64, 17, 0, 0, 10, 0, 0, 1,
      10, 0, 0, 2, 0, 9, 0, 53, 0, 8, 0, 0]
    (target.matches frame, target.matches (frame.take 38)) = (true, false) := by
  decide +kernel

/-! ## The layer -/

/-- `PacketDropReason` -/
inductive PacketDropReason where
  | effect
  | groupId
  | registrationId
  | destination
  | badMessage
  | noProfile
  | receiveBuffer
  | timer
  deriving DecidableEq

/-- `CommEffectShim` -/
structure CommEffectShim where
  id : UInt16
  promiscuous : Bool
  groupId : UInt32
  filters : List Filter
  known : Profiles
  buffer : Buffer
  sequence : UInt32

/-- A packet that comes up, with what the clock shows, the time that was spent on it when it is sent up at
once, and for each copy what is drawn and the time that was spent until then. -/
structure Reception where
  packet : FfiPacket
  messages : List FfiControlMessage
  now : UInt64
  elapsed : UInt64
  copies : List (Copy × UInt64)

structure Timer where
  time : TimerTime
  data : Bytes

/-- What becomes of a packet. If the framework has refused a timer of a delayed packet, the packet is counted
as dropped with the reason `Timer` as well. -/
inductive Fate where
  | ignored
  | dropped (reason : PacketDropReason)
  | sent (delivery : Pending)
  | delayed (timers : List Timer) (timerFailure : Bool)

/-- The header and the destination of the packet were right; what is left can still drop it. -/
def Fate.Admitted : Fate → Prop
  | .ignored => False
  | .dropped reason => reason = .effect ∨ reason = .noProfile ∨ reason = .receiveBuffer
  | .sent _ => True
  | .delayed _ _ => True

/-- The packet as the receive buffer sees it. -/
def Reception.arrival (reception : Reception) (effect : Profile) : Arrival where
  source := reception.packet.info.source
  destination := reception.packet.info.destination
  payloadLen := reception.packet.payload.length
  effect :=
    { latencyMicroseconds := effect.latencyMicroseconds
      jitterMicroseconds := effect.jitterMicroseconds
      unicastBitRateBps := effect.unicastBitRateBps
      broadcastBitRateBps := effect.broadcastBitRateBps }
  now := reception.now
  copies := reception.copies.map Prod.fst

/-- The data of the timer of a copy, with the delay patched in. -/
def Reception.timerData (reception : Reception) (delay : UInt64) : Option Bytes :=
  (patchDelay (encodePending reception.packet reception.messages 0) delay).toOption

/-- The timers that the framework has taken. -/
def Reception.timers (reception : Reception) (times : List TimerTime) : Option (List Timer) :=
  ((reception.copies.zip times).filter (·.1.1.scheduled)).mapM fun entry =>
    (reception.timerData entry.1.2).map (Timer.mk entry.2)

namespace CommEffectShim

variable (shim : CommEffectShim)

/-- The part of `upstream` that looks at the header and the destination. -/
def checkHeader (packet : FfiPacket) (incoming : List FfiControlMessage) :
    Except PacketDropReason CommEffectHeader :=
  match incoming.find? (·.msgType == controlCommEffectHeader) with
  | none => .error .registrationId
  | some message =>
      match CommEffectHeader.decode message.payload with
      | .error _ => .error .badMessage
      | .ok header =>
          if ¬ shim.promiscuous ∧ packet.info.destination ≠ broadcastNem ∧
              packet.info.destination ≠ shim.id then .error .destination
          else if header.groupId ≠ shim.groupId then .error .groupId
          else .ok header

/-- The effect on a packet: that of the first filter that takes it, else that of its source. -/
def effectOf (packet : FfiPacket) : Option Profile :=
  ((shim.filters.find? (·.target.matches packet.payload)).map Filter.effect).or
    shim.known.profiles[packet.info.source]?

/-- `upstream` with a packet -/
def upstream (reception : Reception) : Option (CommEffectShim × Fate) :=
  -- `controls`
  if 4096 < reception.messages.length then some (shim, .ignored)
  else
    match shim.checkHeader reception.packet reception.messages with
    | .error reason => some (shim, .dropped reason)
    | .ok _ =>
        match shim.effectOf reception.packet with
        | none =>
            if shim.known.defaultConnectivity then
              some (shim, .sent (sendUpstreamNow reception.packet reception.messages reception.elapsed))
            else some (shim, .dropped .noProfile)
        | some effect =>
            let (buffer, outcome) := shim.buffer.upstream (reception.arrival effect)
            let shim := { shim with buffer := buffer }
            match outcome with
            | .receiveBuffer => some (shim, .dropped .receiveBuffer)
            | .effect => some (shim, .dropped .effect)
            | .delayed times timerFailure =>
                (reception.timers times).map fun timers => (shim, .delayed timers timerFailure)

/-- `downstream` with a packet: the layer afterwards, and the controls that go down with the packet. -/
def downstream (messages : List FfiControlMessage) (now : UInt64) :
    CommEffectShim × List FfiControlMessage :=
  let header : CommEffectHeader := ⟨shim.groupId, shim.sequence, now.toInt64⟩
  ({ shim with sequence := shim.sequence + 1 },
    outgoing messages ++ [⟨controlCommEffectHeader, header.encode⟩])

/-- `stop`: the ends of the receptions are forgotten. -/
def stop : CommEffectShim :=
  { shim with
    buffer :=
      { Buffer.idle with receiveBufferPeriodMicroseconds := shim.buffer.receiveBufferPeriodMicroseconds } }

end CommEffectShim

/-! ## The layer and its timers -/

/-- The layer, the timers that have not fired, and what it has sent and what became of the packets. -/
structure Traffic where
  shim : CommEffectShim
  waiting : List Timer
  up : List Pending
  down : List (FfiPacket × List FfiControlMessage)
  fates : List (Reception × Fate)

inductive Move where
  | downstream (packet : FfiPacket) (messages : List FfiControlMessage) (now : UInt64)
  | upstream (reception : Reception)
  | timed (index : ℕ)
  | event (effects : List CommEffectMessage)
  | stop

namespace Traffic

def start (shim : CommEffectShim) : Traffic where
  shim := shim
  waiting := []
  up := []
  down := []
  fates := []

/-- A packet has come up: it is sent up at once or waits. -/
def receive (traffic : Traffic) (reception : Reception) (shim : CommEffectShim) (fate : Fate) : Traffic where
  shim := shim
  waiting :=
    match fate with
    | .delayed timers _ => traffic.waiting ++ timers
    | _ => traffic.waiting
  up :=
    match fate with
    | .sent delivery => traffic.up ++ [delivery]
    | _ => traffic.up
  down := traffic.down
  fates := traffic.fates ++ [(reception, fate)]

/-- A timer fires; `timed` sends up what it finds in the data. -/
def timed (traffic : Traffic) (index : ℕ) : Traffic :=
  match traffic.waiting[index]? with
  | none => traffic
  | some timer =>
      { traffic with
        waiting := traffic.waiting.eraseIdx index
        up :=
          match decodePending timer.data with
          | .ok delivery => traffic.up ++ [delivery]
          | .error _ => traffic.up }

def step (traffic : Traffic) : Move → Option Traffic
  | .downstream packet messages now =>
      -- `controls`
      if 4096 < messages.length then some traffic
      else
        let (shim, controls) := traffic.shim.downstream messages now
        some { traffic with shim := shim, down := traffic.down ++ [(packet, controls)] }
  | .upstream reception =>
      (traffic.shim.upstream reception).map fun next => traffic.receive reception next.1 next.2
  | .timed index => some (traffic.timed index)
  | .event effects =>
      some { traffic with shim := { traffic.shim with known := traffic.shim.known.event effects } }
  | .stop => some { traffic with shim := traffic.shim.stop }

end Traffic

/-! ## The fate of a packet -/

/-- The lengths of what comes up fit into their fields. -/
structure Reception.Fits (reception : Reception) : Prop where
  payload : reception.packet.payload.length < 2 ^ 32
  messages : ∀ message ∈ reception.messages, message.Fits

/-- What is sent up for a packet, sooner or later. -/
def promised : Reception × Fate → List Pending
  | (_, .ignored) => []
  | (_, .dropped _) => []
  | (_, .sent delivery) => [delivery]
  | (reception, .delayed _ _) => (reception.copies.filter (·.1.scheduled)).map fun copy =>
      sendUpstreamNow reception.packet reception.messages copy.2

theorem Reception.timerData_eq (reception : Reception) (delay : UInt64) : reception.timerData delay =
    some (pendingBytes (sendUpstreamNow reception.packet reception.messages delay)) := by
  unfold timerData encodePending
  rw [patchDelay_pendingBytes]
  rfl

/-- The framework takes a timer with the data of each copy whose timer it takes. -/
theorem Reception.timers_eq (reception : Reception) (times : List TimerTime)
    (htimes : times.length = reception.copies.length) :
    ∃ timers, reception.timers times = some timers ∧
      timers.map Timer.data = ((reception.copies.filter (·.1.scheduled)).map fun copy =>
        pendingBytes (sendUpstreamNow reception.packet reception.messages copy.2)) := by
  refine ⟨((reception.copies.zip times).filter (·.1.1.scheduled)).map fun entry =>
    ⟨entry.2, pendingBytes (sendUpstreamNow reception.packet reception.messages entry.1.2)⟩, ?_, ?_⟩
  · unfold timers
    simp only [timerData_eq, Option.map_some]
    exact List.mapM_pure
  · have hcopies : reception.copies = (reception.copies.zip times).map Prod.fst :=
      (List.map_fst_zip htimes.ge).symm
    conv_rhs => rw [hcopies]
    rw [List.filter_map, List.map_map, List.map_map]
    rfl

section

variable {shim shim' : CommEffectShim} {reception : Reception} {fate : Fate}

/-- The delayed path schedules a timer for each copy. -/
theorem length_of_delayed {buffer : Buffer} {arrival : Arrival} {times : List TimerTime} {timerFailure : Bool}
    (h : (buffer.upstream arrival).2 = .delayed times timerFailure) :
    times.length = arrival.copies.length := by
  rw [Buffer.upstream_outcome] at h
  cases hend : buffer.receptionEnd arrival with
  | none =>
      rw [hend] at h
      cases h
  | some endTime =>
      rw [hend] at h
      dsimp only [Arrival.deliver] at h
      split at h
      · cases h
      · injection h with htimes
        rw [← htimes, List.length_map]

/-- What `upstream` does to a packet. -/
inductive Upstream (shim : CommEffectShim) (reception : Reception) : CommEffectShim → Fate → Prop
  | ignored (hcount : 4096 < reception.messages.length) : Upstream shim reception shim .ignored
  | refused (hcount : reception.messages.length ≤ 4096) (reason : PacketDropReason)
      (hchecked : shim.checkHeader reception.packet reception.messages = .error reason) :
      Upstream shim reception shim (.dropped reason)
  | dropped (hcount : reception.messages.length ≤ 4096) (header : CommEffectHeader)
      (hchecked : shim.checkHeader reception.packet reception.messages = .ok header) (buffer : Buffer)
      (reason : PacketDropReason) (hreason : Fate.Admitted (.dropped reason)) :
      Upstream shim reception { shim with buffer := buffer } (.dropped reason)
  | sent (hcount : reception.messages.length ≤ 4096) (header : CommEffectHeader)
      (hchecked : shim.checkHeader reception.packet reception.messages = .ok header) :
      Upstream shim reception shim
        (.sent (sendUpstreamNow reception.packet reception.messages reception.elapsed))
  | delayed (hcount : reception.messages.length ≤ 4096) (header : CommEffectHeader)
      (hchecked : shim.checkHeader reception.packet reception.messages = .ok header) (buffer : Buffer)
      (timers : List Timer) (timerFailure : Bool)
      (htimers : timers.map Timer.data = ((reception.copies.filter (·.1.scheduled)).map fun copy =>
        pendingBytes (sendUpstreamNow reception.packet reception.messages copy.2))) :
      Upstream shim reception { shim with buffer := buffer } (.delayed timers timerFailure)

/-- `upstream` never stops, and does one of these things. -/
theorem upstream_cases (shim : CommEffectShim) (reception : Reception) :
    ∃ shim' fate, shim.upstream reception = some (shim', fate) ∧ Upstream shim reception shim' fate := by
  unfold CommEffectShim.upstream
  by_cases hcount : 4096 < reception.messages.length
  · rw [if_pos hcount]
    exact ⟨shim, .ignored, rfl, .ignored hcount⟩
  rw [if_neg hcount]
  have hcount := not_lt.mp hcount
  cases hchecked : shim.checkHeader reception.packet reception.messages with
  | error reason => exact ⟨shim, .dropped reason, rfl, .refused hcount reason hchecked⟩
  | ok header =>
      cases heffect : shim.effectOf reception.packet with
      | none =>
          dsimp only
          split
          · exact ⟨_, _, rfl, .sent hcount header hchecked⟩
          · exact ⟨_, _, rfl, .dropped hcount header hchecked shim.buffer .noProfile (.inr (.inl rfl))⟩
      | some effect =>
          dsimp only
          cases houtcome : (shim.buffer.upstream (reception.arrival effect)).2 with
          | receiveBuffer =>
              exact ⟨_, _, rfl, .dropped hcount header hchecked _ .receiveBuffer (.inr (.inr rfl))⟩
          | effect => exact ⟨_, _, rfl, .dropped hcount header hchecked _ .effect (.inl rfl)⟩
          | delayed times timerFailure =>
              have hlength : times.length = reception.copies.length :=
                (length_of_delayed houtcome).trans (List.length_map ..)
              obtain ⟨timers, htimers, hdata⟩ := reception.timers_eq times hlength
              refine ⟨_, _, ?_, .delayed hcount header hchecked
                (shim.buffer.upstream (reception.arrival effect)).1 timers timerFailure hdata⟩
              dsimp only
              rw [htimers]
              rfl

/-- What the header and the destination decide about a packet. -/
theorem Upstream.fate_of_checked {shim shim' : CommEffectShim} {reception : Reception} {fate : Fate}
    (h : Upstream shim reception shim' fate) :
    (4096 < reception.messages.length → fate = .ignored) ∧
      (reception.messages.length ≤ 4096 →
        (∀ reason, shim.checkHeader reception.packet reception.messages = .error reason →
          fate = .dropped reason) ∧
        ∀ header, shim.checkHeader reception.packet reception.messages = .ok header →
          fate.Admitted) := by
  cases h with
  | ignored hcount => exact ⟨fun _ => rfl, fun hle => absurd hcount (not_lt.mpr hle)⟩
  | refused hcount reason hchecked =>
      refine ⟨fun hlt => absurd hlt (not_lt.mpr hcount), fun _ => ?_⟩
      rw [hchecked]
      exact ⟨fun _ heq => congrArg Fate.dropped (Except.error.inj heq), by simp⟩
  | dropped hcount header hchecked buffer reason hreason =>
      refine ⟨fun hlt => absurd hlt (not_lt.mpr hcount), fun _ => ?_⟩
      rw [hchecked]
      exact ⟨by simp, fun _ _ => hreason⟩
  | sent hcount header hchecked =>
      refine ⟨fun hlt => absurd hlt (not_lt.mpr hcount), fun _ => ?_⟩
      rw [hchecked]
      exact ⟨by simp, fun _ _ => trivial⟩
  | delayed hcount header hchecked buffer timers timerFailure htimers =>
      refine ⟨fun hlt => absurd hlt (not_lt.mpr hcount), fun _ => ?_⟩
      rw [hchecked]
      exact ⟨by simp, fun _ _ => trivial⟩

end

/-! ## All packets -/

/-- What decides about a header is the same. -/
structure SameGate (shim other : CommEffectShim) : Prop where
  id : shim.id = other.id
  promiscuous : shim.promiscuous = other.promiscuous
  groupId : shim.groupId = other.groupId

theorem SameGate.checkHeader_eq {shim other : CommEffectShim} (h : SameGate shim other) (packet : FfiPacket)
    (messages : List FfiControlMessage) : shim.checkHeader packet messages = other.checkHeader packet messages := by
  unfold CommEffectShim.checkHeader
  rw [h.id, h.promiscuous, h.groupId]

def Move.reception : Move → Option Reception
  | .upstream reception => some reception
  | _ => none

/-- The delivery is the packet as it has come, without its header, and the header was admitted. -/
structure Passes (shim : CommEffectShim) (reception : Reception) (delivery : Pending) : Prop where
  packet : delivery.packet = reception.packet
  messages : delivery.messages = outgoing reception.messages
  admitted : ∃ header, shim.checkHeader reception.packet reception.messages = .ok header

/-- What is known about the traffic after some moves, newest first. -/
structure Accounted (shim : CommEffectShim) (past : List Move) (traffic : Traffic) : Prop where
  gate : SameGate traffic.shim shim
  receptions : traffic.fates.map Prod.fst = past.reverse.filterMap Move.reception
  deliveries : ∃ deliveries : List Pending, (∀ delivery ∈ deliveries, delivery.Fits) ∧
    traffic.waiting.map Timer.data = deliveries.map pendingBytes ∧
    (traffic.up ++ deliveries).Perm (traffic.fates.flatMap promised)
  passes : ∀ entry ∈ traffic.fates, ∀ delivery ∈ promised entry, Passes shim entry.1 delivery

section

variable {shim : CommEffectShim} {past : List Move} {traffic : Traffic}

theorem Accounted.start (shim : CommEffectShim) : Accounted shim [] (Traffic.start shim) where
  gate := ⟨rfl, rfl, rfl⟩
  receptions := rfl
  deliveries := ⟨[], by simp, rfl, .nil⟩
  passes entry hentry := absurd hentry List.not_mem_nil

/-- What is sent up for a packet whose lengths fit can be written into a timer. -/
theorem fits_sendUpstreamNow {reception : Reception} (hfits : reception.Fits)
    (hcount : reception.messages.length ≤ 4096) (delay : UInt64) :
    (sendUpstreamNow reception.packet reception.messages delay).Fits where
  payload := hfits.payload
  count := Nat.lt_of_le_of_lt ((outgoing_length_le _).trans hcount) (by decide)
  messages message hmessage := hfits.messages message (List.mem_of_mem_filter hmessage)

/-- A move that is not about packets that come up. -/
theorem Accounted.other (h : Accounted shim past traffic) {move : Move} (hmove : move.reception = none)
    (shim' : CommEffectShim) (hgate : SameGate shim' traffic.shim)
    (down : List (FfiPacket × List FfiControlMessage)) :
    Accounted shim (move :: past) { traffic with shim := shim', down := down } where
  gate := ⟨hgate.id.trans h.gate.id, hgate.promiscuous.trans h.gate.promiscuous,
    hgate.groupId.trans h.gate.groupId⟩
  receptions := by
    rw [List.reverse_cons, List.filterMap_append, List.filterMap_cons_none hmove, List.filterMap_nil,
      List.append_nil]
    exact h.receptions
  deliveries := h.deliveries
  passes := h.passes

/-- A packet gets its fate: what was promised for it is sent up or waits. -/
theorem Accounted.receive_of (h : Accounted shim past traffic) {reception : Reception}
    {shim' : CommEffectShim} {fate : Fate} (hgate : SameGate shim' traffic.shim) (sent new : List Pending)
    (hup : (traffic.receive reception shim' fate).up = traffic.up ++ sent)
    (hnew : (traffic.receive reception shim' fate).waiting.map Timer.data =
      traffic.waiting.map Timer.data ++ new.map pendingBytes)
    (hpromised : promised (reception, fate) = sent ++ new)
    (hfits : ∀ delivery ∈ new, delivery.Fits)
    (hpasses : ∀ delivery ∈ promised (reception, fate), Passes shim reception delivery) :
    Accounted shim (.upstream reception :: past) (traffic.receive reception shim' fate) where
  gate := ⟨hgate.id.trans h.gate.id, hgate.promiscuous.trans h.gate.promiscuous,
    hgate.groupId.trans h.gate.groupId⟩
  receptions := by
    change (traffic.fates ++ [(reception, fate)]).map Prod.fst = _
    rw [List.map_append, h.receptions, List.reverse_cons, List.filterMap_append]
    rfl
  deliveries := by
    obtain ⟨deliveries, hdeliveries, hwaiting, hperm⟩ := h.deliveries
    refine ⟨deliveries ++ new, ?_, ?_, ?_⟩
    · intro delivery hdelivery
      rcases List.mem_append.mp hdelivery with hold | hnew
      · exact hdeliveries delivery hold
      · exact hfits delivery hnew
    · rw [hnew, hwaiting, List.map_append]
    · rw [hup]
      change (traffic.up ++ sent ++ (deliveries ++ new)).Perm
        ((traffic.fates ++ [(reception, fate)]).flatMap promised)
      rw [List.flatMap_append, List.flatMap_singleton, hpromised]
      calc traffic.up ++ sent ++ (deliveries ++ new)
          = traffic.up ++ ((sent ++ deliveries) ++ new) := by simp only [List.append_assoc]
        List.Perm _ (traffic.up ++ ((deliveries ++ sent) ++ new)) :=
          (List.perm_append_comm.append_right new).append_left traffic.up
        _ = traffic.up ++ deliveries ++ (sent ++ new) := by simp only [List.append_assoc]
        List.Perm _ (traffic.fates.flatMap promised ++ (sent ++ new)) := hperm.append_right _
  passes entry hentry := by
    rcases List.mem_append.mp hentry with hentry | hentry
    · exact h.passes entry hentry
    · rw [List.mem_singleton] at hentry
      rw [hentry]
      exact hpasses

theorem Accounted.receive (h : Accounted shim past traffic) {reception : Reception} (hfits : reception.Fits)
    {shim' : CommEffectShim} {fate : Fate} (hup : Upstream traffic.shim reception shim' fate) :
    Accounted shim (.upstream reception :: past) (traffic.receive reception shim' fate) := by
  cases hup with
  | ignored hcount =>
      exact h.receive_of ⟨rfl, rfl, rfl⟩ [] [] (List.append_nil _).symm (List.append_nil _).symm rfl
        (by simp) (by simp [promised])
  | refused hcount reason hchecked =>
      exact h.receive_of ⟨rfl, rfl, rfl⟩ [] [] (List.append_nil _).symm (List.append_nil _).symm rfl
        (by simp) (by simp [promised])
  | dropped hcount header hchecked buffer reason hreason =>
      exact h.receive_of ⟨rfl, rfl, rfl⟩ [] [] (List.append_nil _).symm (List.append_nil _).symm rfl
        (by simp) (by simp [promised])
  | sent hcount header hchecked =>
      rw [h.gate.checkHeader_eq] at hchecked
      refine h.receive_of ⟨rfl, rfl, rfl⟩ [_] [] rfl (List.append_nil _).symm rfl (by simp) ?_
      intro delivery hdelivery
      rw [promised, List.mem_singleton] at hdelivery
      rw [hdelivery]
      exact ⟨rfl, rfl, header, hchecked⟩
  | delayed hcount header hchecked buffer timers timerFailure htimers =>
      rw [h.gate.checkHeader_eq] at hchecked
      refine h.receive_of ⟨rfl, rfl, rfl⟩ [] (promised (reception, .delayed timers timerFailure))
        (List.append_nil _).symm ?_ rfl ?_ ?_
      · change (traffic.waiting ++ timers).map Timer.data = _
        rw [List.map_append, htimers, promised, List.map_map]
        rfl
      · intro delivery hdelivery
        obtain ⟨copy, -, rfl⟩ := List.mem_map.mp hdelivery
        exact fits_sendUpstreamNow hfits hcount copy.2
      · intro delivery hdelivery
        obtain ⟨copy, -, rfl⟩ := List.mem_map.mp hdelivery
        exact ⟨rfl, rfl, header, hchecked⟩

/-- A timer fires: what waits in it goes up. -/
theorem Accounted.timed (h : Accounted shim past traffic) (index : ℕ) :
    Accounted shim (.timed index :: past) (traffic.timed index) := by
  have hsame : Accounted shim (.timed index :: past) traffic :=
    h.other rfl traffic.shim ⟨rfl, rfl, rfl⟩ traffic.down
  unfold Traffic.timed
  cases htimer : traffic.waiting[index]? with
  | none => exact hsame
  | some timer =>
      obtain ⟨deliveries, hdeliveries, hwaiting, hperm⟩ := h.deliveries
      have hdata : deliveries[index]?.map pendingBytes = some timer.data := by
        rw [← List.getElem?_map, ← hwaiting, List.getElem?_map, htimer]
        rfl
      obtain ⟨delivery, hdelivery, hbytes⟩ := Option.map_eq_some_iff.mp hdata
      obtain ⟨hindex, hget⟩ := List.getElem?_eq_some_iff.mp hdelivery
      have hdecode : decodePending timer.data = .ok delivery := by
        rw [← hbytes]
        exact decodePending_pendingBytes (hdeliveries delivery (List.mem_of_getElem? hdelivery))
      refine ⟨h.gate, hsame.receptions, ⟨deliveries.eraseIdx index, ?_, ?_, ?_⟩, h.passes⟩
      · intro other hother
        exact hdeliveries other (List.mem_of_mem_eraseIdx hother)
      · change (traffic.waiting.eraseIdx index).map Timer.data = _
        rw [← List.eraseIdx_map, hwaiting, List.eraseIdx_map]
      · dsimp only
        rw [hdecode]
        change (traffic.up ++ [delivery] ++ _).Perm (traffic.fates.flatMap promised)
        rw [List.append_assoc, List.singleton_append, ← hget]
        exact ((List.getElem_cons_eraseIdx_perm hindex).append_left _).trans hperm

/-- The lengths of the packet of a move fit. -/
def Move.Fits (move : Move) : Prop := ∀ reception ∈ move.reception, reception.Fits

/-- Every move can be made and keeps the account. -/
theorem Accounted.step (h : Accounted shim past traffic) {move : Move} (hfits : move.Fits) :
    ∃ traffic', traffic.step move = some traffic' ∧ Accounted shim (move :: past) traffic' := by
  cases move with
  | downstream packet messages now =>
      by_cases hcount : 4096 < messages.length
      · exact ⟨traffic, if_pos hcount, h.other rfl traffic.shim ⟨rfl, rfl, rfl⟩ traffic.down⟩
      · exact ⟨_, if_neg hcount,
          h.other rfl (traffic.shim.downstream messages now).1 ⟨rfl, rfl, rfl⟩ _⟩
  | upstream reception =>
      obtain ⟨shim', fate, hstep, hup⟩ := upstream_cases traffic.shim reception
      refine ⟨traffic.receive reception shim' fate, ?_, h.receive (hfits reception rfl) hup⟩
      rw [Traffic.step, hstep]
      rfl
  | timed index => exact ⟨_, rfl, h.timed index⟩
  | event effects =>
      exact ⟨_, rfl, h.other rfl { traffic.shim with known := traffic.shim.known.event effects }
        ⟨rfl, rfl, rfl⟩ traffic.down⟩
  | stop => exact ⟨_, rfl, h.other rfl traffic.shim.stop ⟨rfl, rfl, rfl⟩ traffic.down⟩

/-- A run of moves that fit can be made and keeps the account. -/
theorem Accounted.run (shim : CommEffectShim) {moves : List Move} (hfits : ∀ move ∈ moves, move.Fits) :
    ∃ traffic, runSteps Traffic.step (.start shim) moves = some traffic ∧
      Accounted shim moves.reverse traffic := by
  have hmeets : RunMeets Traffic.step (fun _ _ => True) (.start shim) moves :=
    RunMeets.of_forall (fun _ _ => trivial) _ _
  obtain ⟨traffic, hrun, haccounted⟩ := run_invariant (I := Accounted shim)
    (fun moves => ∀ move ∈ moves, move.Fits)
    (fun _ _ hlegal move hmove => hlegal move (List.mem_cons_of_mem _ hmove))
    (fun past move traffic hlegal h _ => h.step (hlegal move List.mem_cons_self))
    moves [] (.start shim) (by simpa using hfits) (.start shim) hmeets
  exact ⟨traffic, hrun, by simpa using haccounted⟩

end

/-- The packets that come up in a run. -/
def receptions (moves : List Move) : List Reception := moves.filterMap Move.reception

/-- **Deliveries are accounted for.** Whatever comes up, and in whatever order the timers fire, the layer never
stops. Each packet gets one fate; what was sent up and what still waits are together what the fates have
promised, each as often; and what was sent up is a packet that came up, as it was but for its header, and with a
header of the layer's group that is meant for the layer. -/
theorem deliveries_accounted (shim : CommEffectShim) (moves : List Move)
    (hfits : ∀ move ∈ moves, move.Fits) :
    ∃ traffic, runSteps Traffic.step (.start shim) moves = some traffic ∧
      traffic.fates.map Prod.fst = receptions moves ∧
      (∃ deliveries : List Pending, traffic.waiting.map Timer.data = deliveries.map pendingBytes ∧
        (traffic.up ++ deliveries).Perm (traffic.fates.flatMap promised)) ∧
      ∀ delivery ∈ traffic.up, ∃ reception ∈ receptions moves, Passes shim reception delivery := by
  obtain ⟨traffic, hrun, h⟩ := Accounted.run shim hfits
  have hreceptions : traffic.fates.map Prod.fst = receptions moves := by
    rw [h.receptions, List.reverse_reverse]
    rfl
  obtain ⟨deliveries, -, hwaiting, hperm⟩ := h.deliveries
  refine ⟨traffic, hrun, hreceptions, ⟨deliveries, hwaiting, hperm⟩, ?_⟩
  intro delivery hdelivery
  have hpromised : delivery ∈ traffic.fates.flatMap promised :=
    hperm.subset (List.mem_append_left _ hdelivery)
  obtain ⟨entry, hentry, hmem⟩ := List.mem_flatMap.mp hpromised
  refine ⟨entry.1, ?_, h.passes entry hentry delivery hmem⟩
  rw [← hreceptions]
  exact List.mem_map_of_mem hentry

/-- A layer of group 7 that delays every packet by a second. -/
def delaying : CommEffectShim where
  id := 1
  promiscuous := false
  groupId := 7
  filters := [⟨⟨none⟩, ⟨1000000, 0, ⟨0⟩, ⟨0⟩, 0, 0⟩⟩]
  known := ⟨true, ∅⟩
  buffer := .idle
  sequence := 0

/-- A packet from NEM 2 that is sent up twice. -/
def twoCopies : Reception where
  packet := ⟨⟨⟨2, 1, 0⟩, 0, 0⟩, [1, 2, 3]⟩
  messages := [⟨9, [4]⟩, ⟨controlCommEffectHeader, CommEffectHeader.encode ⟨7, 0, 0⟩⟩]
  now := 0
  elapsed := 0
  copies := [(⟨0, true⟩, 5), (⟨0, true⟩, 6)]

theorem deliveries_accounted_twoCopies :
    ((runSteps Traffic.step (.start delaying) [.upstream twoCopies, .timed 1, .timed 0]).map Traffic.up =
      some [⟨twoCopies.packet, [⟨9, [4]⟩], 6⟩, ⟨twoCopies.packet, [⟨9, [4]⟩], 5⟩]) ∧
    ∃ traffic, runSteps Traffic.step (.start delaying) [.upstream twoCopies, .timed 1, .timed 0] =
        some traffic ∧
      traffic.fates.map Prod.fst = receptions [.upstream twoCopies, .timed 1, .timed 0] ∧
      (∃ deliveries : List Pending, traffic.waiting.map Timer.data = deliveries.map pendingBytes ∧
        (traffic.up ++ deliveries).Perm (traffic.fates.flatMap promised)) ∧
      ∀ delivery ∈ traffic.up, ∃ reception ∈ receptions [.upstream twoCopies, .timed 1, .timed 0],
        Passes delaying reception delivery := by
  refine ⟨by decide +kernel, deliveries_accounted delaying _ ?_⟩
  intro move hmove reception hreception
  have heq : reception = twoCopies := by
    simp only [List.mem_cons, List.not_mem_nil, or_false] at hmove
    rcases hmove with rfl | rfl | rfl <;> simp [Move.reception] at hreception
    exact hreception.symm
  rw [heq]
  refine ⟨by decide, ?_⟩
  simp [twoCopies, FfiControlMessage.Fits]

/-! ## Headers on the way -/

/-- The header that `downstream` appends is the one that `upstream` finds. -/
theorem find_header (messages : List FfiControlMessage) (header : FfiControlMessage)
    (hheader : header.msgType = controlCommEffectHeader) :
    (outgoing messages ++ [header]).find? (·.msgType == controlCommEffectHeader) = some header := by
  have hnone : (outgoing messages).find? (·.msgType == controlCommEffectHeader) = none := by
    rw [List.find?_eq_none]
    intro message hmessage
    simpa using List.of_mem_filter hmessage
  rw [List.find?_append, hnone, Option.none_or]
  simp [hheader]

/-- What goes down is admitted by the layers of the same group that it is meant for. -/
theorem checkHeader_downstream (shim other : CommEffectShim) (packet : FfiPacket)
    (messages : List FfiControlMessage) (now : UInt64) :
    other.checkHeader packet (shim.downstream messages now).2 =
      if ¬ other.promiscuous ∧ packet.info.destination ≠ broadcastNem ∧
          packet.info.destination ≠ other.id then .error .destination
      else if shim.groupId ≠ other.groupId then .error .groupId
      else .ok ⟨shim.groupId, shim.sequence, now.toInt64⟩ := by
  unfold CommEffectShim.checkHeader CommEffectShim.downstream
  dsimp only
  rw [find_header _ _ rfl]
  dsimp only
  rw [CommEffectHeader.decode_encode]

theorem outgoing_downstream (shim : CommEffectShim) (messages : List FfiControlMessage) (now : UInt64) :
    outgoing (shim.downstream messages now).2 = outgoing messages := by
  simp [CommEffectShim.downstream, outgoing]

/-- What becomes of what goes down in the layer that receives it. The header is one more control, and with
it there can be more of them than `controls` takes. -/
theorem upstream_downstream (shim other : CommEffectShim) {reception : Reception}
    {messages : List FfiControlMessage} {now : UInt64}
    (hmessages : reception.messages = (shim.downstream messages now).2) :
    ∃ other' fate, other.upstream reception = some (other', fate) ∧
      if 4096 ≤ (outgoing messages).length then fate = .ignored
      else if ¬ other.promiscuous ∧ reception.packet.info.destination ≠ broadcastNem ∧
          reception.packet.info.destination ≠ other.id then fate = .dropped .destination
      else if shim.groupId ≠ other.groupId then fate = .dropped .groupId
      else fate.Admitted := by
  have hlength : reception.messages.length = (outgoing messages).length + 1 := by
    rw [hmessages, CommEffectShim.downstream, List.length_append, List.length_singleton]
  have hchecked := checkHeader_downstream shim other reception.packet messages now
  rw [← hmessages] at hchecked
  obtain ⟨other', fate, hstep, hup⟩ := upstream_cases other reception
  obtain ⟨hignored, hread⟩ := hup.fate_of_checked
  refine ⟨other', fate, hstep, ?_⟩
  by_cases hcount : 4096 ≤ (outgoing messages).length
  · rw [if_pos hcount]
    exact hignored (by omega)
  rw [if_neg hcount]
  obtain ⟨hrefused, hadmitted⟩ := hread (by omega)
  split at hchecked
  next hdestination =>
    rw [if_pos hdestination]
    exact hrefused _ hchecked
  next hdestination =>
  rw [if_neg hdestination]
  split at hchecked
  next hgroup =>
    rw [if_pos hgroup]
    exact hrefused _ hchecked
  next hgroup =>
    rw [if_neg hgroup]
    exact hadmitted _ hchecked

/-- A packet that goes down, with its controls and what the clock shows; `controls` takes up to 4096 of them. -/
def Move.handed : Move → Option (FfiPacket × List FfiControlMessage × UInt64)
  | .downstream packet messages now =>
      if 4096 < messages.length then none else some (packet, messages, now)
  | _ => none

/-- The packets that go down in a run. -/
def handedDown (moves : List Move) : List (FfiPacket × List FfiControlMessage × UInt64) :=
  moves.filterMap Move.handed

/-- The layer when it has sent down `n` packets. -/
def CommEffectShim.after (shim : CommEffectShim) (n : ℕ) : CommEffectShim :=
  { shim with sequence := shim.sequence + UInt32.ofNat n }

/-- What the layer sends down for the packet with the number `n`. -/
def CommEffectShim.numbered (shim : CommEffectShim) (n : ℕ)
    (handed : FfiPacket × List FfiControlMessage × UInt64) : FfiPacket × List FfiControlMessage :=
  (handed.1, ((shim.after n).downstream handed.2.1 handed.2.2).2)

/-- What is known about the packets that went down after some moves, newest first. -/
structure Numbered (shim : CommEffectShim) (past : List Move) (traffic : Traffic) : Prop where
  groupId : traffic.shim.groupId = shim.groupId
  sequence : traffic.shim.sequence = shim.sequence + UInt32.ofNat (handedDown past.reverse).length
  down : traffic.down = (handedDown past.reverse).mapIdx shim.numbered

section

variable {shim : CommEffectShim} {past : List Move} {traffic : Traffic}

theorem handedDown_of_none {move : Move} (hmove : move.handed = none) :
    handedDown (move :: past).reverse = handedDown past.reverse := by
  unfold handedDown
  rw [List.reverse_cons, List.filterMap_append, List.filterMap_cons_none hmove, List.filterMap_nil,
    List.append_nil]

theorem handedDown_of_some {move : Move} {handed : FfiPacket × List FfiControlMessage × UInt64}
    (hmove : move.handed = some handed) :
    handedDown (move :: past).reverse = handedDown past.reverse ++ [handed] := by
  unfold handedDown
  rw [List.reverse_cons, List.filterMap_append, List.filterMap_cons_some hmove, List.filterMap_nil]

/-- A move that sends nothing down. -/
theorem Numbered.other (h : Numbered shim past traffic) {move : Move} (hmove : move.handed = none)
    {traffic' : Traffic} (hgroupId : traffic'.shim.groupId = traffic.shim.groupId)
    (hsequence : traffic'.shim.sequence = traffic.shim.sequence) (hdown : traffic'.down = traffic.down) :
    Numbered shim (move :: past) traffic' where
  groupId := hgroupId.trans h.groupId
  sequence := by
    rw [handedDown_of_none hmove]
    exact hsequence.trans h.sequence
  down := by
    rw [handedDown_of_none hmove]
    exact hdown.trans h.down

/-- A packet goes down with the next number. -/
theorem Numbered.downstream (h : Numbered shim past traffic) {packet : FfiPacket}
    {messages : List FfiControlMessage} {now : UInt64} (hcount : ¬ 4096 < messages.length) :
    Numbered shim (.downstream packet messages now :: past)
      { traffic with
        shim := (traffic.shim.downstream messages now).1
        down := traffic.down ++ [(packet, (traffic.shim.downstream messages now).2)] } := by
  have hmove : (Move.downstream packet messages now).handed = some (packet, messages, now) :=
    if_neg hcount
  have hhanded : handedDown (.downstream packet messages now :: past).reverse =
      handedDown past.reverse ++ [(packet, messages, now)] := handedDown_of_some hmove
  refine ⟨h.groupId, ?_, ?_⟩
  · rw [hhanded, List.length_append, List.length_singleton]
    change traffic.shim.sequence + 1 = _
    rw [h.sequence, UInt32.ofNat_add, UInt32.add_assoc]
    rfl
  · rw [hhanded, List.mapIdx_append, ← h.down]
    simp [CommEffectShim.numbered, CommEffectShim.after, CommEffectShim.downstream, h.groupId, h.sequence]

theorem Numbered.step (h : Numbered shim past traffic) (move : Move) :
    ∃ traffic', traffic.step move = some traffic' ∧ Numbered shim (move :: past) traffic' := by
  cases move with
  | downstream packet messages now =>
      by_cases hcount : 4096 < messages.length
      · exact ⟨traffic, if_pos hcount, h.other (by rw [Move.handed, if_pos hcount]) rfl rfl rfl⟩
      · exact ⟨_, if_neg hcount, h.downstream hcount⟩
  | upstream reception =>
      obtain ⟨shim', fate, hstep, hup⟩ := upstream_cases traffic.shim reception
      refine ⟨traffic.receive reception shim' fate, ?_, ?_⟩
      · rw [Traffic.step, hstep]
        rfl
      · cases hup <;> exact h.other rfl rfl rfl rfl
  | timed index =>
      refine ⟨traffic.timed index, rfl, ?_⟩
      unfold Traffic.timed
      split <;> exact h.other rfl rfl rfl rfl
  | event effects => exact ⟨_, rfl, h.other rfl rfl rfl rfl⟩
  | stop => exact ⟨_, rfl, h.other rfl rfl rfl rfl⟩

end

/-- **The headers of a layer.** In every run the packets that are handed down go down in this order, with their
other controls. The header of the packet with the number `i` has the group of the layer and the number, and every
layer reads it so: it admits the packet if it has the same group and the packet is meant for it. Only when there
are 4096 other controls, the packet has one too many with its header, and the layer ignores it. -/
theorem headers_numbered (shim : CommEffectShim) (moves : List Move) :
    ∃ traffic, runSteps Traffic.step (.start shim) moves = some traffic ∧
      traffic.down.map Prod.fst = (handedDown moves).map Prod.fst ∧
      ∀ i packet call now, (handedDown moves)[i]? = some (packet, call, now) →
        ∃ messages, traffic.down[i]? = some (packet, messages) ∧ outgoing messages = outgoing call ∧
          (∀ other : CommEffectShim, other.checkHeader packet messages =
            if ¬ other.promiscuous ∧ packet.info.destination ≠ broadcastNem ∧
                packet.info.destination ≠ other.id then .error .destination
            else if shim.groupId ≠ other.groupId then .error .groupId
            else .ok ⟨shim.groupId, shim.sequence + UInt32.ofNat i, now.toInt64⟩) ∧
          ∀ (other : CommEffectShim) (reception : Reception), reception.packet = packet →
            reception.messages = messages →
            ∃ other' fate, other.upstream reception = some (other', fate) ∧
              if 4096 ≤ (outgoing call).length then fate = .ignored
              else if ¬ other.promiscuous ∧ packet.info.destination ≠ broadcastNem ∧
                  packet.info.destination ≠ other.id then fate = .dropped .destination
              else if shim.groupId ≠ other.groupId then fate = .dropped .groupId
              else fate.Admitted := by
  have hmeets : RunMeets Traffic.step (fun _ _ => True) (.start shim) moves :=
    RunMeets.of_forall (fun _ _ => trivial) _ _
  obtain ⟨traffic, hrun, h⟩ := run_invariant (I := Numbered shim) (fun _ => True)
    (fun _ _ _ => trivial) (fun _ move _ _ h _ => h.step move) moves [] (.start shim) trivial
    ⟨rfl, by simp [handedDown, Traffic.start], rfl⟩ hmeets
  have hdown : traffic.down = (handedDown moves).mapIdx shim.numbered := by
    simpa using h.down
  refine ⟨traffic, hrun, ?_, ?_⟩
  · rw [hdown]
    apply List.ext_getElem?
    intro i
    rw [List.getElem?_map, List.getElem?_mapIdx, List.getElem?_map, Option.map_map]
    rfl
  · intro i packet call now hhanded
    refine ⟨((shim.after i).downstream call now).2, ?_, outgoing_downstream _ _ _, ?_, ?_⟩
    · rw [hdown, List.getElem?_mapIdx, hhanded]
      rfl
    · intro other
      exact checkHeader_downstream (shim.after i) other packet call now
    · rintro other reception rfl hmessages
      exact upstream_downstream (shim.after i) other hmessages

end Emane.CommEffect
