import Mathlib
import Emane.Tdma.Receive

set_option autoImplicit false

/-! # Integrity of TDMA reassembly

For whole runs of a sender and of a receiver: a packet handed upward for the sender is one of its
numbered packets, whatever is lost, repeated or removed. If every frame arrives once and no entry is
removed, then each packet that was completely transmitted to a destination the receiver takes is
handed upward once (`frames_reassemble`).

Messages for other destinations are dropped, and the 64-bit packet numbers wrap around
(`frames_not_reassembled`).
-/

namespace Emane.Tdma

open Emane.Lib

/-! ## Integrity -/

/-- The events of a receiver that hears `sender`: frames that it sent, or frames of other sources. -/
def Event.From (s : Sender) (sender : UInt16) : Event → Prop
  | .frame sent _ => sent ∈ s.frames
  | .other source _ _ => source ≠ sender
  | .check _ => True
  | .clear => True

/-- The frame of the sender that an event brings. -/
def Event.sent : Event → Option Frame
  | .frame sent _ => some sent
  | .other .. => none
  | .check _ => none
  | .clear => none

/-- The frames of the sender among the events, in their order. -/
def sentFrames (events : List Event) : List Frame := events.filterMap Event.sent

/-- No frame, check or schedule removes an entry in the run. -/
def NothingRemoved (receiver : Receiver) (sender : UInt16) (events : List Event) : Prop :=
  Collector.NothingForgotten (act receiver sender) (remove receiver) (fun _ => none)
    (events.flatMap Event.actions)

/-- All of packet number `k` was sent: its last component was taken from the queue, and all its
components are in frames that were handed to the layer below. -/
def Transmitted (s : Sender) (k : UInt64) : Prop :=
  (∃ c ∈ cutting.partsOf s.taken k, c.more = false) ∧
    ∀ c ∈ cutting.partsOf s.taken k, c ∈ s.frames.flatMap Frame.components

section

variable {s : Sender} {receiver : Receiver} {sender : UInt16} {events : List Event}

theorem actions_from (hinv : s.Inv) (hfrom : ∀ e ∈ events, e.From s sender) :
    ∀ a ∈ events.flatMap Event.actions, a.From s sender := by
  intro a ha
  obtain ⟨event, hevent, ha⟩ := List.mem_flatMap.mp ha
  have hevent := hfrom event hevent
  cases event with
  | frame sent now =>
      rcases List.mem_cons.mp ha with rfl | ha
      · trivial
      · obtain ⟨c, hc, rfl⟩ := List.mem_map.mp ha
        exact hinv.sent.subset (List.mem_flatMap.mpr ⟨sent, hevent, hc⟩)
  | other source wire now =>
      rcases List.mem_cons.mp ha with rfl | ha
      · trivial
      · obtain ⟨message, -, rfl⟩ := List.mem_map.mp ha
        exact hevent
  | check now =>
      rw [List.mem_singleton.mp ha]
      trivial
  | clear =>
      rw [List.mem_singleton.mp ha]
      trivial

theorem filterMap_components (cs : List Component) (now : ℤ) :
    (cs.map (Action.component · now)).filterMap (Action.view receiver) =
      cs.filter fun c => receiver.accepts c.info.destination := by
  induction cs with
  | nil => rfl
  | cons c cs ih =>
      rw [List.map_cons, List.filter_cons]
      split
      · next haccepts =>
          have hview : Action.view receiver (.component c now) = some c := if_pos haccepts
          rw [List.filterMap_cons_some hview, ih]
      · next hrejects =>
          have hview : Action.view receiver (.component c now) = none := if_neg hrejects
          rw [List.filterMap_cons_none hview, ih]

/-- The components the receiver takes are those of the frames with a destination it accepts. -/
theorem filterMap_view (events : List Event) :
    (events.flatMap Event.actions).filterMap (Action.view receiver) =
      ((sentFrames events).flatMap Frame.components).filter
        fun c => receiver.accepts c.info.destination := by
  induction events with
  | nil => rfl
  | cons event events ih =>
      rw [List.flatMap_cons, List.filterMap_append, ih]
      cases event with
      | frame sent now =>
          rw [Event.actions, List.filterMap_cons_none rfl, filterMap_components, ← List.filter_append]
          rfl
      | other source wire now =>
          have hnone : (Event.actions (.other source wire now)).filterMap (Action.view receiver) = [] := by
            rw [List.filterMap_eq_nil_iff]
            intro a ha
            rcases List.mem_cons.mp ha with rfl | ha
            · rfl
            · obtain ⟨message, -, rfl⟩ := List.mem_map.mp ha
              rfl
          rw [hnone]
          rfl
      | check now => rfl
      | clear => rfl

theorem sentFrames_sent (hfrom : ∀ e ∈ events, e.From s sender) :
    ∀ frame ∈ sentFrames events, frame ∈ s.frames := by
  intro frame hframe
  obtain ⟨event, hevent, hsent⟩ := List.mem_filterMap.mp hframe
  have hevent := hfrom event hevent
  cases event with
  | frame sent now => exact Option.some.inj hsent ▸ hevent
  | other source wire now => cases hsent
  | check now => cases hsent
  | clear => cases hsent

/-- If every frame arrives once, then so does every component of a packet. -/
theorem nodup_parts (hinv : s.Inv) (hperm : (sentFrames events).Perm s.frames) {k : UInt64}
    {packet : OwnedPacket} (hpacket : (k, packet) ∈ s.numbered) :
    (((events.flatMap Event.actions).filterMap (Action.view receiver)).filter
      fun c => c.sequence = k).Nodup := by
  obtain ⟨o, hcut⟩ := hinv.cut.allCut _ hpacket
  have hsent : ((s.frames.flatMap Frame.components).filter fun c => c.sequence = k).Nodup :=
    hcut.nodup.sublist (hinv.sent.filter _)
  have harrived := ((hperm.flatMap_right Frame.components).filter fun c => c.sequence = k).nodup_iff.mpr
    hsent
  rw [filterMap_view]
  exact harrived.sublist (List.filter_sublist.filter _)

/-- A packet whose last component was taken from the queue is finished. -/
theorem Transmitted.finished (hinv : s.Inv) {k : UInt64} {packet : OwnedPacket}
    (hpacket : (k, packet) ∈ s.numbered) (h : Transmitted s k) :
    cutting.Finished s.numbered s.taken k := by
  obtain ⟨⟨c, hc, hmore⟩, -⟩ := h
  obtain ⟨o, hcut⟩ := hinv.cut.allCut _ hpacket
  refine ⟨packet, hpacket, List.ne_nil_of_mem hc, ?_⟩
  obtain ⟨n, hn⟩ := List.getElem?_of_mem hc
  obtain ⟨o', size, rfl, hle, -⟩ := hcut.of_getElem? n c hn
  have hnot : ¬ o' + size < packet.payload.length := of_decide_eq_false hmore
  have hend : o = packet.payload.length := by
    have := hcut.offset_le
    change o ≤ packet.payload.length at this
    omega
  exact hend ▸ hcut

end

/-- **Reassembly returns what was enqueued.** For every run of a sender that numbers at most `2 ^ 64`
packets, and all events at a receiver (any loss, duplication, order and timing of the sender's frames,
any frames of other sources, any removal of entries): a packet handed upward for the sender is one of
its packets, byte for byte. If every frame of the sender arrives exactly once and no entry is removed,
then moreover the packets handed upward are those of a list of packet numbers in which each packet
that was completely transmitted, to a destination the receiver takes, occurs exactly once. -/
theorem frames_reassemble (encodedLen : TdmaBaseModelMessage → ℕ) (reaches : ℕ → ℕ → Bool)
    (config : Config) (ops : List Op) (receiver : Receiver) (sender : UInt16) (events : List Event)
    (hcount : ((Sender.fresh config).run encodedLen reaches ops).numbered.length ≤ 2 ^ 64)
    (hfrom : ∀ e ∈ events, e.From ((Sender.fresh config).run encodedLen reaches ops) sender) :
    let s := (Sender.fresh config).run encodedLen reaches ops
    let outputs := (receiverRun receiver sender events).2
    (∀ o ∈ outputs, o.info.source = sender → ∃ e ∈ s.numbered, o = delivered sender e.2) ∧
    (NothingRemoved receiver sender events → (sentFrames events).Perm s.frames →
      ∃ released : List UInt64,
        (outputs.filter fun o => o.info.source == sender) =
          released.map (fun k => delivered sender (packetOf s k)) ∧
        released ⊆ s.numbered.map Prod.fst ∧
        ∀ e ∈ s.numbered, Transmitted s e.1 → receiver.accepts e.2.info.destination = true →
          released.count e.1 = 1) := by
  intro s outputs
  have hinv : s.Inv := Sender.run_inv ops (Sender.fresh_inv config) hcount
  obtain ⟨plan, hplan⟩ := hinv.cut.exists_plan
  have hsim := simulates receiver sender hplan hinv
  have hgood := actions_from hinv hfrom
  -- the components the receiver takes were taken from the queues
  have hmem : ∀ c ∈ (events.flatMap Event.actions).filterMap (Action.view receiver), c ∈ s.taken := by
    intro c hc
    rw [filterMap_view, List.mem_filter, List.mem_flatMap] at hc
    obtain ⟨⟨frame, hframe, hc⟩, -⟩ := hc
    exact hinv.sent.subset (List.mem_flatMap.mpr ⟨frame, sentFrames_sent hfrom frame hframe, hc⟩)
  constructor
  · intro o ho hsource
    have houts := (hsim.forgetting_outputs (remove receiver) (fun _ h => h.forget _)
      storeRepresents_empty (events.flatMap Event.actions) hgood).2
    change o ∈ (receiverRun receiver sender events).2 at ho
    rw [receiverRun_eq_actionRun] at ho
    obtain ⟨c, hc, rfl⟩ := houts o ho (by simpa using hsource)
    obtain ⟨packet, hpacket, -⟩ := hplan.mem_plan hinv.cut (hmem c hc)
    exact ⟨_, hpacket, congrArg (delivered sender) (packetOf_eq hinv hpacket)⟩
  · intro hquiet hperm
    have hrun := hsim.run storeRepresents_empty (events.flatMap Event.actions) hgood
    rw [← hquiet.outputRun_eq, ← actionRun, ← receiverRun_eq_actionRun] at hrun
    refine ⟨_, hrun.2, fun k hk => ?_, fun e he htransmitted haccepts => ?_⟩
    · obtain ⟨c, hc, rfl⟩ := hplan.collector.owner_of_mem_outputs hk
      exact hinv.cut.known c (hmem c hc)
    -- the parts of a packet that was transmitted are its components, and they all arrive
    have hwhole : hplan.collector.whole e.1 = (cutting.partsOf s.taken e.1).toFinset :=
      congrArg List.toFinset (hplan.done e.1 (htransmitted.finished hinv he))
    have hne : hplan.collector.whole e.1 ≠ ∅ := by
      obtain ⟨⟨c, hc, -⟩, -⟩ := htransmitted
      rw [hwhole]
      exact Finset.ne_empty_of_mem (List.mem_toFinset.mpr hc)
    have harrived : hplan.collector.Arrived
        ((events.flatMap Event.actions).filterMap (Action.view receiver)) e.1 := by
      intro c hc
      have hplanned : c ∈ plan e.1 := List.mem_toFinset.mp hc
      rw [hwhole, List.mem_toFinset] at hc
      rw [filterMap_view, List.mem_filter, (component_eq (hplan.cut e he) hplanned).2.1]
      refine ⟨(hperm.flatMap_right Frame.components).mem_iff.mpr (htransmitted.2 c hc), haccepts⟩
    have hparts : ∀ c ∈ (events.flatMap Event.actions).filterMap (Action.view receiver),
        c ∈ hplan.collector.whole (hplan.collector.owner c) := by
      intro c hc
      obtain ⟨packet, -, hin⟩ := hplan.mem_plan hinv.cut (hmem c hc)
      exact List.mem_toFinset.mpr hin
    have hnone := hplan.collector.noneAfter_of_nodup hparts (nodup_parts hinv hperm he)
    exact ((hplan.collector.count_outputs hne _ hparts hnone).1 harrived).2

/-! ## Frames within one timeout -/

/-- Every entry was updated at `t` or later. -/
def UpdatedSince (t : ℤ) (store : Store) : Prop :=
  ∀ key entry, store key = some entry → t ≤ entry.lastUpdateUs

section

variable {t now : ℤ} {store : Store} {receiver : Receiver} {sender : UInt16}

theorem UpdatedSince.update (h : UpdatedSince t store) (key : UInt16 × UInt8 × UInt64)
    {slot : Option Reassembly} (hslot : ∀ entry, slot = some entry → t ≤ entry.lastUpdateUs) :
    UpdatedSince t (Function.update store key slot) := by
  intro key' entry hentry
  by_cases hkey : key' = key
  · subst hkey
    rw [Function.update_self] at hentry
    exact hslot entry hentry
  · rw [Function.update_of_ne hkey] at hentry
    exact h key' entry hentry

theorem UpdatedSince.receiveMessage (h : UpdatedSince t store) (hnow : t ≤ now) (source : UInt16)
    (message : TdmaMessage) : UpdatedSince t (receiveMessage receiver store source message now).1 := by
  unfold Tdma.receiveMessage
  split
  · exact h
  split
  · dsimp only
    split
    · split
      · unfold addFragment
        split
        · exact h
        · unfold Reassembly.settle
          dsimp only
          split
          · exact h.update _ (by simp)
          · exact h.update _ fun entry hentry => Option.some.inj hentry ▸ hnow
      · exact h
    · exact h
  · exact h

/-- An entry that is younger than the timeout stays. -/
theorem UpdatedSince.expire (h : UpdatedSince t store) {timeout : ℤ} (hnow : now < t + timeout) :
    expireReassembly timeout now store = store := by
  funext key
  cases hentry : store key with
  | none => simp [expireReassembly, hentry]
  | some entry =>
      have htime := h key entry hentry
      simp only [expireReassembly, hentry]
      exact Option.filter_eq_some_iff.mpr ⟨rfl, by simp; omega⟩

/-- Whether an action is within one timeout after `t`, and no schedule clears the entries. -/
def Action.Within (t timeout : ℤ) : Action → Prop
  | .component _ now => t ≤ now
  | .message _ _ now => t ≤ now
  | .expire now => now < t + timeout
  | .clear => False

/-- **Events within one timeout remove nothing.** -/
theorem nothingRemoved_of_within {events : List Event}
    (h : ∀ a ∈ events.flatMap Event.actions, a.Within t receiver.fragmentTimeoutUs) :
    NothingRemoved receiver sender events := by
  refine Collector.nothingForgotten_of_invariant (P := UpdatedSince t) (by simp [UpdatedSince]) ?_ ?_
  · intro store a ha hstore
    have hwithin := h a ha
    cases a with
    | component component now => exact hstore.receiveMessage hwithin _ _
    | message source message now => exact hstore.receiveMessage hwithin _ _
    | expire now => exact hstore
    | clear => exact hstore
  · intro store a ha hstore
    have hwithin := h a ha
    cases a with
    | component component now => rfl
    | message source message now => rfl
    | expire now => exact hstore.expire hwithin
    | clear => exact absurd hwithin id

end

/-! ## A sender with slots for one byte -/

/-- The two frames of a packet arrive in the other order. -/
theorem frames_reassemble_swapped :
    let s := byteRun (twoBytes 2)
    let receiver : Receiver := ⟨2, false, 100⟩
    let events := [Event.frame (byteFrame 1 2 [1, 2] 1 1 1) 20, Event.frame (byteFrame 0 2 [1, 2] 1 0 0) 30]
    (∀ o ∈ (receiverRun receiver 1 events).2, o.info.source = 1 →
      ∃ e ∈ s.numbered, o = delivered 1 e.2) ∧
    ∃ released : List UInt64,
      ((receiverRun receiver 1 events).2.filter fun o => o.info.source == 1) =
        released.map (fun k => delivered 1 (packetOf s k)) ∧ released.count 1 = 1 := by
  intro s receiver events
  have hframes : s.frames = [byteFrame 0 2 [1, 2] 1 0 0, byteFrame 1 2 [1, 2] 1 1 1] := by
    decide +kernel
  have hnumbered : s.numbered = [(1, ⟨⟨1, 2, 0⟩, [1, 2]⟩)] := by decide +kernel
  have htaken : s.taken = [cutting.piece 1 ⟨⟨1, 2, 0⟩, [1, 2]⟩ 0 0 1,
      cutting.piece 1 ⟨⟨1, 2, 0⟩, [1, 2]⟩ 1 1 1] := by
    decide +kernel
  obtain ⟨hpayload, hreleased⟩ := frames_reassemble TdmaBaseModelMessage.encodedLen (fun _ _ => false)
    byteConfig (twoBytes 2) receiver 1 events
    (by change s.numbered.length ≤ _; rw [hnumbered]; decide)
    (by
      change ∀ e ∈ events, e.From s 1
      simp [events, Event.From, hframes])
  have hwithin : ∀ a ∈ events.flatMap Event.actions, a.Within 20 receiver.fragmentTimeoutUs := by
    simp [events, Event.actions, Action.Within, byteFrame, receiver]
  have hperm : (sentFrames events).Perm s.frames := by
    rw [hframes]
    exact List.Perm.swap _ _ _
  obtain ⟨released, heq, -, hcount⟩ := hreleased (nothingRemoved_of_within hwithin) hperm
  refine ⟨hpayload, released, heq, hcount (1, ⟨⟨1, 2, 0⟩, [1, 2]⟩) ?_ ?_ (by decide)⟩
  · change _ ∈ s.numbered
    rw [hnumbered]
    simp
  · change Transmitted s 1
    unfold Transmitted
    rw [htaken, hframes]
    decide

/-! ## Destinations and numbers that wrap around -/

/-- A packet of two bytes of which one is sent, `rounds` packets of one byte that push each other out
of the queue, and another packet of two bytes. -/
def wrapOps (rounds : ℕ) : List Op :=
  [.schedule byteSchedule, .downstream ⟨1, 2, 0⟩ [1, 2], .transmit 0 0] ++
    List.replicate rounds (.downstream ⟨1, 2, 0⟩ [0]) ++
    [.downstream ⟨1, 2, 0⟩ [3, 4], .transmit 1 10, .transmit 2 20]

/-- The sender's state when its queue is full. -/
def full (n : UInt64) (queued : QueuedPacket) : State :=
  { (Sender.fresh byteConfig).state with
    schedule := some byteSchedule
    sequence := n
    frameSequence := 1
    queues := Function.update (fun _ => []) (priorityToQueue 0) [queued] }

/-- A new packet takes the place of the one in the full queue. -/
theorem downstream_full (n : UInt64) (queued : QueuedPacket) (payload : Bytes) :
    downstream (full n queued) ⟨⟨1, 2, 0⟩, payload⟩ =
      ⟨full (n + 1) ⟨⟨⟨1, 2, 0⟩, payload⟩, n + 1, 0, 0⟩, .ok (n + 1), [queued]⟩ := by
  have hindex : priorityToQueue 0 = 0 := rfl
  have hposition : dropPosition [queued] = 0 := by
    unfold dropPosition
    cases hzero : queued.fragmentIndex == 0 <;> simp [hzero]
  simp [downstream, makeRoom, full, Sender.fresh, byteConfig, hindex, hposition, State.removeAt,
    State.returnToken, pushBack]

/-- The numbers go on by one in each round, and the packets of the rounds have one byte. -/
theorem run_rounds (rounds : ℕ) (n : UInt64) (queued : QueuedPacket) (s : Sender)
    (hstate : s.state = full n queued) :
    ∃ last more dropped, s.run TdmaBaseModelMessage.encodedLen (fun _ _ => false)
        (List.replicate rounds (.downstream ⟨1, 2, 0⟩ [0])) =
        { s with
          state := full (n + UInt64.ofNat rounds) last
          numbered := s.numbered ++ more
          dropped := dropped } ∧
      ∀ e ∈ more, e.2.payload = [0] := by
  induction rounds generalizing n queued s with
  | zero =>
      refine ⟨queued, [], s.dropped, ?_, by simp⟩
      simp [Sender.run, ← hstate]
  | succ rounds ih =>
      have hown : ownPacket ⟨1, 2, 0⟩ [0] = some ⟨⟨1, 2, 0⟩, [0]⟩ := rfl
      obtain ⟨last, more, dropped, hrun, hmore⟩ := ih (n + 1) ⟨⟨⟨1, 2, 0⟩, [0]⟩, n + 1, 0, 0⟩
        (s.step TdmaBaseModelMessage.encodedLen (fun _ _ => false) (.downstream ⟨1, 2, 0⟩ [0]))
        (by simp [Sender.step, hown, hstate, downstream_full])
      refine ⟨last, (n + 1, ⟨⟨1, 2, 0⟩, [0]⟩) :: more, dropped, ?_, ?_⟩
      · rw [List.replicate_succ, Sender.run, List.foldl_cons, ← Sender.run, hrun]
        have hnext : n + 1 + UInt64.ofNat rounds = n + UInt64.ofNat (rounds + 1) := by
          rw [UInt64.ofNat_add, add_assoc, add_comm 1]
          rfl
        simp [Sender.step, hown, hstate, downstream_full, hnext, Except.toOption]
      · intro e he
        rcases List.mem_cons.mp he with rfl | he
        · rfl
        · exact hmore e he

/-- What the sender has sent and numbered after the rounds. -/
theorem wrapOps_run (rounds : ℕ) (hrounds : UInt64.ofNat rounds = UInt64.ofNat (2 ^ 64 - 1)) :
    ∃ more, (byteRun (wrapOps rounds)).numbered =
        (1, ⟨⟨1, 2, 0⟩, [1, 2]⟩) :: (more ++ [(1, ⟨⟨1, 2, 0⟩, [3, 4]⟩)]) ∧
      (∀ e ∈ more, e.2.payload = [0]) ∧
      (byteRun (wrapOps rounds)).frames =
        [byteFrame 0 2 [1, 2] 1 0 0, byteFrame 1 2 [3, 4] 1 0 1, byteFrame 2 2 [3, 4] 1 1 2] := by
  -- the sender when the rounds begin
  let start := byteRun [.schedule byteSchedule, .downstream ⟨1, 2, 0⟩ [1, 2], .transmit 0 0]
  have hstate : start.state = full 1 ⟨⟨⟨1, 2, 0⟩, [1, 2]⟩, 1, 1, 1⟩ := by
    apply State.ext <;> decide +kernel
  have hnumbered : start.numbered = [(1, ⟨⟨1, 2, 0⟩, [1, 2]⟩)] := by decide +kernel
  have hframes : start.frames = [byteFrame 0 2 [1, 2] 1 0 0] := by decide +kernel
  obtain ⟨last, more, dropped, hrun, hmore⟩ := run_rounds rounds 1 _ start hstate
  have hzero : 1 + UInt64.ofNat rounds = 0 := by
    rw [hrounds]
    decide
  have hown : ownPacket ⟨1, 2, 0⟩ [3, 4] = some ⟨⟨1, 2, 0⟩, [3, 4]⟩ := rfl
  have hsplit : byteRun (wrapOps rounds) = (start.run TdmaBaseModelMessage.encodedLen
      (fun _ _ => false) (List.replicate rounds (.downstream ⟨1, 2, 0⟩ [0]))).run
      TdmaBaseModelMessage.encodedLen (fun _ _ => false)
      [.downstream ⟨1, 2, 0⟩ [3, 4], .transmit 1 10, .transmit 2 20] := by
    unfold start byteRun wrapOps Sender.run
    rw [List.foldl_append, List.foldl_append]
  have hfirst : (transmitSlot TdmaBaseModelMessage.encodedLen (fun _ _ => false)
      (full 1 ⟨⟨⟨1, 2, 0⟩, [3, 4]⟩, 1, 0, 0⟩) 1 10).frame = some (byteFrame 1 2 [3, 4] 1 0 1) := by
    decide +kernel
  have hsecond : (transmitSlot TdmaBaseModelMessage.encodedLen (fun _ _ => false)
      (transmitSlot TdmaBaseModelMessage.encodedLen (fun _ _ => false)
        (full 1 ⟨⟨⟨1, 2, 0⟩, [3, 4]⟩, 1, 0, 0⟩) 1 10).state 2 20).frame =
      some (byteFrame 2 2 [3, 4] 1 1 2) := by
    decide +kernel
  rw [hsplit, hrun, hnumbered, hframes, hzero]
  refine ⟨more, ?_, hmore, ?_⟩
  · simp [Sender.run, Sender.step, hown, downstream_full, Except.toOption]
  · simp [Sender.run, Sender.step, hown, downstream_full, hfirst, hsecond]

/-- **A packet for another destination is not handed upward**, although its frames arrive once each.
**After `2 ^ 64` packets the numbers start again**, and fragments of two packets with one number are
joined to a payload that was never enqueued. -/
theorem frames_not_reassembled :
    let receiver : Receiver := ⟨2, false, 100⟩
    let events := [Event.frame (byteFrame 0 7 [1, 2] 1 0 0) 20, Event.frame (byteFrame 1 7 [1, 2] 1 1 1) 30]
    let wrapped := [Event.frame (byteFrame 0 2 [1, 2] 1 0 0) 20, Event.frame (byteFrame 2 2 [3, 4] 1 1 2) 30]
    (sentFrames events = (byteRun (twoBytes 7)).frames ∧ Transmitted (byteRun (twoBytes 7)) 1 ∧
      NothingRemoved receiver 1 events ∧ (receiverRun receiver 1 events).2 = []) ∧
    (∀ e ∈ wrapped, e.From (byteRun (wrapOps (2 ^ 64 - 1))) 1) ∧
      (receiverRun receiver 1 wrapped).2 = [⟨⟨1, 2, 0⟩, [1, 4]⟩] ∧
      ∀ e ∈ (byteRun (wrapOps (2 ^ 64 - 1))).numbered, e.2.payload ≠ [1, 4] := by
  intro receiver events wrapped
  have hframes : (byteRun (twoBytes 7)).frames =
      [byteFrame 0 7 [1, 2] 1 0 0, byteFrame 1 7 [1, 2] 1 1 1] := by
    decide +kernel
  have htaken : (byteRun (twoBytes 7)).taken = [cutting.piece 1 ⟨⟨1, 7, 0⟩, [1, 2]⟩ 0 0 1,
      cutting.piece 1 ⟨⟨1, 7, 0⟩, [1, 2]⟩ 1 1 1] := by
    decide +kernel
  obtain ⟨more, hnumbered, hmore, hsent⟩ := wrapOps_run (2 ^ 64 - 1) rfl
  refine ⟨⟨hframes.symm, ?_, ?_, by decide +kernel⟩, ?_, by decide +kernel, ?_⟩
  · unfold Transmitted
    rw [htaken, hframes]
    decide
  · refine nothingRemoved_of_within (t := 20) ?_
    simp [events, Event.actions, Action.Within, byteFrame, receiver]
  · have hmem : ∀ f ∈ [byteFrame 0 2 [1, 2] 1 0 0, byteFrame 2 2 [3, 4] 1 1 2],
        f ∈ (byteRun (wrapOps (2 ^ 64 - 1))).frames := by
      rw [hsent]
      simp
    simpa [wrapped, Event.From] using hmem
  · rw [hnumbered]
    intro e he
    simp only [List.mem_cons, List.mem_append, List.not_mem_nil, or_false] at he
    rcases he with rfl | he | rfl
    · decide
    · rw [hmore e he]
      decide
    · decide

end Emane.Tdma
