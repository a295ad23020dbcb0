import Mathlib
import Emane.BentPipe.Reassembly

set_option autoImplicit false

/-! # Integrity of BentPipe reassembly

The removal of stale entries makes the collector that a receiver simulates forget packets, and
nothing else. So, for whole runs of a sender and of a receiver, a completed packet is one that was
enqueued, and a packet whose components all arrive is completed once (`reassembly_integrity`).

The packet numbers have 64 bits and wrap around: `reassembly_joins_wrapped` is a run of `2 ^ 64 + 1`
packets in which the fragments of two packets are joined.
-/

namespace Emane.BentPipe

open Emane.Lib

section

variable {s : Sender} {plan : UInt64 → List TxComponent} {sender : UInt16} {store : Store}
  {received : UInt64 → Finset TxComponent}

/-! ## Stale entries -/

/-- The time at which an arrival makes the receiver look for stale entries. -/
def Arrival.expiresAt : Arrival → Option ℤ
  | .sent component now => if component.fragmented then some now else none
  | .other _ component now =>
      if component.destination < 65536 ∧ component.fragment.isSome then some now else none
  | .check now => some now

/-- An arrival first removes stale entries, if it does, and then acts on the rest. -/
theorem receive_expire (expire : ℤ → Store → Store) (store : Store) (a : Arrival) :
    receive expire sender store a =
      receive quiet sender ((a.expiresAt.map fun now => expire now store).getD store) a := by
  cases a with
  | sent component now =>
      have hlt : (wireComponent component).destination < 65536 :=
        component.packet.info.destination.toNat_lt
      simp only [receive, upstreamComponent, if_pos hlt, Arrival.expiresAt, quiet]
      by_cases hfrag : component.fragmented = true
      · simp [wireComponent, hfrag]
      · simp [wireComponent, hfrag]
  | other source component now =>
      simp only [receive, upstreamComponent, Arrival.expiresAt, quiet]
      by_cases hlt : component.destination < 65536
      · cases component.fragment <;> simp [hlt]
      · simp [hlt]
  | check now => rfl

/-- Removing stale entries makes the collector forget what it has received of some packets. -/
theorem StoreRepresents.expire (h : StoreRepresents s plan sender store received) (timeout now : ℤ) :
    ∃ received', StoreRepresents s plan sender (expireReassembly timeout now store) received' := by
  classical
  refine ⟨fun k => if (expireReassembly timeout now store (sender, k)).isNone then ∅ else received k,
    ⟨fun e he hne => ?_, fun key entry hentry => ?_⟩⟩
  · have hshows := h.shows e he hne
    cases hslot : expireReassembly timeout now store (sender, e.1) with
    | none => simpa using shows_none hne
    | some entry =>
        have hold : store (sender, e.1) = some entry :=
          (Option.filter_eq_some_iff.mp hslot).1
        simpa [hold] using hshows
  · exact h.source key entry (Option.filter_eq_some_iff.mp hentry).1

/-! ## Runs -/

/-- The run of a receiver with an empty store. -/
def receiverRun (timeout : ℤ) (sender : UInt16) (arrivals : List Arrival) :
    Store × List OwnedPacket :=
  Collector.outputRun (receive (expireReassembly timeout) sender) (fun _ => none) arrivals

/-- No entry is removed as stale in the run. -/
def NoTimeout (timeout : ℤ) (sender : UInt16) (arrivals : List Arrival) : Prop :=
  ∀ before a after now, arrivals = before ++ a :: after → a.expiresAt = some now →
    expireReassembly timeout now (receiverRun timeout sender before).1 =
      (receiverRun timeout sender before).1

theorem storeRepresents_empty : StoreRepresents s plan sender (fun _ => none) (fun _ => ∅) where
  shows _ _ hne := shows_none hne
  source := by simp

/-- One arrival keeps the store representing a state of the collector, and a packet of the sender
that it completes is one of its numbered packets. -/
theorem receive_quiet_spec (hplan : Plan s plan) (hinv : s.Inv) {a : Arrival}
    (hfrom : a.From s sender) (h : StoreRepresents s plan sender store received) :
    (∃ received', StoreRepresents s plan sender (receive quiet sender store a).1 received') ∧
      ∀ o ∈ (receive quiet sender store a).2, o.info.source = sender →
        ∃ e ∈ s.enqueued, o = completion s sender e.1 := by
  have hsim := simulates sender hplan hinv
  cases hview : a.view with
  | none =>
      obtain ⟨hrep, hout⟩ := hsim.other hfrom hview h
      exact ⟨⟨_, hrep⟩, fun o ho hsource => absurd hsource (by simpa using hout o ho)⟩
  | some c =>
      obtain ⟨hrep, hout⟩ := hsim.part hfrom hview h
      refine ⟨⟨_, hrep⟩, fun o ho _ => ?_⟩
      rw [hout, Option.mem_map] at ho
      obtain ⟨k, hk, rfl⟩ := ho
      have hc : c ∈ s.produced := by
        cases a with
        | sent component now =>
            cases hview
            exact hfrom
        | other source component now => cases hview
        | check now => cases hview
      obtain ⟨packet, he, -⟩ := hplan.mem_plan hinv hc
      exact ⟨_, he, by rw [hplan.collector.eq_owner_of_arrive hk]; rfl⟩

/-- A whole run completes only numbered packets of the sender. -/
theorem receiverRun_integrity (hplan : Plan s plan) (hinv : s.Inv) (timeout : ℤ)
    (arrivals : List Arrival) (hfrom : ∀ a ∈ arrivals, a.From s sender) :
    (∃ received, StoreRepresents s plan sender (receiverRun timeout sender arrivals).1 received) ∧
      ∀ o ∈ (receiverRun timeout sender arrivals).2, o.info.source = sender →
        ∃ e ∈ s.enqueued, o = completion s sender e.1 := by
  induction arrivals using List.reverseRecOn with
  | nil => exact ⟨⟨_, storeRepresents_empty⟩, by simp [receiverRun, Collector.outputRun]⟩
  | append_singleton arrivals a ih =>
      obtain ⟨⟨received, hrep⟩, houts⟩ := ih fun b hb => hfrom b (by simp [hb])
      have hexpired : ∃ received', StoreRepresents s plan sender
          ((a.expiresAt.map fun now =>
            expireReassembly timeout now (receiverRun timeout sender arrivals).1).getD
              (receiverRun timeout sender arrivals).1) received' := by
        cases a.expiresAt with
        | none => exact ⟨received, hrep⟩
        | some now => exact hrep.expire timeout now
      obtain ⟨received', hrep'⟩ := hexpired
      have hstep := receive_quiet_spec hplan hinv (hfrom a (by simp)) hrep'
      rw [← receive_expire] at hstep
      rw [receiverRun, Collector.outputRun_concat]
      refine ⟨hstep.1, fun o ho hsource => ?_⟩
      rcases List.mem_append.mp ho with ho | ho
      · exact houts o ho hsource
      · exact hstep.2 o (by simpa [receiverRun] using ho) hsource

/-- Without timeouts the run is that of a receiver that never removes entries. -/
theorem receiverRun_quiet {timeout : ℤ} {arrivals : List Arrival}
    (h : NoTimeout timeout sender arrivals) :
    receiverRun timeout sender arrivals =
      Collector.outputRun (receive quiet sender) (fun _ => none) arrivals := by
  induction arrivals using List.reverseRecOn with
  | nil => rfl
  | append_singleton arrivals a ih =>
      have hbefore : NoTimeout timeout sender arrivals := by
        intro before b after now heq
        exact h before b (after ++ [a]) now (by rw [heq]; simp)
      have hstep : receive (expireReassembly timeout) sender (receiverRun timeout sender arrivals).1 a =
          receive quiet sender (receiverRun timeout sender arrivals).1 a := by
        rw [receive_expire]
        cases hexpires : a.expiresAt with
        | none => rfl
        | some now =>
            have hkeep := h arrivals a [] now rfl hexpires
            simp only [Option.map_some, Option.getD_some, hkeep]
      rw [receiverRun, Collector.outputRun_concat, Collector.outputRun_concat, ← ih hbefore,
        ← receiverRun, Collector.outputStep, Collector.outputStep, hstep]

/-! ## Entries that cannot become stale -/

/-- The time of an arrival. -/
def Arrival.time : Arrival → ℤ
  | .sent _ now => now
  | .other _ _ now => now
  | .check now => now

theorem Arrival.time_eq_of_expiresAt {a : Arrival} {now : ℤ} (h : a.expiresAt = some now) :
    a.time = now := by
  cases a with
  | sent component t =>
      rw [expiresAt] at h
      split at h
      · exact Option.some.inj h
      · cases h
  | other source component t =>
      rw [expiresAt] at h
      split at h
      · exact Option.some.inj h
      · cases h
  | check t => exact Option.some.inj h

/-- Every entry was updated at `t` or later. -/
def UpdatedSince (t : ℤ) (store : Store) : Prop :=
  ∀ key entry, store key = some entry → t ≤ entry.lastUpdate

theorem UpdatedSince.update {t : ℤ} (h : UpdatedSince t store) (key : UInt16 × UInt64)
    {slot : Option Reassembly} (hslot : ∀ entry, slot = some entry → t ≤ entry.lastUpdate) :
    UpdatedSince t (Function.update store key slot) := by
  intro key' entry hentry
  by_cases hkey : key' = key
  · subst hkey
    rw [Function.update_self] at hentry
    exact hslot entry hentry
  · rw [Function.update_of_ne hkey] at hentry
    exact h key' entry hentry

theorem UpdatedSince.expire {t : ℤ} (h : UpdatedSince t store) (timeout now : ℤ) :
    UpdatedSince t (expireReassembly timeout now store) :=
  fun key entry hentry => h key entry (Option.filter_eq_some_iff.mp hentry).1

theorem UpdatedSince.addFragment {t now : ℤ} (h : UpdatedSince t store) (hnow : t ≤ now)
    (source destination : UInt16) (fragment : BentPipeFragment) (data : Bytes) :
    UpdatedSince t (addFragment store source destination fragment data now).1 := by
  obtain ⟨entry, hentry, htime⟩ : ∃ entry, (store (source, fragment.sequence)).getD
      { info := ⟨source, destination⟩, destination := destination, parts := ∅
        lastFragmentIndex := none, lastUpdate := now } = entry ∧ t ≤ entry.lastUpdate := by
    cases hslot : store (source, fragment.sequence) with
    | some entry => exact ⟨entry, rfl, h _ entry hslot⟩
    | none => exact ⟨_, rfl, hnow⟩
  unfold BentPipe.addFragment
  simp only [hentry]
  split
  · exact h.update _ fun _ heq => Option.some.inj heq ▸ htime
  split
  · exact h.update _ (by simp)
  · exact h.update _ fun _ heq => Option.some.inj heq ▸ hnow

theorem UpdatedSince.receive {t timeout : ℤ} (h : UpdatedSince t store) {a : Arrival}
    (ha : t ≤ a.time) : UpdatedSince t (receive (expireReassembly timeout) sender store a).1 := by
  have hcomponent : ∀ source component now, t ≤ now → UpdatedSince t
      (upstreamComponent (expireReassembly timeout) store source component now).1 := by
    intro source component now hnow
    unfold upstreamComponent
    split
    · dsimp only
      split
      · exact (h.expire timeout now).addFragment hnow _ _ _ _
      · exact h
    · exact h
  cases a with
  | sent component now => exact hcomponent _ _ _ ha
  | other source component now => exact hcomponent _ _ _ ha
  | check now => exact h.expire timeout now

/-- **Arrivals within one timeout remove nothing.** -/
theorem noTimeout_of_window {t timeout : ℤ} {arrivals : List Arrival}
    (h : ∀ a ∈ arrivals, t ≤ a.time ∧ a.time < t + timeout) : NoTimeout timeout sender arrivals := by
  have hsince : ∀ before, (∀ a ∈ before, t ≤ a.time) →
      UpdatedSince t (receiverRun timeout sender before).1 := by
    intro before
    induction before using List.reverseRecOn with
    | nil => exact fun _ _ _ hentry => absurd hentry (by simp [receiverRun, Collector.outputRun])
    | append_singleton before a ih =>
        intro htimes
        rw [receiverRun, Collector.outputRun_concat]
        exact (ih fun b hb => htimes b (by simp [hb])).receive (htimes a (by simp))
  intro before a after now heq hnow
  subst heq
  have hupdated := hsince before fun b hb => (h b (by simp [hb])).1
  have hwindow := (h a (by simp)).2
  rw [Arrival.time_eq_of_expiresAt hnow] at hwindow
  funext key
  cases hentry : (receiverRun timeout sender before).1 key with
  | none => simp [expireReassembly, hentry]
  | some entry =>
      have htime := hupdated key entry hentry
      simp only [expireReassembly, hentry]
      exact Option.filter_eq_some_iff.mpr ⟨rfl, by simp; omega⟩

end

/-! ## Integrity -/

/-- All of packet number `k` was handed out. -/
def Transmitted (s : Sender) (k : UInt64) : Prop := ∃ c ∈ partsOf s.produced k, c.more = false

/-- The components of the sender among the arrivals, in their order. -/
def sentComponents (arrivals : List Arrival) : List TxComponent := arrivals.filterMap Arrival.view

/-- All components of packet number `k` are among `cs`. -/
def AllArrived (s : Sender) (k : UInt64) (cs : List TxComponent) : Prop :=
  ∀ c ∈ partsOf s.produced k, c ∈ cs

/-- A packet is not complete before an arrival of it, if a component of it is missing until its last
arrival. -/
theorem not_allArrived_of_late {s : Sender} {k : UInt64} {cs : List TxComponent}
    (pre : List TxComponent) (d : TxComponent) (post : List TxComponent) (heq : cs = pre ++ d :: post) (hd : d ∈ partsOf s.produced k) (hpre : d ∉ pre)
    (hpost : ∀ c ∈ post, c.sequence ≠ k) (before : List TxComponent) (c : TxComponent)
    (after : List TxComponent) (hsplit : cs = before ++ c :: after) (hc : c.sequence = k) :
    ¬ AllArrived s k before := by
  intro harrived
  have hbefore := harrived d hd
  rw [heq] at hsplit
  rcases List.append_eq_append_iff.mp hsplit with ⟨mid, hmid, htail⟩ | ⟨mid, hmid, -⟩
  · cases mid with
    | nil =>
        rw [hmid, List.append_nil] at hbefore
        exact hpre hbefore
    | cons x mid =>
        refine hpost c ?_ hc
        rw [(List.cons.inj htail).2]
        simp
  · rw [hmid] at hpre
    exact hpre (List.mem_append_left _ hbefore)

/-- **Reassembly returns what was enqueued.** For every run of a sender that numbers at most `2 ^ 64`
packets, and all arrivals at a receiver (any loss, duplication, order and timing of the sender's
components, any traffic of other sources): a packet the receiver completes for the sender is an
enqueued packet, byte for byte. If no entry is removed as stale, then moreover the completed packets
are those of a list of packet numbers in which a packet whose components were all handed out and all
arrive, none of them after the others were complete, occurs exactly once. -/
theorem reassembly_integrity (transponders : UInt16 → Option Transponder) (queueDepth : ℕ)
    (aggregationEnable fragmentationEnable : Bool) (ops : List Op) (sender : UInt16) (timeout : ℤ)
    (arrivals : List Arrival)
    (hcount : ((Sender.fresh transponders queueDepth aggregationEnable fragmentationEnable).run
      ops).enqueued.length ≤ 2 ^ 64)
    (hfrom : ∀ a ∈ arrivals, a.From
      ((Sender.fresh transponders queueDepth aggregationEnable fragmentationEnable).run ops) sender) :
    let s := (Sender.fresh transponders queueDepth aggregationEnable fragmentationEnable).run ops
    let outputs := (receiverRun timeout sender arrivals).2
    (∀ o ∈ outputs, o.info.source = sender → ∃ e ∈ s.enqueued, o.payload = e.2.payload) ∧
    (NoTimeout timeout sender arrivals → ∃ released : List UInt64,
      (outputs.filter fun o => o.info.source == sender) = released.map (completion s sender) ∧
      released ⊆ s.enqueued.map Prod.fst ∧
      ∀ e ∈ s.enqueued, Transmitted s e.1 → AllArrived s e.1 (sentComponents arrivals) →
        (∀ before c after, sentComponents arrivals = before ++ c :: after → c.sequence = e.1 →
          ¬ AllArrived s e.1 before) → released.count e.1 = 1) := by
  intro s outputs
  have hinv : s.Inv := Sender.run_inv ops (Sender.fresh_inv ..) hcount
  obtain ⟨plan, hplan⟩ := exists_plan hinv
  constructor
  · intro o ho hsource
    obtain ⟨e, he, rfl⟩ := (receiverRun_integrity hplan hinv timeout arrivals hfrom).2 o ho hsource
    exact ⟨e, he, by rw [completion, packetOf_eq hinv he]⟩
  · intro hquiet
    have hrun := (simulates sender hplan hinv).run storeRepresents_empty arrivals hfrom
    rw [← receiverRun_quiet hquiet] at hrun
    have hmem : ∀ c ∈ arrivals.filterMap Arrival.view, c ∈ s.produced := by
      intro c hc
      obtain ⟨a, ha, hview⟩ := List.mem_filterMap.mp hc
      cases a with
      | sent component now =>
          cases hview
          exact hfrom _ ha
      | other source component now => cases hview
      | check now => cases hview
    refine ⟨_, hrun.2, fun k hk => ?_, fun e he hsent harrived hafter => ?_⟩
    · obtain ⟨c, hc, rfl⟩ := hplan.collector.owner_of_mem_outputs hk
      exact hinv.known c (hmem c hc)
    -- the parts of a packet that was handed out are its components
    have hwhole : hplan.collector.whole e.1 = (partsOf s.produced e.1).toFinset :=
      congrArg List.toFinset (hplan.done e he hsent)
    have hiff : ∀ cs, hplan.collector.Arrived cs e.1 ↔ AllArrived s e.1 cs := by
      intro cs
      unfold Collector.Arrived AllArrived
      rw [hwhole]
      simp
    have hne : hplan.collector.whole e.1 ≠ ∅ := by
      obtain ⟨c, hc, -⟩ := hsent
      rw [hwhole]
      exact Finset.ne_empty_of_mem (List.mem_toFinset.mpr hc)
    have hparts : ∀ c ∈ arrivals.filterMap Arrival.view,
        c ∈ hplan.collector.whole (hplan.collector.owner c) := by
      intro c hc
      obtain ⟨packet, -, hin⟩ := hplan.mem_plan hinv (hmem c hc)
      exact List.mem_toFinset.mpr hin
    have hnone : hplan.collector.NoneAfter (arrivals.filterMap Arrival.view) e.1 := by
      intro before c after heq howner
      rw [hiff]
      exact hafter before c after heq howner
    exact ((hplan.collector.count_outputs hne _ hparts hnone).1 ((hiff _).mpr harrived)).2

/-! ## A sender with fragments of one byte -/

def byteSender : Sender :=
  Sender.fresh (fun _ => some ⟨true, 1, 0, 0⟩) 1 false true

/-- A packet is enqueued and its first byte is sent. -/
def sendByte (payload : Bytes) : List Op :=
  [.enqueue 0 ⟨1, 2⟩ payload 0, .dequeue 0 1 0]

/-- A packet of two bytes is enqueued and sent. -/
def sendTwo (payload : Bytes) : List Op := sendByte payload ++ [.dequeue 0 1 0]

/-- A packet of two bytes, `rounds` packets of one byte, and another packet of two bytes. -/
def wrapOps (rounds : ℕ) : List Op :=
  sendTwo [1, 2] ++ (List.replicate rounds (sendByte [0])).flatten ++ sendTwo [3, 4]

/-- The sender between two packets. -/
def idle (n : UInt64) (enqueued : List (UInt64 × OwnedPacket)) (produced : List TxComponent) :
    Sender :=
  ⟨{ byteSender.state with packetSequence := n }, enqueued, produced⟩

theorem Sender.run_append (s : Sender) (ops ops' : List Op) :
    s.run (ops ++ ops') = (s.run ops).run ops' := List.foldl_append

theorem idle_run_byte (n : UInt64) (enqueued : List (UInt64 × OwnedPacket))
    (produced : List TxComponent) (x : UInt8) :
    (idle n enqueued produced).run (sendByte [x]) =
      idle (n + 1) (enqueued ++ [(n, ⟨⟨1, 2⟩, [x]⟩)])
        (produced ++ [component ⟨⟨1, 2⟩, [x]⟩ n 0 0 1]) := by
  unfold idle byteSender sendByte
  simp [Sender.run, Sender.step, ownPacket, enqueue, Sender.fresh, effectiveMtu, makeRoom, newEntry,
    dequeueComponents, dequeueLoop, lastComponent, component]

theorem idle_run_two (n : UInt64) (enqueued : List (UInt64 × OwnedPacket))
    (produced : List TxComponent) (x y : UInt8) :
    (idle n enqueued produced).run (sendTwo [x, y]) =
      idle (n + 1) (enqueued ++ [(n, ⟨⟨1, 2⟩, [x, y]⟩)])
        (produced ++ [component ⟨⟨1, 2⟩, [x, y]⟩ n 0 0 1, component ⟨⟨1, 2⟩, [x, y]⟩ n 1 1 1]) := by
  unfold idle byteSender sendTwo sendByte
  simp [Sender.run, Sender.step, ownPacket, enqueue, Sender.fresh, effectiveMtu, makeRoom, newEntry,
    dequeueComponents, dequeueLoop, lastComponent, nextFragment, advance, component]

/-- What `byteSender` has done after two packets of two bytes. -/
theorem run_wrapOps_zero : byteSender.run (wrapOps 0) =
    idle 2 [(0, ⟨⟨1, 2⟩, [1, 2]⟩), (1, ⟨⟨1, 2⟩, [3, 4]⟩)]
      [component ⟨⟨1, 2⟩, [1, 2]⟩ 0 0 0 1, component ⟨⟨1, 2⟩, [1, 2]⟩ 0 1 1 1,
        component ⟨⟨1, 2⟩, [3, 4]⟩ 1 0 0 1, component ⟨⟨1, 2⟩, [3, 4]⟩ 1 1 1 1] := by
  have hstart : byteSender = idle 0 [] [] := rfl
  rw [hstart, wrapOps, List.replicate_zero, List.flatten_nil, List.append_nil, Sender.run_append,
    idle_run_two, idle_run_two]
  rfl

/-- Two packets whose fragments arrive interleaved, backwards and with a duplicate. -/
theorem reassembly_integrity_interleaved :
    let s := byteSender.run (wrapOps 0)
    let arrivals := [Arrival.sent (component ⟨⟨1, 2⟩, [1, 2]⟩ 0 1 1 1) 0,
      Arrival.sent (component ⟨⟨1, 2⟩, [3, 4]⟩ 1 1 1 1) 1,
      Arrival.sent (component ⟨⟨1, 2⟩, [1, 2]⟩ 0 1 1 1) 2, Arrival.other 3 ⟨2, [9], none⟩ 2,
      Arrival.sent (component ⟨⟨1, 2⟩, [1, 2]⟩ 0 0 0 1) 3,
      Arrival.sent (component ⟨⟨1, 2⟩, [3, 4]⟩ 1 0 0 1) 4]
    (∀ o ∈ (receiverRun 10 1 arrivals).2, o.info.source = 1 →
      ∃ e ∈ s.enqueued, o.payload = e.2.payload) ∧
    ∃ released : List UInt64,
      ((receiverRun 10 1 arrivals).2.filter fun o => o.info.source == 1) =
        released.map (completion s 1) ∧
      released.count 0 = 1 := by
  intro s arrivals
  have hs : s = _ := run_wrapOps_zero
  obtain ⟨hpayload, hreleased⟩ := reassembly_integrity (fun _ => some ⟨true, 1, 0, 0⟩) 1 false true
    (wrapOps 0) 1 10 arrivals
    (by change s.enqueued.length ≤ _; rw [hs]; decide)
    (by change ∀ a ∈ arrivals, a.From s 1; rw [hs]; simp [arrivals, Arrival.From, idle])
  have hwindow : ∀ a ∈ arrivals, 0 ≤ a.time ∧ a.time < 0 + 10 := by simp [arrivals, Arrival.time]
  obtain ⟨released, heq, -, hcount⟩ := hreleased (noTimeout_of_window hwindow)
  have hparts : partsOf s.produced 0 =
      [component ⟨⟨1, 2⟩, [1, 2]⟩ 0 0 0 1, component ⟨⟨1, 2⟩, [1, 2]⟩ 0 1 1 1] := by
    rw [hs]
    decide
  refine ⟨hpayload, released, heq, hcount (0, ⟨⟨1, 2⟩, [1, 2]⟩) ?_ ?_ ?_ ?_⟩
  · change _ ∈ s.enqueued
    rw [hs]
    simp [idle]
  · change ∃ c ∈ partsOf s.produced 0, c.more = false
    rw [hparts]
    decide
  · change ∀ c ∈ partsOf s.produced 0, c ∈ _
    rw [hparts]
    simp [arrivals, sentComponents, Arrival.view]
  · -- the first fragment comes last
    refine not_allArrived_of_late [component ⟨⟨1, 2⟩, [1, 2]⟩ 0 1 1 1,
      component ⟨⟨1, 2⟩, [3, 4]⟩ 1 1 1 1, component ⟨⟨1, 2⟩, [1, 2]⟩ 0 1 1 1]
      (component ⟨⟨1, 2⟩, [1, 2]⟩ 0 0 0 1) [component ⟨⟨1, 2⟩, [3, 4]⟩ 1 0 0 1] rfl ?_
      (by decide) (by decide)
    change _ ∈ partsOf s.produced 0
    rw [hparts]
    simp

/-! ## Packet numbers that wrap around -/

/-- The numbers go on by one in each round, and the packets of the rounds have one byte. -/
theorem idle_run_rounds (rounds : ℕ) (n : UInt64) (enqueued : List (UInt64 × OwnedPacket))
    (produced : List TxComponent) :
    ∃ more cs, (idle n enqueued produced).run (List.replicate rounds (sendByte [0])).flatten =
        idle (n + UInt64.ofNat rounds) (enqueued ++ more) (produced ++ cs) ∧
      ∀ e ∈ more, e.2.payload = [0] := by
  induction rounds generalizing n enqueued produced with
  | zero => exact ⟨[], [], by simp [Sender.run], by simp⟩
  | succ rounds ih =>
      obtain ⟨more, cs, hrun, hmore⟩ := ih (n + 1) (enqueued ++ [(n, ⟨⟨1, 2⟩, [0]⟩)])
        (produced ++ [component ⟨⟨1, 2⟩, [0]⟩ n 0 0 1])
      refine ⟨(n, ⟨⟨1, 2⟩, [0]⟩) :: more, component ⟨⟨1, 2⟩, [0]⟩ n 0 0 1 :: cs, ?_, ?_⟩
      · rw [List.replicate_succ, List.flatten_cons, Sender.run_append, idle_run_byte, hrun,
          List.append_assoc, List.append_assoc, UInt64.ofNat_add, add_comm (UInt64.ofNat rounds),
          ← add_assoc]
        rfl
      · intro e he
        rcases List.mem_cons.mp he with rfl | he
        · rfl
        · exact hmore e he

theorem wrapOps_run (rounds : ℕ) :
    ∃ more cs, byteSender.run (wrapOps rounds) =
        idle (2 + UInt64.ofNat rounds)
          ((0, ⟨⟨1, 2⟩, [1, 2]⟩) :: (more ++ [(1 + UInt64.ofNat rounds, ⟨⟨1, 2⟩, [3, 4]⟩)]))
          (component ⟨⟨1, 2⟩, [1, 2]⟩ 0 0 0 1 :: (cs ++
            [component ⟨⟨1, 2⟩, [3, 4]⟩ (1 + UInt64.ofNat rounds) 1 1 1])) ∧
      ∀ e ∈ more, e.2.payload = [0] := by
  obtain ⟨more, cs, hrun, hmore⟩ := idle_run_rounds rounds 1 [(0, ⟨⟨1, 2⟩, [1, 2]⟩)]
    [component ⟨⟨1, 2⟩, [1, 2]⟩ 0 0 0 1, component ⟨⟨1, 2⟩, [1, 2]⟩ 0 1 1 1]
  refine ⟨more, component ⟨⟨1, 2⟩, [1, 2]⟩ 0 1 1 1 :: (cs ++
    [component ⟨⟨1, 2⟩, [3, 4]⟩ (1 + UInt64.ofNat rounds) 0 0 1]), ?_, hmore⟩
  have hstart : byteSender = idle 0 [] [] := rfl
  rw [wrapOps, Sender.run_append, Sender.run_append, hstart, idle_run_two, List.nil_append,
    List.nil_append, show (0 : UInt64) + 1 = 1 from rfl, hrun, idle_run_two]
  have hnext : 1 + UInt64.ofNat rounds + 1 = 2 + UInt64.ofNat rounds := by
    rw [add_comm, ← add_assoc]
    rfl
  rw [hnext]
  simp

/-- **After `2 ^ 64` packets the numbers start again**, and fragments of two packets with one number
are joined to a payload that was never enqueued. -/
theorem reassembly_joins_wrapped :
    let s := byteSender.run (wrapOps (2 ^ 64 - 1))
    let arrivals := [Arrival.sent (component ⟨⟨1, 2⟩, [1, 2]⟩ 0 0 0 1) 0,
      Arrival.sent (component ⟨⟨1, 2⟩, [3, 4]⟩ 0 1 1 1) 0]
    (∀ a ∈ arrivals, a.From s 1) ∧
      (receiverRun 1000000 1 arrivals).2 = [⟨⟨1, 2⟩, [1, 4]⟩] ∧
      ∀ e ∈ s.enqueued, e.2.payload ≠ [1, 4] := by
  intro s arrivals
  obtain ⟨more, cs, hrun, hmore⟩ := wrapOps_run (2 ^ 64 - 1)
  have hnumber : 1 + UInt64.ofNat (2 ^ 64 - 1) = 0 := by decide
  rw [hnumber] at hrun
  have hs : s = _ := hrun
  rw [hs]
  refine ⟨?_, by decide +kernel, ?_⟩
  · simp [arrivals, Arrival.From, idle]
  · intro e he
    simp only [idle, List.mem_cons, List.mem_append, List.not_mem_nil, or_false] at he
    rcases he with rfl | he | rfl
    · decide
    · rw [hmore e he]
      decide
    · decide

end Emane.BentPipe
