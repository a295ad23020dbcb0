import Mathlib
import Emane.Ieee80211.Moves

set_option autoImplicit false

/-! # Tries and sequence numbers of the packets

Each packet that was accepted is in one place: in a queue, active, finished or discarded. It gets a
sequence number when it is first sent, which it keeps, and the number of times it was sent is one more
than its retries while the last transmission lasts.

`Packets` is the invariant, over the packets in the order in which they were numbered; `Move.packets`
is the lemma for one move.
-/

namespace Emane.Ieee80211

open Emane.Lib

/-! ## The invariant -/

/-- What `drive` never changes of an entry. -/
def PendingTx.fixed (pending : PendingTx) : PendingTx :=
  { pending with
    readyAt := 0
    postDelayMicroseconds := 0
    collision := false
    retries := 0
    sequence := none
    phase := .idle }

/-- An entry with which nothing was done yet. -/
structure PendingTx.Fresh (pending : PendingTx) : Prop where
  phase : pending.phase = .idle
  retries : pending.retries = 0
  sequence : pending.sequence = none

namespace Mac

variable (mac : Mac)

/-- The packets that are queued or active. -/
def held : Multiset ℕ :=
  account (fun pending : PendingTx => ({pending.id} : Multiset ℕ)) mac.queues +
    (mac.activeTx.toList.map PendingTx.id : List ℕ)

/-- The packets in all places. -/
def places : Multiset ℕ :=
  mac.held + (mac.life.finished : List ℕ) + (mac.life.discarded.map Prod.fst : List ℕ)

/-- How often a packet was sent. -/
def tries (id : ℕ) : ℕ := mac.life.transmissions.countP fun t => t.pending.id = id

/-- The entry belongs to a packet that was accepted. -/
def Knows (pending : PendingTx) : Prop :=
  (mac.life.accepted[pending.id]?).map PendingTx.fixed = some pending.fixed

end Mac

/-- The sequence number of a packet: packets are numbered one after the other from `base` on. -/
def HasNumber (base : UInt64) (numbered : List ℕ) (id : ℕ) (sequence : UInt64) : Prop :=
  ∃ n : ℕ, numbered[n]? = some id ∧ sequence = base + UInt64.ofNat n

/-- What holds of the active packet. -/
structure Active (base : UInt64) (numbered : List ℕ) (mac : Mac) (pending : PendingTx) : Prop where
  knows : mac.Knows pending
  retries_le : pending.retries ≤ pending.maxRetries.toNat
  tries : mac.tries pending.id = pending.retries + if pending.phase = .post then 1 else 0
  sequence : (pending.sequence = none ∧ pending.id ∉ numbered) ∨
    ∃ sequence, pending.sequence = some sequence ∧ HasNumber base numbered pending.id sequence

/-- The invariant; `numbered` are the packets that have a sequence number. -/
structure Packets (base : UInt64) (numbered : List ℕ) (mac : Mac) : Prop where
  places : mac.places = Multiset.range mac.life.accepted.length
  nodup : numbered.Nodup
  numbered_lt : ∀ id ∈ numbered, id < mac.life.accepted.length
  sequence : mac.sequence = base + UInt64.ofNat numbered.length
  queued : ∀ category, ∀ pending ∈ mac.queues category,
    mac.Knows pending ∧ pending.Fresh ∧ pending.id ∉ numbered
  active : ∀ pending, mac.activeTx = some pending → Active base numbered mac pending
  sent : ∀ t ∈ mac.life.transmissions,
    mac.Knows t.pending ∧ HasNumber base numbered t.pending.id t.header.sequence
  accepted : ∀ (id : ℕ) (pending : PendingTx), mac.life.accepted[id]? = some pending →
    pending.id = id ∧ (pending.packet.broadcast = true → pending.maxRetries = 0) ∧
      mac.tries id ≤ pending.maxRetries.toNat + 1

/-! ## Places -/

section

variable {env : Env} {mac mac' : Mac}

/-- A move takes a packet from one place to another. -/
theorem Move.places (h : Move env mac mac') : mac'.places = mac.places := by
  unfold Mac.places Mac.held
  cases h with
  | @drop category front queue reason hqueue =>
      rw [account_front hqueue]
      simp only [Mac.dropFront, Mac.countDiscard, Mac.returnToken_queues, Mac.returnToken_activeTx,
        Mac.returnToken_life, List.map_append, List.map_singleton, ← Multiset.coe_add,
        Multiset.coe_singleton]
      abel
  | @select category front queue hactive hqueue =>
      rw [account_front hqueue, hactive]
      simp only [Option.toList_some, Option.toList_none, List.map_singleton, List.map_nil,
        Multiset.coe_singleton, Multiset.coe_nil]
      abel
  | backoff hactive | transmit hactive | retry hactive =>
      rw [hactive]
      rfl
  | @leave pending hactive hphase outcome queueDiscards =>
      rw [hactive]
      cases outcome with
      | some reason =>
          simp only [Mac.settle, Mac.returnToken_queues, Mac.returnToken_activeTx,
            Mac.returnToken_life, List.map_append, List.map_singleton, ← Multiset.coe_add,
            Multiset.coe_singleton, Option.toList_some, Option.toList_none, List.map_nil,
            Multiset.coe_nil]
          abel
      | none =>
          simp only [Mac.settle, Mac.returnToken_queues, Mac.returnToken_activeTx,
            Mac.returnToken_life, List.map_singleton, ← Multiset.coe_add, Multiset.coe_singleton,
            Option.toList_some, Option.toList_none, List.map_nil, Multiset.coe_nil]
          abel

/-- No queued packet is active at the same time. -/
theorem id_ne_of_places {n : ℕ} (h : mac.places = Multiset.range n) {active pending : PendingTx}
    (hactive : mac.activeTx = some active) {category : Fin 4}
    (hqueued : pending ∈ mac.queues category) : pending.id ≠ active.id := by
  intro heq
  obtain ⟨position, hposition⟩ := List.mem_iff_getElem?.mp hqueued
  have hplaces : active.id ::ₘ active.id ::ₘ 0 ≤ mac.places := by
    unfold Mac.places Mac.held
    rw [account_erase hposition, hactive, heq]
    simp only [Option.toList_some, List.map_singleton, Multiset.coe_singleton]
    calc active.id ::ₘ active.id ::ₘ 0 = {active.id} + {active.id} := rfl
      _ ≤ {active.id} + account (fun pending : PendingTx => ({pending.id} : Multiset ℕ))
            (Function.update mac.queues category ((mac.queues category).eraseIdx position)) +
          {active.id} := by gcongr; exact Multiset.le_add_right ..
      _ ≤ _ := (Multiset.le_add_right ..).trans (Multiset.le_add_right ..)
  rw [h] at hplaces
  have hnodup := Multiset.nodup_of_le hplaces (Multiset.nodup_range n)
  simp at hnodup

/-- The rest of a queue is part of it. -/
theorem mem_of_mem_update {queues : Fin 4 → List PendingTx} {category : Fin 4} {front : PendingTx}
    {queue : List PendingTx} (hqueue : queues category = front :: queue) {c : Fin 4} {p : PendingTx}
    (h : p ∈ Function.update queues category queue c) : p ∈ queues c := by
  by_cases hc : c = category
  · subst hc
    rw [Function.update_self] at h
    rw [hqueue]
    exact List.mem_cons_of_mem front h
  · rwa [Function.update_of_ne hc] at h

/-! ## One move -/

variable {base : UInt64} {numbered : List ℕ}

/-- A packet without a number was not sent. -/
theorem Packets.tries_eq_zero (h : Packets base numbered mac) {id : ℕ} (hid : id ∉ numbered) :
    mac.tries id = 0 := by
  refine List.countP_eq_zero.mpr fun t ht heq => hid ?_
  obtain ⟨n, hn, -⟩ := (h.sent t ht).2
  rw [← of_decide_eq_true heq]
  exact List.mem_of_getElem? hn

/-- The number stays when other packets are numbered. -/
theorem HasNumber.append {id : ℕ} {sequence : UInt64} (h : HasNumber base numbered id sequence)
    (later : List ℕ) : HasNumber base (numbered ++ later) id sequence := by
  obtain ⟨n, hn, hsequence⟩ := h
  refine ⟨n, ?_, hsequence⟩
  rw [List.getElem?_append_left (List.getElem?_eq_some_iff.mp hn).1]
  exact hn

/-- Two numbers of a packet are the same. -/
theorem HasNumber.unique {id : ℕ} {sequence sequence' : UInt64} (hnodup : numbered.Nodup)
    (h : HasNumber base numbered id sequence) (h' : HasNumber base numbered id sequence') :
    sequence = sequence' := by
  obtain ⟨n, hn, rfl⟩ := h
  obtain ⟨n', hn', rfl⟩ := h'
  have hlt := (List.getElem?_eq_some_iff.mp hn).1
  rw [(List.getElem?_inj hlt hnodup).mp (hn.trans hn'.symm)]

/-- Two packets with the same number are the same, as long as the numbers do not wrap around. -/
theorem HasNumber.injective {id id' : ℕ} {sequence : UInt64} (hlength : numbered.length ≤ 2 ^ 64)
    (h : HasNumber base numbered id sequence) (h' : HasNumber base numbered id' sequence) :
    id = id' := by
  obtain ⟨n, hn, hsequence⟩ := h
  obtain ⟨n', hn', hsequence'⟩ := h'
  have hlt := (List.getElem?_eq_some_iff.mp hn).1
  have hlt' := (List.getElem?_eq_some_iff.mp hn').1
  have hofNat : UInt64.ofNat n = UInt64.ofNat n' :=
    (add_right_inj base).mp (hsequence.symm.trans hsequence')
  have hmod : n % 2 ^ 64 = n' % 2 ^ 64 := by
    have := congrArg UInt64.toNat hofNat
    rwa [UInt64.toNat_ofNat', UInt64.toNat_ofNat'] at this
  rw [Nat.mod_eq_of_lt (by omega), Nat.mod_eq_of_lt (by omega)] at hmod
  subst hmod
  exact Option.some.inj (hn.symm.trans hn')

/-- What holds of the active packet depends on what was accepted and sent only. -/
theorem Active.congr {pending : PendingTx} (h : Active base numbered mac pending)
    (haccepted : mac'.life.accepted = mac.life.accepted)
    (htransmissions : mac'.life.transmissions = mac.life.transmissions) :
    Active base numbered mac' pending where
  knows := by
    unfold Mac.Knows
    rw [haccepted]
    exact h.knows
  retries_le := h.retries_le
  tries := by
    unfold Mac.tries
    rw [htransmissions]
    exact h.tries
  sequence := h.sequence

/-- A step that sends nothing keeps the invariant if it keeps what holds of the active packet. -/
theorem Packets.of_silent (h : Packets base numbered mac) (hplaces : mac'.places = mac.places)
    (haccepted : mac'.life.accepted = mac.life.accepted)
    (htransmissions : mac'.life.transmissions = mac.life.transmissions)
    (hsequence : mac'.sequence = mac.sequence)
    (hqueues : ∀ category, ∀ pending ∈ mac'.queues category, pending ∈ mac.queues category)
    (hactive : ∀ pending, mac'.activeTx = some pending → Active base numbered mac pending) :
    Packets base numbered mac' where
  places := by
    rw [hplaces, haccepted]
    exact h.places
  nodup := h.nodup
  numbered_lt := by
    rw [haccepted]
    exact h.numbered_lt
  sequence := hsequence.trans h.sequence
  queued category pending hpending := by
    unfold Mac.Knows
    rw [haccepted]
    exact h.queued category pending (hqueues category pending hpending)
  active pending hpending := (hactive pending hpending).congr haccepted htransmissions
  sent := by
    unfold Mac.Knows
    rw [haccepted, htransmissions]
    exact h.sent
  accepted := by
    unfold Mac.tries
    rw [haccepted, htransmissions]
    exact h.accepted

/-- A packet that becomes active was never sent. -/
theorem Packets.active_of_queued (h : Packets base numbered mac) {category : Fin 4}
    {pending : PendingTx} (hpending : pending ∈ mac.queues category) :
    Active base numbered mac pending := by
  obtain ⟨hknows, hfresh, hnumber⟩ := h.queued category pending hpending
  refine ⟨hknows, ?_, ?_, .inl ⟨hfresh.sequence, hnumber⟩⟩
  · rw [hfresh.retries]
    exact Nat.zero_le _
  · rw [h.tries_eq_zero hnumber, hfresh.retries, hfresh.phase]
    rfl

/-- **What is sent**: the packet with its number, or the next one if it has none, for the time that it
takes. -/
theorem transmit_spec (mac : Mac) (pending : PendingTx) (now : ℤ) :
    ∃ t : Transmission,
      (mac.transmit pending now).life =
        { mac.life with transmissions := mac.life.transmissions ++ [t] } ∧
      (mac.transmit pending now).activeTx = some t.pending ∧
      (mac.transmit pending now).sequence =
        (if pending.sequence = none then mac.sequence + 1 else mac.sequence) ∧
      t.pending = { pending with
        sequence := some t.header.sequence
        readyAt := I64.saturatingAdd (I64.saturatingAdd now t.duration)
          (I64.clamp pending.postDelayMicroseconds)
        phase := .post } ∧
      t.header.sequence = pending.sequence.getD mac.sequence ∧ t.start = now := by
  have hcast := I64.cast_eq (packetDuration_lt mac.config.mode _
    (if pending.packet.broadcast then mac.config.multicastRateIndex else mac.config.unicastRateIndex)
    pending.packet.broadcast pending.rtsCts pending.packet.payload_le)
  unfold Mac.transmit
  cases pending.sequence with
  | none => exact ⟨_, rfl, rfl, rfl, by simp only [hcast], rfl, rfl⟩
  | some sequence => exact ⟨_, rfl, rfl, rfl, by simp only [hcast], rfl, rfl⟩

/-- The number with which a packet is sent is its own from now on. -/
theorem Packets.number (h : Packets base numbered mac) {pending : PendingTx}
    (hactive : mac.activeTx = some pending) :
    ∃ later, (∀ id ∈ later, id = pending.id) ∧ (numbered ++ later).Nodup ∧
      HasNumber base (numbered ++ later) pending.id (pending.sequence.getD mac.sequence) ∧
      (if pending.sequence = none then mac.sequence + 1 else mac.sequence) =
        base + UInt64.ofNat (numbered ++ later).length := by
  rcases (h.active pending hactive).sequence with ⟨hnone, hnumber⟩ | ⟨sequence, hsome, hnumber⟩
  · refine ⟨[pending.id], by simp, ?_, ⟨numbered.length, ?_, ?_⟩, ?_⟩
    · exact h.nodup.append (List.nodup_singleton _) (by simpa using hnumber)
    · rw [List.getElem?_append_right le_rfl, Nat.sub_self]
      rfl
    · rw [hnone]
      exact h.sequence
    · rw [if_pos hnone, h.sequence, List.length_append, List.length_singleton, UInt64.ofNat_add,
        add_assoc]
      rfl
  · refine ⟨[], by simp, ?_, ?_, ?_⟩
    · rw [List.append_nil]
      exact h.nodup
    · rw [List.append_nil, hsome]
      exact hnumber
    · rw [List.append_nil, hsome, if_neg (Option.some_ne_none sequence)]
      exact h.sequence

/-- A packet that is known is one of those that were accepted. -/
theorem Mac.Knows.exists {pending : PendingTx} (h : mac.Knows pending) :
    ∃ accepted, mac.life.accepted[pending.id]? = some accepted ∧ accepted.fixed = pending.fixed := by
  obtain ⟨accepted, haccepted, hfixed⟩ := Option.map_eq_some_iff.mp h
  exact ⟨accepted, haccepted, hfixed⟩

/-- **The active packet is sent.** It was sent once less often than it may be. -/
theorem Packets.transmit (h : Packets base numbered mac) {pending : PendingTx}
    (hactive : mac.activeTx = some pending) (hphase : pending.phase = .pre)
    (hready : pending.readyAt ≤ env.now) :
    ∃ later, Packets base (numbered ++ later) (mac.transmit pending env.now) := by
  obtain ⟨t, hlife, hsending, hsequence, hpending, hheader, -⟩ := transmit_spec mac pending env.now
  obtain ⟨later, hlater, hnodup, hnumber, hnext⟩ := h.number hactive
  have hold := h.active pending hactive
  obtain ⟨accepted, haccepted, hfixed⟩ := hold.knows.exists
  have hid : t.pending.id = pending.id := by rw [hpending]
  have hfixedSent : t.pending.fixed = pending.fixed := by rw [hpending]; rfl
  have hsame : (mac.transmit pending env.now).life.accepted = mac.life.accepted := by rw [hlife]
  have htries (id : ℕ) : (mac.transmit pending env.now).tries id =
      mac.tries id + if pending.id = id then 1 else 0 := by
    unfold Mac.tries
    rw [hlife, List.countP_append, List.countP_singleton, hid]
    simp only [decide_eq_true_eq]
  have hone : mac.tries pending.id = pending.retries := by
    rw [hold.tries, hphase]
    rfl
  refine ⟨later, ⟨?_, hnodup, ?_, hsequence.trans hnext, ?_, ?_, ?_, ?_⟩⟩
  · rw [(Move.transmit hactive hphase hready).places, hsame]
    exact h.places
  · rw [hsame]
    intro id hmem
    rcases List.mem_append.mp hmem with hmem | hmem
    · exact h.numbered_lt id hmem
    · rw [hlater id hmem]
      exact (List.getElem?_eq_some_iff.mp haccepted).1
  · intro category queued hmem
    obtain ⟨hknows, hfresh, hnew⟩ := h.queued category queued hmem
    have hne := id_ne_of_places h.places hactive hmem
    refine ⟨?_, hfresh, ?_⟩
    · unfold Mac.Knows
      rw [hsame]
      exact hknows
    · intro hmem
      rcases List.mem_append.mp hmem with hmem | hmem
      · exact hnew hmem
      · exact hne (hlater _ hmem)
  · intro active hsome
    rw [hsending, Option.some.injEq] at hsome
    subst hsome
    refine ⟨?_, ?_, ?_, .inr ⟨t.header.sequence, by rw [hpending], ?_⟩⟩
    · unfold Mac.Knows
      rw [hsame, hid, hfixedSent]
      exact hold.knows
    · rw [hpending]
      exact hold.retries_le
    · rw [htries, hid, if_pos rfl, hone, hpending]
      rfl
    · rw [hid, hheader]
      exact hnumber
  · rw [hlife]
    intro sent hmem
    rcases List.mem_append.mp hmem with hmem | hmem
    · obtain ⟨hknows, hnumber'⟩ := h.sent sent hmem
      refine ⟨?_, hnumber'.append later⟩
      unfold Mac.Knows
      rw [hsame]
      exact hknows
    · obtain rfl := List.mem_singleton.mp hmem
      refine ⟨?_, ?_⟩
      · unfold Mac.Knows
        rw [hsame, hid, hfixedSent]
        exact hold.knows
      · rw [hid, hheader]
        exact hnumber
  · rw [hsame]
    intro id entry hentry
    obtain ⟨hentryId, hbroadcast, hle⟩ := h.accepted id entry hentry
    refine ⟨hentryId, hbroadcast, ?_⟩
    rw [htries]
    split
    · next heq =>
        subst heq
        -- the entry of the active packet, which has retries left
        have hentryFixed : entry.fixed = pending.fixed := by
          rw [haccepted, Option.some.injEq] at hentry
          rw [← hentry]
          exact hfixed
        have hmax : entry.maxRetries = pending.maxRetries := by
          change entry.fixed.maxRetries = pending.fixed.maxRetries
          rw [hentryFixed]
        rw [hone, hmax]
        exact Nat.add_le_add_right hold.retries_le 1
    · exact hle

/-- **A move keeps the invariant**, with at most one more packet that has a number. -/
theorem Move.packets (hmove : Move env mac mac') (h : Packets base numbered mac) :
    ∃ later, Packets base (numbered ++ later) mac' := by
  have hplaces := hmove.places
  have haccepted := hmove.sameSetup.accepted
  -- what sends nothing numbers nothing
  suffices hsilent : Packets base numbered mac' ∨ ∃ later, Packets base (numbered ++ later) mac' by
    rcases hsilent with hsilent | hlater
    · exact ⟨[], by rwa [List.append_nil]⟩
    · exact hlater
  cases hmove with
  | @drop category front queue reason hqueue =>
      refine .inl (h.of_silent hplaces haccepted ?_ ?_ ?_ ?_)
      · simp [Mac.dropFront, Mac.countDiscard]
      · simp [Mac.dropFront, Mac.countDiscard]
      · intro c pending hmem
        rw [Mac.dropFront_queues] at hmem
        exact mem_of_mem_update hqueue hmem
      · intro pending hactive
        simp only [Mac.dropFront, Mac.countDiscard, Mac.returnToken_activeTx] at hactive
        exact h.active pending hactive
  | @select category front queue hactive hqueue =>
      refine .inl (h.of_silent hplaces rfl rfl rfl (fun c pending => mem_of_mem_update hqueue) ?_)
      intro pending hpending
      obtain rfl := Option.some.inj hpending
      have hfront : front ∈ mac.queues category := by
        rw [hqueue]
        exact List.mem_cons_self
      exact h.active_of_queued hfront
  | @backoff pending hactive hphase readyAt postDelay collision =>
      refine .inl (h.of_silent hplaces rfl rfl rfl (fun _ _ hmem => hmem) ?_)
      intro entry hentry
      obtain rfl := Option.some.inj hentry
      have hold := h.active pending hactive
      refine ⟨hold.knows, hold.retries_le, ?_, hold.sequence⟩
      have htries := hold.tries
      rw [hphase] at htries
      exact htries
  | transmit hactive hphase hready => exact .inr (h.transmit hactive hphase hready)
  | @retry pending hactive hphase hready hretries =>
      refine .inl (h.of_silent hplaces rfl rfl rfl (fun _ _ hmem => hmem) ?_)
      intro entry hentry
      obtain rfl := Option.some.inj hentry
      have hold := h.active pending hactive
      have hcap : min (pending.retries + 1) 255 = pending.retries + 1 := by
        have := pending.maxRetries.toNat_lt
        omega
      refine ⟨hold.knows, ?_, ?_, hold.sequence⟩
      · change min (pending.retries + 1) 255 ≤ pending.maxRetries.toNat
        omega
      · have htries := hold.tries
        rw [hphase] at htries
        change mac.tries pending.id = min (pending.retries + 1) 255 + 0
        rw [hcap]
        exact htries
  | @leave pending hactive hphase outcome queueDiscards =>
      obtain ⟨finished, discarded, hsettle⟩ :=
        { mac with activeTx := none, queueDiscards }.settle_frame pending outcome
      refine .inl (h.of_silent hplaces haccepted ?_ ?_ ?_ ?_)
      · simp [hsettle]
      · simp [hsettle]
      · simp [hsettle]
      · simp [hsettle]

theorem Moves.packets (hmoves : Moves env mac mac') (h : Packets base numbered mac) :
    ∃ numbered', Packets base numbered' mac' :=
  hmoves.keeps (I := fun mac => ∃ numbered, Packets base numbered mac)
    (fun _ _ ⟨_, hI⟩ hmove => (hmove.packets hI).imp' _ fun _ => id) ⟨numbered, h⟩

/-! ## New packets -/

/-- **A packet is accepted.** -/
theorem Packets.pushBack (h : Packets base numbered mac) (category : Fin 4) (packet : OwnedPacket)
    (now : ℤ) : Packets base numbered (mac.pushBack category (mac.newEntry category packet now)) := by
  set entry := mac.newEntry category packet now with hentry
  have hid : entry.id = mac.life.accepted.length := rfl
  have hnew : entry.id ∉ numbered := fun hmem => absurd (h.numbered_lt _ hmem) (by omega)
  have haccepted : (mac.pushBack category entry).life.accepted = mac.life.accepted ++ [entry] := rfl
  have hknows {pending : PendingTx} (hpending : mac.Knows pending) :
      (mac.pushBack category entry).Knows pending := by
    obtain ⟨old, hold, -⟩ := hpending.exists
    unfold Mac.Knows
    rw [haccepted, List.getElem?_append_left (List.getElem?_eq_some_iff.mp hold).1]
    exact hpending
  refine ⟨?_, h.nodup, ?_, h.sequence, ?_, ?_, ?_, ?_⟩
  · have hplaces : (mac.pushBack category entry).places = {entry.id} + mac.places := by
      unfold Mac.places Mac.held Mac.pushBack
      dsimp only
      rw [account_push]
      abel
    rw [hplaces, h.places, haccepted, List.length_append, List.length_singleton, hid,
      Multiset.range_succ, Multiset.singleton_add]
  · intro id hmem
    rw [haccepted, List.length_append]
    exact Nat.lt_add_right _ (h.numbered_lt id hmem)
  · intro c pending hmem
    have hcases : pending ∈ mac.queues c ∨ pending = entry := by
      change pending ∈ Function.update mac.queues category (mac.queues category ++ [entry]) c at hmem
      by_cases hc : c = category
      · subst hc
        rw [Function.update_self] at hmem
        simpa using hmem
      · rw [Function.update_of_ne hc] at hmem
        exact .inl hmem
    rcases hcases with hold | rfl
    · obtain ⟨hknown, hfresh, hnumber⟩ := h.queued c pending hold
      exact ⟨hknows hknown, hfresh, hnumber⟩
    · refine ⟨?_, ⟨rfl, rfl, rfl⟩, hnew⟩
      unfold Mac.Knows
      rw [haccepted, hid, List.getElem?_append_right le_rfl, Nat.sub_self]
      rfl
  · intro pending hactive
    have hold := h.active pending hactive
    exact ⟨hknows hold.knows, hold.retries_le, hold.tries, hold.sequence⟩
  · intro t ht
    obtain ⟨hknown, hnumber⟩ := h.sent t ht
    exact ⟨hknows hknown, hnumber⟩
  · intro id pending hpending
    rw [haccepted] at hpending
    by_cases hlt : id < mac.life.accepted.length
    · rw [List.getElem?_append_left hlt] at hpending
      exact h.accepted id pending hpending
    · rw [List.getElem?_append_right (not_lt.mp hlt), List.getElem?_singleton] at hpending
      split at hpending
      · next hzero =>
          obtain rfl := Option.some.inj hpending
          have hlast : id = entry.id := by omega
          refine ⟨hlast.symm, fun hbroadcast => ?_, ?_⟩
          · exact if_pos hbroadcast
          · change mac.tries id ≤ _
            rw [hlast, h.tries_eq_zero hnew]
            exact Nat.zero_le _
      · cases hpending

end

end Emane.Ieee80211
