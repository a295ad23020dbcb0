import Mathlib
import Emane.Ieee80211.Packets
import Emane.Ieee80211.Tokens
import Emane.Lib.Clock

set_option autoImplicit false

/-! # The transmit machine of the IEEE 802.11 layer

Since its last start the layer has sent its packets one at a time (`Mac.Contract.disjoint`), each as
often as its retries allow and under a number of its own, and it knows where each of them is. While it
has a packet it waits for a wakeup that will come, provided that the framework accepts its timers
(`Mac.Woken`). `transmit_contract` says so of every run with a clock that does not go back, and that
every callback ends.

Two invariants are added to the one of the packets here. The air is clear when the active packet has
waited for the end of its transmission (`Air`), and a wakeup that the layer waits for is armed.
-/

namespace Emane.Ieee80211

open Emane.Lib

/-! ## Airtime -/

/-- The end of a transmission, in the arithmetic of the clock. -/
def Transmission.ends (t : Transmission) : ℤ := I64.saturatingAdd t.start t.duration

/-- The second transmission begins when the first is over. -/
def Transmission.Before (t t' : Transmission) : Prop := I64.Over t.start t.duration t'.start

/-- The time from which the air is clear. -/
def Mac.clearFrom (mac : Mac) (clock : ℤ) : ℤ :=
  match mac.activeTx with
  | some pending => if pending.phase = .post then max clock pending.readyAt else clock
  | none => clock

/-- Transmissions follow each other, and they are over when the air is clear. -/
structure Air (clock : ℤ) (mac : Mac) : Prop where
  apart : mac.life.transmissions.Pairwise Transmission.Before
  ended : ∀ t ∈ mac.life.transmissions, t.ends ≤ mac.clearFrom clock

section

variable {env : Env} {mac mac' : Mac} {clock clock' : ℤ}

theorem le_clearFrom (mac : Mac) (clock : ℤ) : clock ≤ mac.clearFrom clock := by
  unfold Mac.clearFrom
  split
  · split
    · exact le_max_left ..
    · exact le_rfl
  · exact le_rfl

/-- The air is clear now unless a transmission lasts. -/
theorem clearFrom_eq {pending : PendingTx} (hactive : mac.activeTx = some pending)
    (h : pending.phase ≠ .post ∨ pending.readyAt ≤ clock) : mac.clearFrom clock = clock := by
  unfold Mac.clearFrom
  rw [hactive]
  dsimp only
  split
  · next hpost =>
      rcases h with hphase | hready
      · exact absurd hpost hphase
      · exact max_eq_left hready
  · rfl

theorem Air.later (h : Air clock mac) (hle : clock ≤ clock') : Air clock' mac := by
  refine ⟨h.apart, fun t ht => (h.ended t ht).trans ?_⟩
  unfold Mac.clearFrom
  split
  · split
    · exact max_le_max_right _ hle
    · exact hle
  · exact hle

/-- A step that sends nothing, of a layer for which the air is clear now. -/
theorem Air.of_clear (h : Air clock mac) (hclear : mac.clearFrom clock = clock)
    (htransmissions : mac'.life.transmissions = mac.life.transmissions) : Air clock mac' := by
  refine ⟨by rw [htransmissions]; exact h.apart, fun t ht => ?_⟩
  rw [htransmissions] at ht
  calc t.ends ≤ mac.clearFrom clock := h.ended t ht
    _ = clock := hclear
    _ ≤ mac'.clearFrom clock := le_clearFrom mac' clock

/-- **The active packet is sent** when the air is clear, and waits for its end. -/
theorem Air.transmit (h : Air env.now mac) {pending : PendingTx} (hactive : mac.activeTx = some pending)
    (hphase : pending.phase = .pre) (hmax : env.now ≤ I64.max) :
    Air env.now (mac.transmit pending env.now) := by
  obtain ⟨t, hlife, hsending, -, hpending, -, hstart⟩ := transmit_spec mac pending env.now
  have hclear : mac.clearFrom env.now = env.now :=
    clearFrom_eq hactive (.inl (by rw [hphase]; decide))
  have hready : t.ends ≤ t.pending.readyAt := by
    rw [hpending, Transmission.ends, hstart]
    exact I64.le_saturatingAdd (I64.saturatingAdd_le_max ..) (I64.clamp_nonneg _)
  have hwait : (mac.transmit pending env.now).clearFrom env.now = max env.now t.pending.readyAt := by
    unfold Mac.clearFrom
    rw [hsending]
    exact if_pos (by rw [hpending])
  refine ⟨?_, fun t' ht' => ?_⟩
  · rw [hlife]
    refine List.pairwise_append.mpr ⟨h.apart, List.pairwise_singleton _ _, ?_⟩
    intro t' ht' u hu
    obtain rfl := List.mem_singleton.mp hu
    have hle : t'.ends ≤ env.now := (h.ended t' ht').trans_eq hclear
    unfold Transmission.Before
    rw [hstart]
    exact I64.over_of_le hle hmax
  · rw [hlife] at ht'
    rw [hwait]
    rcases List.mem_append.mp ht' with ht' | ht'
    · exact le_max_of_le_left ((h.ended t' ht').trans_eq hclear)
    · obtain rfl := List.mem_singleton.mp ht'
      exact le_max_of_le_right hready

theorem Move.air (hmove : Move env mac mac') (hmax : env.now ≤ I64.max) (h : Air env.now mac) :
    Air env.now mac' := by
  cases hmove with
  | drop reason hqueue =>
      unfold Mac.dropFront
      refine ⟨?_, ?_⟩
      · rw [Mac.returnToken_life]
        exact h.apart
      · unfold Mac.clearFrom
        rw [Mac.returnToken_life, Mac.returnToken_activeTx]
        exact h.ended
  | select hactive hqueue =>
      refine h.of_clear ?_ rfl
      rw [Mac.clearFrom, hactive]
  | backoff hactive hphase =>
      exact h.of_clear (clearFrom_eq hactive (.inl (by rw [hphase]; decide))) rfl
  | transmit hactive hphase hready => exact h.transmit hactive hphase hmax
  | retry hactive hphase hready => exact h.of_clear (clearFrom_eq hactive (.inr hready)) rfl
  | @leave pending hactive hphase outcome queueDiscards =>
      obtain ⟨finished, discarded, hsettle⟩ :=
        { mac with activeTx := none, queueDiscards }.settle_frame pending outcome
      refine h.of_clear (clearFrom_eq hactive ?_) ?_
      · rcases hphase with hidle | ⟨-, hready⟩
        · exact .inl (by rw [hidle]; decide)
        · exact .inr hready
      · rw [hsettle, Mac.returnToken_life]

/-! ## Wakeups -/

/-- The layer waits for a callback that will come, if it has a packet. -/
structure Mac.Woken (mac : Mac) : Prop where
  armed : mac.wakeup.Armed
  woken : mac.activeTx ≠ none ∨ (∃ category, mac.queues category ≠ []) → mac.wakeup.next ≠ 0

/-- **`drive` asks for a wakeup** whenever it leaves a packet. -/
theorem drive_woken (hstarted : mac.started = true) (harmed : mac.wakeup.Armed)
    (hnonneg : 0 ≤ env.now) (hmax : env.now ≤ I64.max) (haccepted : env.timerAccepted = true)
    (hdrive : mac.drive env = some mac') : mac'.Woken := by
  obtain ⟨mid, update, hmoves, hrests, heq⟩ := drive_spec env hstarted
  obtain rfl := Option.some.inj (heq.symm.trans hdrive)
  have hsame := hmoves.sameSetup
  rw [← hsame.wakeup] at harmed
  unfold Mac.wind
  unfold Mac.Rests at hrests
  split
  · next pending hactive =>
      rw [hactive] at hrests
      have hschedule : ((mid.sendFlowUpdate update).scheduleTransmit pending.readyAt
          env.timerAccepted).wakeup = mid.wakeup.schedule pending.readyAt true := by
        rw [haccepted]
        exact if_pos (hsame.started.trans hstarted)
      constructor
      · rw [hschedule]
        exact harmed.schedule pending.readyAt
      · rw [hschedule]
        exact fun _ => (Wakeup.schedule_next mid.wakeup (hrests hnonneg hmax).2.ne' true).1
  · next hactive =>
      rw [hactive] at hrests
      refine ⟨harmed, fun hwork => ?_⟩
      rcases hwork with hne | ⟨category, hne⟩
      · exact absurd hactive hne
      · exact absurd (hrests category) hne

/-- A callback keeps the layer awake if the framework accepts its timer. -/
theorem callback_woken (hstarted : mac.started = true) (h : mac.Woken) {callback : Callback}
    (hnonneg : 0 ≤ callback.now) (hmax : callback.now ≤ I64.max)
    (haccepted : callback.env.timerAccepted = true) (hrun : mac.callback callback = some mac') :
    mac'.Woken := by
  cases callback with
  | downstream info payload env =>
      rw [Mac.callback] at hrun
      cases hpacket : ownPacket info payload with
      | none =>
          rw [hpacket] at hrun
          cases hrun
          exact h
      | some packet =>
          rw [hpacket] at hrun
          dsimp only at hrun
          rcases processDownstream_cases mac packet env with
            ⟨queueDiscards, updates, hrefused⟩ | ⟨taken, room, category, -, htaken, hroom, heq⟩
          · obtain rfl := Option.some.inj (hrefused.symm.trans hrun)
            exact ⟨h.armed, h.woken⟩
          · have hsame := (takeToken_sameSetup htaken).trans hroom.sameSetup
            have hdrive := heq.symm.trans hrun
            refine drive_woken ?_ ?_ hnonneg hmax haccepted hdrive
            · exact hsame.started.trans hstarted
            · change room.wakeup.Armed
              rw [hsame.wakeup]
              exact h.armed
  | timed value env =>
      rw [Mac.callback, processTimedEvent_eq] at hrun
      split at hrun
      · next hdue =>
          refine drive_woken ?_ ?_ hnonneg hmax haccepted hrun
          · exact hstarted
          · exact Wakeup.fire_due hdue
      · next hstale =>
          obtain rfl := Option.some.inj hrun
          obtain ⟨hnext, harmed⟩ := Wakeup.fire_stale (Bool.eq_false_iff.mpr hstale)
          refine ⟨harmed h.armed, fun hwork => ?_⟩
          change (mac.wakeup.fire value).1.next ≠ 0
          rw [hnext]
          exact h.woken hwork

/-! ## One callback -/

/-- The invariant of a started layer that keeps to the contract. -/
structure Sound (base : UInt64) (clock : ℤ) (mac : Mac) : Prop where
  started : mac.started = true
  packets : ∃ numbered, Packets base numbered mac
  air : Air clock mac

variable {base : UInt64}

theorem Moves.sound (hmoves : Moves env mac mac') (hmax : env.now ≤ I64.max)
    (h : Sound base env.now mac) : Sound base env.now mac' := by
  obtain ⟨numbered, hpackets⟩ := h.packets
  exact ⟨hmoves.sameSetup.started.trans h.started, hmoves.packets hpackets,
    hmoves.keeps (fun _ _ hI hmove => hmove.air hmax hI) h.air⟩

/-- The invariant speaks of the packets only. -/
theorem Sound.of_same (h : Sound base clock mac) (hstarted : mac'.started = mac.started)
    (hqueues : mac'.queues = mac.queues) (hactive : mac'.activeTx = mac.activeTx)
    (hsequence : mac'.sequence = mac.sequence)
    (hlife : ∃ updates, mac'.life = { mac.life with flowUpdates := updates }) :
    Sound base clock mac' := by
  obtain ⟨updates, hlife⟩ := hlife
  obtain ⟨numbered, hpackets⟩ := h.packets
  refine ⟨hstarted.trans h.started, ⟨numbered, hpackets.of_silent ?_ ?_ ?_ hsequence ?_ ?_⟩, ?_, ?_⟩
  · unfold Mac.places Mac.held
    rw [hqueues, hactive, hlife]
  · rw [hlife]
  · rw [hlife]
  · rw [hqueues]
    exact fun _ _ hmem => hmem
  · rw [hactive]
    exact hpackets.active
  · rw [hlife]
    exact h.air.apart
  · unfold Mac.clearFrom
    rw [hlife, hactive]
    exact h.air.ended

theorem drive_sound (hmax : env.now ≤ I64.max) (h : Sound base env.now mac) :
    ∃ mac', mac.drive env = some mac' ∧ Sound base env.now mac' := by
  obtain ⟨mid, update, hmoves, -, hdrive⟩ := drive_spec env h.started
  refine ⟨_, hdrive, (hmoves.sound hmax h).of_same ?_ ?_ ?_ ?_ ?_⟩
  all_goals unfold Mac.wind; split
  all_goals first | rfl | exact ⟨_, rfl⟩

/-- **A callback ends and keeps the invariant.** -/
theorem callback_sound {callback : Callback} (hclock : clock ≤ callback.now)
    (hmax : callback.now ≤ I64.max) (h : Sound base clock mac) :
    ∃ mac', mac.callback callback = some mac' ∧ Sound base callback.now mac' := by
  have hnow : Sound base callback.now mac := ⟨h.started, h.packets, h.air.later hclock⟩
  cases callback with
  | downstream info payload env =>
      rw [Mac.callback]
      cases ownPacket info payload with
      | none => exact ⟨mac, rfl, hnow⟩
      | some packet =>
          rcases processDownstream_cases mac packet env with
            ⟨queueDiscards, updates, hrefused⟩ | ⟨taken, room, category, -, htaken, hroom, heq⟩
          · exact ⟨_, hrefused, hnow.of_same rfl rfl rfl rfl ⟨_, rfl⟩⟩
          · obtain ⟨availableTokens, rfl⟩ := takeToken_frame htaken
            have hroom := hroom.sound hmax (hnow.of_same rfl rfl rfl rfl ⟨_, rfl⟩)
            obtain ⟨numbered, hpackets⟩ := hroom.packets
            have hentered :
                Sound base env.now (room.pushBack category (room.newEntry category packet env.now)) :=
              ⟨hroom.started, ⟨numbered, hpackets.pushBack category packet env.now⟩,
                hroom.air.apart, hroom.air.ended⟩
            dsimp only
            rw [heq]
            exact drive_sound hmax hentered
  | timed value env =>
      have hfired : Sound base env.now { mac with wakeup := (mac.wakeup.fire value).1 } :=
        hnow.of_same rfl rfl rfl rfl ⟨_, rfl⟩
      rw [Mac.callback, processTimedEvent_eq]
      split
      · exact drive_sound hmax hfired
      · exact ⟨_, rfl, hfired⟩

/-- The invariant of a run in which the framework accepts all timers if `accepting`. -/
structure Kept (accepting : Prop) (base : UInt64) (clock : ℤ) (mac : Mac) : Prop
    extends Sound base clock mac where
  nonneg : 0 ≤ clock
  woken : accepting → mac.Woken

theorem callback_kept {accepting : Prop} {callback : Callback} (hclock : clock ≤ callback.now)
    (hmax : callback.now ≤ I64.max) (haccepted : accepting → callback.env.timerAccepted = true)
    (h : Kept accepting base clock mac) :
    ∃ mac', mac.callback callback = some mac' ∧ Kept accepting base callback.now mac' := by
  obtain ⟨mac', hrun, hsound⟩ := callback_sound hclock hmax h.toSound
  have hnonneg := h.nonneg.trans hclock
  exact ⟨mac', hrun, hsound, hnonneg, fun haccepting =>
    callback_woken h.started (h.woken haccepting) hnonneg hmax (haccepted haccepting) hrun⟩

/-! ## Whole runs -/

/-- What the layer has done since its start. -/
structure Mac.Contract (mac : Mac) : Prop where
  /-- no two transmissions overlap -/
  disjoint : mac.life.transmissions.Pairwise Transmission.Before
  /-- what is sent are accepted packets -/
  sent : ∀ t ∈ mac.life.transmissions, mac.Knows t.pending
  /-- a packet is tried as often as its retries allow, a broadcast packet once -/
  tries : ∀ (id : ℕ) (pending : PendingTx), mac.life.accepted[id]? = some pending →
    pending.id = id ∧ mac.tries id ≤ pending.maxRetries.toNat + 1 ∧
      (pending.packet.broadcast = true → mac.tries id ≤ 1)
  /-- all transmissions of a packet have the same number -/
  same : ∀ t ∈ mac.life.transmissions, ∀ t' ∈ mac.life.transmissions,
    t.pending.id = t'.pending.id → t.header.sequence = t'.header.sequence
  /-- different packets have different numbers, up to the wrap-around -/
  distinct : mac.life.accepted.length ≤ 2 ^ 64 → ∀ t ∈ mac.life.transmissions,
    ∀ t' ∈ mac.life.transmissions, t.header.sequence = t'.header.sequence →
      t.pending.id = t'.pending.id
  /-- every accepted packet is queued, active, finished or discarded, and only one of these -/
  places : mac.places = Multiset.range mac.life.accepted.length

theorem Packets.contract {numbered : List ℕ} (h : Packets base numbered mac) (hair : Air clock mac) :
    mac.Contract where
  disjoint := hair.apart
  sent t ht := (h.sent t ht).1
  tries id pending hpending := by
    obtain ⟨hid, hbroadcast, hle⟩ := h.accepted id pending hpending
    refine ⟨hid, hle, fun hb => ?_⟩
    rw [hbroadcast hb] at hle
    exact hle
  same t ht t' ht' heq := (h.sent t ht).2.unique h.nodup (heq ▸ (h.sent t' ht').2)
  distinct hlength t ht t' ht' heq := by
    have hsub : numbered.length ≤ mac.life.accepted.length := by
      have hsubset : numbered ⊆ List.range mac.life.accepted.length := fun id hid =>
        List.mem_range.mpr (h.numbered_lt id hid)
      have := (h.nodup.subperm hsubset).length_le
      rwa [List.length_range] at this
    exact (h.sent t ht).2.injective (hsub.trans hlength) (heq ▸ (h.sent t' ht').2)
  places := h.places

/-- A layer that is started has done nothing yet. -/
theorem sound_start (h : mac.Stopped) (clock : ℤ) : Sound mac.sequence clock (mac.start true) := by
  have hplaces : (mac.start true).places = 0 := by
    unfold Mac.places Mac.held
    simp [Mac.start, h.activeTx, account, h.queues]
  refine ⟨rfl, ⟨[], hplaces, List.nodup_nil, by simp, by simp [Mac.start], ?_, ?_, ?_, ?_⟩, ?_, ?_⟩
  · intro category pending hmem
    have hnil : (mac.start true).queues category = [] := h.queues category
    rw [hnil] at hmem
    cases hmem
  · intro pending hactive
    exact absurd (h.activeTx.symm.trans hactive) (Option.some_ne_none pending).symm
  · simp [Mac.start]
  · simp [Mac.start]
  · simp [Mac.start]
  · simp [Mac.start]

theorem woken_start (h : mac.Stopped) : (mac.start true).Woken := by
  have hwakeup : (mac.start true).wakeup = Wakeup.idle := h.wakeup
  refine ⟨hwakeup ▸ Wakeup.idle_armed, fun hwork => ?_⟩
  rcases hwork with hactive | ⟨category, hqueue⟩
  · exact absurd h.activeTx hactive
  · exact absurd (h.queues category) hqueue

end

/-- **The transmit machine**: from any start of the layer, with a clock that does not go back, no
callback fails to end. The transmissions since the start are disjoint, packets are tried as often as they
may and under one number each, and each is in one place. If the framework accepts the timers, a layer
with packets waits for a callback that will come. -/
theorem transmit_contract (config : Config) (before : List (LayerOp Callback)) {layer : Layer Mac}
    (hbefore : runSteps transmitSide.step ⟨Mac.fresh config, false⟩ before = some layer)
    (hstopped : layer.started = false) (clock : ℤ) (hclock : 0 ≤ clock) (callbacks : List Callback)
    (htimed : Timed Callback.now Callback.now clock callbacks)
    (hmax : ∀ callback ∈ callbacks, callback.now ≤ I64.max) :
    ∃ mac, runSteps Mac.callback (layer.state.start true) callbacks = some mac ∧ mac.Contract ∧
      ((∀ callback ∈ callbacks, callback.env.timerAccepted = true) → mac.Woken) := by
  obtain ⟨layer', hrun, hsound⟩ :=
    (transmitSide_keeps config).run ⟨Mac.stopped_fresh config, rfl⟩ before
  obtain rfl := Option.some.inj (hrun.symm.trans hbefore)
  obtain ⟨hempty, -⟩ := hsound.stopped hstopped
  have hstart := sound_start hempty clock
  have hkept : Kept (∀ callback ∈ callbacks, callback.env.timerAccepted = true) layer'.state.sequence
      clock (layer'.state.start true) := ⟨hstart, hclock, fun _ => woken_start hempty⟩
  have hstep : ∀ clock mac callback, callback ∈ callbacks → clock ≤ callback.now →
      callback.now ≤ callback.now →
      Kept (∀ callback ∈ callbacks, callback.env.timerAccepted = true) layer'.state.sequence clock mac →
      ∃ mac', mac.callback callback = some mac' ∧
        Kept (∀ callback ∈ callbacks, callback.env.timerAccepted = true) layer'.state.sequence
          callback.now mac' := by
    intro clock mac callback hmem hbegins _ hI
    exact callback_kept hbegins (hmax callback hmem) (fun haccepting => haccepting callback hmem) hI
  obtain ⟨mac, clock', hmac, hend⟩ := timed_completes (fun callback => callback ∈ callbacks) hstep
    callbacks clock (layer'.state.start true) (fun _ hmem => hmem) htimed hkept
  obtain ⟨numbered, hpackets⟩ := hend.packets
  exact ⟨mac, hmac, hpackets.contract hend.air, hend.woken⟩

/-- A layer that was started before, and a unicast packet that collides twice in front of a broadcast
packet; the callback with 99 is out of date. -/
theorem transmit_contract_oneRetry :
    ∃ mac, runSteps Mac.callback (((Mac.fresh oneRetry).start true).stop.start true)
        [.downstream ⟨1, 2, 0⟩ [7] { quiet 100 with collision := true },
          .downstream ⟨1, 65535, 0⟩ [8] (quiet 110),
          .timed 134 (quiet 140),
          .timed 99 (quiet 150),
          .timed 569 { quiet 569 with collision := true },
          .timed 603 (quiet 603),
          .timed 1032 (quiet 1032),
          .timed 1066 (quiet 1070)] = some mac ∧ mac.Contract ∧ mac.Woken := by
  have hbefore : runSteps transmitSide.step ⟨Mac.fresh oneRetry, false⟩ [.start true, .stop] =
      some ⟨((Mac.fresh oneRetry).start true).stop, false⟩ := rfl
  obtain ⟨mac, hrun, hcontract, hwoken⟩ := transmit_contract oneRetry _ hbefore rfl 0 le_rfl
    [.downstream ⟨1, 2, 0⟩ [7] { quiet 100 with collision := true },
      .downstream ⟨1, 65535, 0⟩ [8] (quiet 110),
      .timed 134 (quiet 140),
      .timed 99 (quiet 150),
      .timed 569 { quiet 569 with collision := true },
      .timed 603 (quiet 603),
      .timed 1032 (quiet 1032),
      .timed 1066 (quiet 1070)] (by decide) (by decide)
  exact ⟨mac, hrun, hcontract, hwoken (by decide)⟩

end Emane.Ieee80211
