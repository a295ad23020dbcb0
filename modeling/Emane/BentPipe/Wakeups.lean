import Mathlib
import Emane.Lib.Run
import Emane.BentPipe.Lifecycle

set_option autoImplicit false

/-! # No wakeup of the BentPipe layer is lost

A packet that stays in a queue is sent when the transponder is driven again, and while nothing else
arrives only a wakeup does that. Wakeups are entered by `drive` and by the relay of a packet, they are
taken out by the callback that was due, and callbacks that are out of date find another time in the
table or none.

The invariant of a started layer is `Awake`: a transponder with packets in its queue has a wakeup, and
the framework holds its callback. A callback that has taken out its wakeup, or that has put a packet
into the queue, leaves `AwakeBut` for its transponder, and `drive` restores `Awake`.

A layer that does not run has no wakeups, but packets can come to it and stay in its queues (`Quiet`).
`start` neither drives the transponders nor clears the queues, so no wakeup is lost exactly where the
queues are empty at each start (`queued_has_wakeup_iff`).
-/

namespace Emane.BentPipe

open Emane.Lib
open Std (ExtTreeMap)

namespace Mac

/-! ## The invariant -/

/-- A started layer: the antennas of its transponders are defined, packets are queued for its own
transponders only, and the framework holds the callback of each wakeup. -/
structure Sound (mac : Mac) : Prop where
  started : mac.started = true
  antenna : ∀ (i : UInt16) (t : FullTransponder), mac.transponders[i]? = some t →
    t.transmitAntennaIndex ∈ mac.antennas
  known : ∀ i, mac.queues i ≠ [] → (mac.transponders[i]?).isSome = true
  live : mac.wakeups.Live

/-- Every transponder but `index` is woken for the packets in its queue. -/
structure AwakeBut (index : UInt16) (mac : Mac) : Prop extends Sound mac where
  woken : ∀ i, i ≠ index → mac.queues i ≠ [] → mac.wakeups.due i ≠ none

/-- Every transponder is woken for the packets in its queue. -/
structure Awake (mac : Mac) : Prop extends Sound mac where
  woken : ∀ i, mac.queues i ≠ [] → mac.wakeups.due i ≠ none

variable {encodedLen : BentPipeMessage → ℕ} {mac : Mac} {index : UInt16}

theorem Awake.but (h : mac.Awake) (index : UInt16) : mac.AwakeBut index :=
  ⟨h.toSound, fun i _ hqueue => h.woken i hqueue⟩

theorem AwakeBut.awake (h : mac.AwakeBut index)
    (hwoken : mac.queues index ≠ [] → mac.wakeups.due index ≠ none) : mac.Awake := by
  refine ⟨h.toSound, fun i hqueue => ?_⟩
  by_cases hi : i = index
  · subst hi
    exact hwoken hqueue
  · exact h.woken i hi hqueue

/-- The queue of the transponder that is left out may change. -/
theorem AwakeBut.queue (h : mac.AwakeBut index) (hknown : (mac.transponders[index]?).isSome = true)
    (queue : List PendingTx) {mac' : Mac} (hstarted : mac'.started = mac.started)
    (htransponders : mac'.transponders = mac.transponders) (hantennas : mac'.antennas = mac.antennas)
    (hqueues : mac'.queues = Function.update mac.queues index queue)
    (hwakeups : mac'.wakeups = mac.wakeups) : mac'.AwakeBut index where
  started := hstarted.trans h.started
  antenna := by
    rw [htransponders, hantennas]
    exact h.antenna
  known i hqueue := by
    rw [htransponders]
    by_cases hi : i = index
    · rwa [hi]
    · rw [hqueues, Function.update_of_ne hi] at hqueue
      exact h.known i hqueue
  woken i hi hqueue := by
    rw [hqueues, Function.update_of_ne hi] at hqueue
    rw [hwakeups]
    exact h.woken i hi hqueue
  live := by
    rw [hwakeups]
    exact h.live

/-! ## Scheduling -/

/-- A wakeup for the transponder that is left out restores the invariant. -/
theorem AwakeBut.scheduleTransmit (h : mac.AwakeBut index) (time : ℤ) :
    (mac.scheduleTransmit index time).Awake := by
  rw [scheduleTransmit_eq, if_pos h.started]
  refine ⟨⟨h.started, h.antenna, h.known, h.live.schedule index time⟩, ?_⟩
  intro i hqueue
  by_cases hi : i = index
  · obtain ⟨w, _, hw⟩ := mac.wakeups.exists_due_schedule index time
    rw [hi]
    exact ne_of_eq_of_ne hw (Option.some_ne_none w)
  · exact Agenda.due_schedule_ne_none (h.woken i hi hqueue)

/-- `drive` asks for a wakeup whenever it leaves packets in the queue. -/
theorem AwakeBut.serve (h : mac.AwakeBut index) {t : FullTransponder}
    (ht : mac.transponders[index]? = some t) (now allowed startOfTransmission : ℤ) :
    (mac.serve encodedLen index t now allowed startOfTransmission).Awake := by
  have hknown : (mac.transponders[index]?).isSome = true := by rw [ht]; rfl
  obtain ⟨after, queue, currentEot, frameSequence, sent, hafter, hserve⟩ :=
    mac.serve_eq encodedLen index t now allowed startOfTransmission
  have hbut : after.AwakeBut index := by
    refine h.queue hknown queue ?_ ?_ ?_ ?_ ?_ <;> rw [hafter]
  rw [hserve]
  cases hqueue : after.queues index with
  | nil =>
      have hnext : after.nextWakeup index t now = none := by rw [nextWakeup, hqueue]; rfl
      rw [hnext]
      exact hbut.awake fun hne => absurd hqueue hne
  | cons front rest =>
      have hnext : ∃ next, after.nextWakeup index t now = some next :=
        ⟨_, by rw [nextWakeup, hqueue]; rfl⟩
      obtain ⟨next, hnext⟩ := hnext
      rw [hnext]
      exact hbut.scheduleTransmit next

/-- **`drive` wakes its transponder**, on each of its ways out. -/
theorem AwakeBut.drive (h : mac.AwakeBut index) (now : ℤ) (expected : Option ℤ)
    (startOfTransmission : ℤ) : (mac.drive encodedLen index now expected startOfTransmission).Awake := by
  unfold Mac.drive
  split
  case h_1 hnone =>
    -- without a transponder there is no queue
    refine h.awake fun hne => absurd (h.known index hne) ?_
    rw [hnone]
    exact Bool.false_ne_true
  case h_2 t ht =>
    rw [if_neg (not_not_intro (h.antenna index t ht))]
    split
    · exact h.serve ht now _ startOfTransmission
    · split
      · exact h.serve ht now _ startOfTransmission
      · exact h.scheduleTransmit _

/-! ## The callbacks -/

theorem Awake.enqueue (h : mac.Awake) (index : UInt16) (packet : OwnedPacket) (readyAt : ℤ) :
    (mac.withState (BentPipe.enqueue mac.state index packet readyAt).state).AwakeBut index := by
  obtain hsame | ⟨-, hknown, queue, packetSequence, heq⟩ :=
    mac.withState_enqueue_cases index packet readyAt
  · rw [hsame]
    exact h.but index
  · refine (h.but index).queue hknown queue ?_ ?_ ?_ ?_ ?_ <;> rw [heq]

theorem Awake.downstream (h : mac.Awake) (priority : UInt8) (info : FfiPacketInfo) (payload : Bytes)
    (now startOfTransmission : ℤ) :
    (mac.downstream encodedLen priority info payload now startOfTransmission).Awake := by
  rcases mac.downstream_cases encodedLen priority info payload now startOfTransmission with
    hsame | ⟨index, packet, hdriven⟩
  · rw [hsame]
    exact h
  · rw [hdriven]
    exact (h.enqueue index packet now).drive now none startOfTransmission

theorem Awake.relay (h : mac.Awake) (index : UInt16) (packet : OwnedPacket) (endOfReception : ℤ)
    (delay : ℕ) (now startOfTransmission : ℤ) :
    (mac.relay encodedLen index packet endOfReception delay now startOfTransmission).Awake := by
  have hbut := h.enqueue index packet (relayTime endOfReception now delay)
  rcases mac.relay_cases encodedLen index packet endOfReception delay now startOfTransmission with
    hsame | hdriven | ⟨-, hwaits⟩
  · rw [hsame]
    exact h
  · rw [hdriven]
    exact hbut.drive now none startOfTransmission
  · rw [hwaits]
    exact hbut.scheduleTransmit _

theorem Awake.upstreamMessage (h : mac.Awake) (index : UInt16) (t : FullTransponder) (r : Reception)
    (m : ReceivedComponent) : (Mac.upstreamMessage encodedLen index t r mac m).Awake := by
  obtain ⟨store, hstored⟩ := Mac.upstreamMessage_cases encodedLen index t r mac m
  have hstore : Awake { mac with reassembly := store } :=
    ⟨⟨h.started, h.antenna, h.known, h.live⟩, h.woken⟩
  rcases hstored with hsame | ⟨-, packet, hrelayed⟩
  · rw [hsame]
    exact hstore
  · rw [hrelayed]
    exact hstore.relay ..

theorem Awake.upstream (h : mac.Awake) (r : Reception) : (mac.upstream encodedLen r).Awake := by
  obtain ⟨receiveEnd, hreceived⟩ := mac.upstream_cases encodedLen r
  have hend : Awake { mac with receiveEnd := receiveEnd } :=
    ⟨⟨h.started, h.antenna, h.known, h.live⟩, h.woken⟩
  rcases hreceived with hsame | ⟨index, t, -, -, hframe⟩
  · rw [hsame]
    exact hend
  · rw [hframe]
    exact List.foldlRecOn r.messages _ hend fun mac hmac m _ => hmac.upstreamMessage index t r m

/-- The callback that is due leaves its transponder without a wakeup, and drives it. -/
theorem Awake.timed (h : mac.Awake) (index : UInt16) (expected now startOfTransmission : ℤ) :
    (mac.timed encodedLen index expected now startOfTransmission).Awake := by
  unfold Mac.timed
  have hlive := h.live.fire index expected
  by_cases hdue : mac.wakeups.due index = some expected
  · have hbut : AwakeBut index { mac with wakeups := (mac.wakeups.fire index expected).1 } := by
      refine ⟨⟨h.started, h.antenna, h.known, hlive⟩, fun i hi hqueue => ?_⟩
      dsimp only
      rw [Agenda.due_fire_of_ne hi]
      exact h.woken i hqueue
    dsimp only
    rw [(Agenda.fire_of_eq hdue).2, if_pos rfl]
    exact hbut.drive now (some expected) startOfTransmission
  · dsimp only
    rw [(Agenda.fire_of_ne hdue).2, if_neg Bool.false_ne_true]
    refine ⟨⟨h.started, h.antenna, h.known, hlive⟩, fun i hqueue => ?_⟩
    dsimp only
    rw [(Agenda.fire_of_ne hdue).1]
    exact h.woken i hqueue

theorem Awake.check (h : mac.Awake) (now : ℤ) : (mac.check now).Awake := by
  unfold Mac.check
  split
  · exact ⟨⟨h.started, h.antenna, h.known, h.live⟩, h.woken⟩
  · exact h

/-! ## Updates of the running configuration -/

/-- What an update of a running layer leaves as it is: antennas, queues and wakeups, which
transponders there are, and the antennas these transmit with. -/
structure Reconfigured (mac mac' : Mac) : Prop where
  started : mac'.started = mac.started
  antennas : mac'.antennas = mac.antennas
  queues : mac'.queues = mac.queues
  wakeups : mac'.wakeups = mac.wakeups
  transponder : ∀ i : UInt16, (mac'.transponders[i]?).map FullTransponder.transmitAntennaIndex =
    (mac.transponders[i]?).map FullTransponder.transmitAntennaIndex

theorem Reconfigured.refl (mac : Mac) : mac.Reconfigured mac := ⟨rfl, rfl, rfl, rfl, fun _ => rfl⟩

theorem Reconfigured.trans {a b c : Mac} (h : a.Reconfigured b) (h' : b.Reconfigured c) :
    a.Reconfigured c where
  started := h'.started.trans h.started
  antennas := h'.antennas.trans h.antennas
  queues := h'.queues.trans h.queues
  wakeups := h'.wakeups.trans h.wakeups
  transponder i := (h'.transponder i).trans (h.transponder i)

theorem Awake.reconfigured (h : mac.Awake) {mac' : Mac} (hre : mac.Reconfigured mac') :
    mac'.Awake := by
  have hsome (i : UInt16) :
      (mac'.transponders[i]?).isSome = (mac.transponders[i]?).isSome := by
    have := congrArg Option.isSome (hre.transponder i)
    rwa [Option.isSome_map, Option.isSome_map] at this
  refine ⟨⟨hre.started.trans h.started, ?_, ?_, ?_⟩, ?_⟩
  · intro i t' ht'
    have hmap := hre.transponder i
    rw [ht', Option.map_some] at hmap
    obtain ⟨t, ht, hantenna⟩ := Option.map_eq_some_iff.mp hmap.symm
    rw [hre.antennas, ← hantenna]
    exact h.antenna i t ht
  · intro i hqueue
    rw [hre.queues] at hqueue
    rw [hsome]
    exact h.known i hqueue
  · rw [hre.wakeups]
    exact h.live
  · intro i hqueue
    rw [hre.queues] at hqueue
    rw [hre.wakeups]
    exact h.woken i hqueue

end Mac

theorem Setting.apply_transmitAntennaIndex {setting : Setting} (h : setting.modifiable = true)
    (t : FullTransponder) : (setting.apply t).transmitAntennaIndex = t.transmitAntennaIndex := by
  cases setting with
  | receiveBandwidth | receiveAntenna _ | receiveAction _ | transmitBandwidth | transmitAntenna _
  | tosMap _ => cases h
  | _ => rfl

/-- A running layer redefines antennas it has. -/
theorem defineAntennas_started (known : List UInt16) (indices : List (Option UInt16))
    {antennas : List UInt16} (h : defineAntennas true known known indices = some antennas) :
    antennas = known := by
  induction indices with
  | nil => exact (Option.some.inj h).symm
  | cons index rest ih =>
      cases index with
      | none => cases h
      | some index =>
          rw [defineAntennas] at h
          by_cases hmem : index ∈ known
          · simp only [Bool.true_and, Bool.not_true, Bool.false_and, Bool.false_eq_true, if_false,
              List.contains_iff_mem.mpr hmem, List.insert_of_mem hmem] at h
            exact ih h
          · simp [hmem] at h

namespace Mac

variable {encodedLen : BentPipeMessage → ℕ} {mac : Mac}

/-- A transponder that is there takes a value. -/
theorem reconfigured_insert {index : UInt16} {t t' : FullTransponder}
    (ht : mac.transponders[index]? = some t)
    (hantenna : t'.transmitAntennaIndex = t.transmitAntennaIndex) :
    mac.Reconfigured { mac with transponders := mac.transponders.insert index t' } := by
  refine ⟨rfl, rfl, rfl, rfl, fun i => ?_⟩
  dsimp only
  rw [ExtTreeMap.getElem?_insert]
  split
  next hi =>
    obtain rfl := Std.LawfulEqCmp.eq_of_compare hi
    rw [ht, Option.map_some, Option.map_some, hantenna]
  · rfl

theorem reconfigured_configureEntries (entries : List Entry) (hstarted : mac.started = true)
    (hmod : (Item.transponder entries).modifiable = true) :
    mac.Reconfigured (mac.configureEntries entries).1 := by
  induction entries generalizing mac with
  | nil => exact .refl mac
  | cons entry rest ih =>
      rw [Item.modifiable, List.all_cons, Bool.and_eq_true] at hmod
      obtain ⟨hentry, hrest⟩ := hmod
      match entry, hentry with
      | none, _ => exact .refl mac
      | some (index, value), hentry =>
          rw [configureEntries]
          split
          · exact .refl mac
          next hcontains =>
            have hsome : (mac.transponders[index]?).isSome = true := by
              rw [← ExtTreeMap.contains_eq_isSome_getElem?]
              simpa [hstarted] using hcontains
            obtain ⟨t, ht⟩ := Option.isSome_iff_exists.mp hsome
            have hget : mac.transponders.getD index default = t := by
              rw [ExtTreeMap.getD_eq_getD_getElem?, ht, Option.getD_some]
            dsimp only
            rw [hget]
            cases value with
            | none => exact reconfigured_insert ht rfl
            | some setting =>
                have hone := reconfigured_insert ht (setting.apply_transmitAntennaIndex hentry t)
                exact hone.trans (ih (hone.started.trans hstarted) hrest)

theorem reconfigured_configureItem (item : Item) (hstarted : mac.started = true)
    (hmod : item.modifiable = true) : mac.Reconfigured (mac.configureItem item).1 := by
  cases item with
  | transponder entries => exact reconfigured_configureEntries entries hstarted hmod
  | antennaDefines indices =>
      rw [configureItem]
      split
      next antennas hdefine =>
        rw [hstarted, if_pos rfl] at hdefine
        rw [defineAntennas_started _ indices hdefine]
        exact .refl mac
      · exact .refl mac
  | _ => cases hmod

theorem reconfigured_configureItems (items : List Item) (hstarted : mac.started = true)
    (hmod : items.all Item.modifiable = true) : mac.Reconfigured (mac.configureItems items).1 := by
  induction items generalizing mac with
  | nil => exact .refl mac
  | cons item rest ih =>
      rw [List.all_cons, Bool.and_eq_true] at hmod
      obtain ⟨hitem, hrest⟩ := hmod
      have hone := reconfigured_configureItem item hstarted hitem
      rw [configureItems]
      split
      · exact hone.trans (ih (hone.started.trans hstarted) hrest)
      · exact hone

/-! ## A layer that does not run -/

/-- A layer that does not run: packets may be queued for its own transponders, and no wakeup is entered. -/
structure Quiet (mac : Mac) : Prop where
  started : mac.started = false
  known : ∀ i, mac.queues i ≠ [] → (mac.transponders[i]?).isSome = true
  due : ∀ i, mac.wakeups.due i = none

/-- The queue of a transponder may change. -/
theorem Quiet.queue (h : mac.Quiet) {index : UInt16} (hknown : (mac.transponders[index]?).isSome = true)
    (queue : List PendingTx) {mac' : Mac} (hstarted : mac'.started = mac.started)
    (htransponders : mac'.transponders = mac.transponders)
    (hqueues : mac'.queues = Function.update mac.queues index queue)
    (hwakeups : mac'.wakeups = mac.wakeups) : mac'.Quiet where
  started := hstarted.trans h.started
  known i hqueue := by
    rw [htransponders]
    by_cases hi : i = index
    · rwa [hi]
    · rw [hqueues, Function.update_of_ne hi] at hqueue
      exact h.known i hqueue
  due i := by
    rw [hwakeups]
    exact h.due i

theorem Quiet.scheduleTransmit_eq (h : mac.Quiet) (index : UInt16) (time : ℤ) :
    mac.scheduleTransmit index time = mac := by
  rw [Mac.scheduleTransmit, h.started, if_neg Bool.false_ne_true]

theorem Quiet.serve (h : mac.Quiet) {index : UInt16} {t : FullTransponder}
    (ht : mac.transponders[index]? = some t) (now allowed startOfTransmission : ℤ) :
    (mac.serve encodedLen index t now allowed startOfTransmission).Quiet := by
  have hknown : (mac.transponders[index]?).isSome = true := by rw [ht]; rfl
  obtain ⟨after, queue, currentEot, frameSequence, sent, hafter, hserve⟩ :=
    mac.serve_eq encodedLen index t now allowed startOfTransmission
  have hquiet : after.Quiet := by
    refine h.queue hknown queue ?_ ?_ ?_ ?_ <;> rw [hafter]
  rw [hserve]
  cases after.nextWakeup index t now with
  | none => exact hquiet
  | some next =>
      rw [scheduleNext, hquiet.scheduleTransmit_eq]
      exact hquiet

theorem Quiet.drive (h : mac.Quiet) (index : UInt16) (now : ℤ) (expected : Option ℤ)
    (startOfTransmission : ℤ) : (mac.drive encodedLen index now expected startOfTransmission).Quiet := by
  unfold Mac.drive
  split
  · exact h
  next t ht =>
    split
    · exact h
    split
    · exact h.serve ht now _ startOfTransmission
    · split
      · exact h.serve ht now _ startOfTransmission
      · rw [h.scheduleTransmit_eq]
        exact h

theorem Quiet.enqueue (h : mac.Quiet) (index : UInt16) (packet : OwnedPacket) (readyAt : ℤ) :
    (mac.withState (BentPipe.enqueue mac.state index packet readyAt).state).Quiet := by
  obtain hsame | ⟨-, hknown, queue, packetSequence, heq⟩ :=
    mac.withState_enqueue_cases index packet readyAt
  · rw [hsame]
    exact h
  · refine h.queue hknown queue ?_ ?_ ?_ ?_ <;> rw [heq]

theorem Quiet.downstream (h : mac.Quiet) (priority : UInt8) (info : FfiPacketInfo) (payload : Bytes)
    (now startOfTransmission : ℤ) :
    (mac.downstream encodedLen priority info payload now startOfTransmission).Quiet := by
  rcases mac.downstream_cases encodedLen priority info payload now startOfTransmission with
    hsame | ⟨index, packet, hdriven⟩
  · rw [hsame]
    exact h
  · rw [hdriven]
    exact (h.enqueue index packet now).drive index now none startOfTransmission

theorem Quiet.relay (h : mac.Quiet) (index : UInt16) (packet : OwnedPacket) (endOfReception : ℤ)
    (delay : ℕ) (now startOfTransmission : ℤ) :
    (mac.relay encodedLen index packet endOfReception delay now startOfTransmission).Quiet := by
  have hqueued := h.enqueue index packet (relayTime endOfReception now delay)
  rcases mac.relay_cases encodedLen index packet endOfReception delay now startOfTransmission with
    hsame | hdriven | ⟨-, hwaits⟩
  · rw [hsame]
    exact h
  · rw [hdriven]
    exact hqueued.drive index now none startOfTransmission
  · rw [hwaits, hqueued.scheduleTransmit_eq]
    exact hqueued

theorem Quiet.upstreamMessage (h : mac.Quiet) (index : UInt16) (t : FullTransponder) (r : Reception)
    (m : ReceivedComponent) : (Mac.upstreamMessage encodedLen index t r mac m).Quiet := by
  obtain ⟨store, hstored⟩ := Mac.upstreamMessage_cases encodedLen index t r mac m
  have hstore : Quiet { mac with reassembly := store } := ⟨h.started, h.known, h.due⟩
  rcases hstored with hsame | ⟨-, packet, hrelayed⟩
  · rw [hsame]
    exact hstore
  · rw [hrelayed]
    exact hstore.relay ..

theorem Quiet.upstream (h : mac.Quiet) (r : Reception) : (mac.upstream encodedLen r).Quiet := by
  obtain ⟨receiveEnd, hreceived⟩ := mac.upstream_cases encodedLen r
  have hend : Quiet { mac with receiveEnd := receiveEnd } := ⟨h.started, h.known, h.due⟩
  rcases hreceived with hsame | ⟨index, t, -, -, hframe⟩
  · rw [hsame]
    exact hend
  · rw [hframe]
    exact List.foldlRecOn r.messages _ hend fun mac hmac m _ => hmac.upstreamMessage index t r m

/-- No callback is due. -/
theorem Quiet.timed (h : mac.Quiet) (index : UInt16) (expected now startOfTransmission : ℤ) :
    (mac.timed encodedLen index expected now startOfTransmission).Quiet := by
  have hdue : mac.wakeups.due index ≠ some expected := by
    rw [h.due]
    exact (Option.some_ne_none expected).symm
  obtain ⟨hsame, hnot⟩ := Agenda.fire_of_ne hdue
  unfold Mac.timed
  dsimp only
  rw [hnot, if_neg Bool.false_ne_true]
  refine ⟨h.started, h.known, fun i => ?_⟩
  dsimp only
  rw [hsame]
  exact h.due i

theorem Quiet.configureEntries (h : mac.Quiet) (entries : List Entry) :
    (mac.configureEntries entries).1.Quiet := by
  have hinsert {mac : Mac} (h : mac.Quiet) (index : UInt16) (t : FullTransponder) :
      Quiet { mac with transponders := mac.transponders.insert index t } := by
    refine ⟨h.started, fun i hqueue => ?_, h.due⟩
    rw [ExtTreeMap.getElem?_insert]
    split
    · rfl
    · exact h.known i hqueue
  induction entries generalizing mac with
  | nil => exact h
  | cons entry rest ih =>
      rcases entry with _ | ⟨index, value⟩
      · exact h
      · rw [Mac.configureEntries]
        split
        · exact h
        dsimp only
        cases value with
        | none => exact hinsert h index _
        | some setting => exact ih (hinsert h index _)

theorem Quiet.configureItem (h : mac.Quiet) (item : Item) : (mac.configureItem item).1.Quiet := by
  cases item with
  | transponder entries => exact h.configureEntries entries
  | antennaDefines indices =>
      rw [Mac.configureItem]
      split
      · exact ⟨h.started, h.known, h.due⟩
      · exact h
  | pcrCurveUri | fragmentCheckThreshold => exact h
  | queueDepth depth =>
      cases depth with
      | none => exact h
      | some depth =>
          rw [Mac.configureItem]
          split
          · exact h
          · exact ⟨h.started, h.known, h.due⟩
  | fragmentationEnable value | aggregationEnable value | fragmentTimeoutThreshold value =>
      cases value with
      | none => exact h
      | some value => exact ⟨h.started, h.known, h.due⟩

theorem Quiet.configureItems (h : mac.Quiet) (items : List Item) : (mac.configureItems items).1.Quiet := by
  induction items generalizing mac with
  | nil => exact h
  | cons item rest ih =>
      rw [Mac.configureItems]
      split
      · exact ih (h.configureItem item)
      · exact h.configureItem item

/-- **No event but a start ends the quiet.** -/
theorem Quiet.step (h : mac.Quiet) {event : Event} (hevent : ∀ receiveSide, event ≠ .start receiveSide) :
    (mac.step encodedLen event).Quiet := by
  cases event with
  | downstream priority info payload now startOfTransmission =>
      exact h.downstream priority info payload now startOfTransmission
  | upstream reception => exact h.upstream reception
  | timed index expected now startOfTransmission =>
      exact h.timed index expected now startOfTransmission
  | check now =>
      change (mac.check now).Quiet
      rw [Mac.check, h.started, if_neg Bool.false_ne_true]
      exact h
  | configure receiveSide items =>
      rw [Mac.step]
      split
      · exact h.configureItems items
      · exact h
  | start receiveSide => exact absurd rfl (hevent receiveSide)
  | stop => exact ⟨rfl, fun _ hqueue => absurd rfl hqueue, fun _ => rfl⟩

theorem Stopped.quiet (h : mac.Stopped) : mac.Quiet where
  started := h.started
  known i hqueue := absurd (h.queues i) hqueue
  due i := by
    rw [h.wakeups]
    rfl

/-! ## Whole runs -/

/-- **Every event but a stop keeps the layer awake.** -/
theorem Awake.step (h : mac.Awake) {event : Event} (hevent : event ≠ .stop) :
    (mac.step encodedLen event).Awake := by
  cases event with
  | downstream priority info payload now startOfTransmission =>
      exact h.downstream priority info payload now startOfTransmission
  | upstream reception => exact h.upstream reception
  | timed index expected now startOfTransmission =>
      exact h.timed index expected now startOfTransmission
  | check now => exact h.check now
  | configure receiveSide items =>
      rw [Mac.step]
      split
      next hmod => exact h.reconfigured (reconfigured_configureItems items h.started hmod)
      · exact h
  | start receiveSide =>
      rw [Mac.step, Mac.start]
      split
      · exact h
      · exact ⟨⟨rfl, h.antenna, h.known, h.live⟩, h.woken⟩
  | stop => exact absurd rfl hevent

/-- A layer that starts over empty queues is awake. -/
theorem Quiet.awake (h : mac.Quiet) {receiveSide : Bool} (hstart : (mac.start receiveSide).2 = true)
    (hempty : ∀ i, mac.queues i = []) : (mac.start receiveSide).1.Awake := by
  obtain ⟨heq, hacceptable⟩ := mac.start_eq hstart
  rw [heq]
  refine ⟨⟨rfl, fun i t ht => ?_, fun i hqueue => absurd (hempty i) hqueue, fun i time hdue => ?_⟩,
    fun i hqueue => absurd (hempty i) hqueue⟩
  · exact FullTransponder.acceptable_antenna (mac.acceptable_of_getElem? hacceptable ht)
  · have hnone := h.due i
    rw [show mac.wakeups.due i = some time from hdue] at hnone
    cases hnone

/-- While the layer runs, a transponder with packets in its queue has a wakeup in the table, and the
framework holds the callback with that time. -/
def Woken (mac : Mac) : Prop :=
  mac.started = true → ∀ index, mac.queues index ≠ [] →
    ∃ time, mac.wakeups.due index = some time ∧ (index, time) ∈ mac.wakeups.pending

theorem Awake.isWoken (h : mac.Awake) : mac.Woken := by
  intro _ index hqueue
  obtain ⟨time, htime⟩ := Option.ne_none_iff_exists'.mp (h.woken index hqueue)
  exact ⟨time, htime, h.live index time htime⟩

end Mac

/-- A start of a layer that does not run fails, or it finds the queues empty. -/
def Event.StartsEmpty (mac : Mac) : Event → Prop
  | .start receiveSide =>
      mac.started = false → (mac.start receiveSide).2 = true → ∀ index, mac.queues index = []
  | _ => True

namespace Mac

variable {encodedLen : BentPipeMessage → ℕ} {mac : Mac}

theorem Quiet.start (h : mac.Quiet) {receiveSide : Bool}
    (hempty : (Event.start receiveSide).StartsEmpty mac) :
    (mac.step encodedLen (.start receiveSide)).Awake ∨ (mac.step encodedLen (.start receiveSide)).Quiet := by
  cases hstart : (mac.start receiveSide).2 with
  | true => exact .inl (h.awake hstart (hempty h.started hstart))
  | false =>
      rw [Mac.step]
      unfold Mac.start at hstart ⊢
      split at hstart
      next hrefused =>
        rw [if_pos hrefused]
        exact .inr h
      · cases hstart

/-- A running layer is awake, one that does not run is quiet, as long as starts find empty queues. -/
theorem awake_or_quiet_step (h : mac.Awake ∨ mac.Quiet) {event : Event} (hempty : event.StartsEmpty mac) :
    (mac.step encodedLen event).Awake ∨ (mac.step encodedLen event).Quiet := by
  rcases h with hawake | hquiet
  · by_cases hstop : event = .stop
    · subst hstop
      exact .inr ⟨rfl, fun _ hqueue => absurd rfl hqueue, fun _ => rfl⟩
    · exact .inl (hawake.step hstop)
  · by_cases hstart : ∃ receiveSide, event = .start receiveSide
    · obtain ⟨receiveSide, rfl⟩ := hstart
      exact hquiet.start hempty
    · exact .inr (hquiet.step fun receiveSide heq => hstart ⟨receiveSide, heq⟩)

/-- A start over a queue with packets leaves them without a wakeup. -/
theorem startsEmpty_of_woken (h : mac.Awake ∨ mac.Quiet) {event : Event}
    (hwoken : (mac.step encodedLen event).Woken) : event.StartsEmpty mac := by
  cases event with
  | downstream | upstream | timed | check | configure | stop => trivial
  | start receiveSide =>
      intro hnot hstart index
      have hquiet : mac.Quiet := h.resolve_left fun hawake => by
        rw [hawake.started] at hnot
        cases hnot
      by_contra hqueue
      rw [Mac.step, (mac.start_eq hstart).1] at hwoken
      obtain ⟨time, hdue, -⟩ := hwoken rfl index hqueue
      rw [show mac.wakeups.due index = none from hquiet.due index] at hdue
      cases hdue

/-- **No lost wakeup.** In every run, with starts and stops, packets, frames, callbacks and updates of the
configuration in any order: in each of its states a running layer has a wakeup for every transponder with
packets in its queue, exactly if each start of a layer that did not run found the queues empty. -/
theorem queued_has_wakeup_iff (encodedLen : BentPipeMessage → ℕ) (hstopped : mac.Stopped)
    (events : List Event) :
    Throughout (Mac.step encodedLen) Woken mac events ↔
      StepsMeet (Mac.step encodedLen) (fun mac event => event.StartsEmpty mac) mac events := by
  refine throughout_iff_of_keeps (P := fun mac => mac.Awake ∨ mac.Quiet) ?_ ?_ ?_
    (.inr hstopped.quiet) events
  · rintro mac (hawake | hquiet)
    · exact hawake.isWoken
    · intro hstarted
      rw [hquiet.started] at hstarted
      cases hstarted
  · exact fun mac event h hempty => awake_or_quiet_step h hempty
  · exact fun mac event h hwoken => startsEmpty_of_woken h hwoken

/-- A packet waits for a slot, the data rate is halved, a callback comes that is out of date, and the layer
is stopped and started again. -/
def slottedRun : List Event :=
  [.start true, .downstream 0 ⟨1, 2⟩ [1, 2, 3] 5 5,
    .configure true [.transponder [some (3, some (.dataRate 4000000))]], .timed 3 7 9 9, .stop, .start true]

theorem queued_has_wakeup_slotted :
    let mac := (slotMac .process [0]).run BentPipeMessage.encodedLen (slottedRun.take 4)
    Throughout (Mac.step BentPipeMessage.encodedLen) Woken (slotMac .process [0]) slottedRun ∧
      mac.started = true ∧ mac.queues 3 ≠ [] := by
  refine ⟨(queued_has_wakeup_iff BentPipeMessage.encodedLen (slotMac_stopped .process [0]) _).mpr ?_,
    by decide +kernel, by decide +kernel⟩
  exact ⟨fun _ _ _ => rfl, trivial, trivial, trivial, trivial, fun _ _ _ => rfl, trivial⟩

/-- A packet comes before the start. -/
def earlyPacket : List Event := [.downstream 0 ⟨1, 2⟩ [1, 2, 3] 5 5, .start true]

/-- **A packet that comes before the start** stays in its queue without a wakeup: while the layer does not
run none is entered, and the start does not drive the transponder. -/
theorem early_packet_has_no_wakeup :
    ¬ Throughout (Mac.step BentPipeMessage.encodedLen) Woken (slotMac .process [0]) earlyPacket := by
  rintro ⟨-, -, hwoken⟩
  have hstate : ((slotMac .process [0]).run BentPipeMessage.encodedLen earlyPacket).started = true ∧
      ((slotMac .process [0]).run BentPipeMessage.encodedLen earlyPacket).queues 3 ≠ [] ∧
      ((slotMac .process [0]).run BentPipeMessage.encodedLen earlyPacket).wakeups.due 3 = none := by
    decide +kernel
  obtain ⟨hstarted, hqueue, hdue⟩ := hstate
  obtain ⟨time, htime, -⟩ := hwoken hstarted 3 hqueue
  exact Option.some_ne_none time (htime.symm.trans hdue)

end Mac

end Emane.BentPipe
