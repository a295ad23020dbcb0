import Mathlib
import Emane.PluginApi.Properties
import Emane.Tdma.Slots

set_option autoImplicit false

/-! # Frames and their slots

The components of a frame fit into the part of its slot that is not overhead, and so does the duration
announced for it. A receiver with slots of the same duration, to which the frame comes with a delay of
no more than the overhead, therefore finds that the reception ends in the slot of the frame
(`frames_fit_slot`).

Times are 64-bit numbers and their sums saturate, so this fails for one slot: the reception of a frame
whose slot starts in the last microsecond that there is ends in the slot before (`last_slot_too_long`).
-/

namespace Emane.Tdma

open Emane.Lib
open Emane.PluginApi (F64 TxProperties RxFrequencySegments)

/-! ## Announcing a frame -/

/-- The bytes of components. -/
def componentBytes (items : List Transmission) : ℕ := (items.map fun item => item.bytes.length).sum

/-- `tx_properties`. The rate is not zero: nothing is taken for a slot without capacity. -/
def txProperties (transmission : Transmission) (componentBytes slotDurationUs : ℕ) : TxProperties where
  frequencyHz := UInt64.ofNat transmission.frequency
  bandwidthHz := UInt64.ofNat transmission.bandwidth
  txPowerDbm := transmission.power
  durationMicroseconds :=
    UInt64.ofNat (min (componentBytes * 8000000 / transmission.rate) (slotDurationUs - 1))
  offsetMicroseconds := 0
  txTimeMicroseconds := Int64.ofInt transmission.txTime
  antennaIndex := 0
  spectralMaskIndex := 0
  subId := 0

/-- The properties that `transmit_slot` announces for what it takes, if it takes anything. -/
def announce (reaches : ℕ → ℕ → Bool) (state : State) (absoluteSlot : ℕ) : Option TxProperties :=
  match state.schedule with
  | none => none
  | some schedule =>
      match schedule.slot absoluteSlot with
      | .rx _ => none
      | .idle => none
      | .tx _ dataRateBps _ _ _ =>
          let items := (fillSlot reaches absoluteSlot (schedule.capacity dataRateBps) 0 state).items
          items.head?.map fun first =>
            txProperties first (componentBytes items) schedule.slotDurationUs

/-- What `transmit_slot` hands to the layer below: a frame and the properties announced for it. -/
def handDown (encodedLen : TdmaBaseModelMessage → ℕ) (reaches : ℕ → ℕ → Bool) (state : State)
    (absoluteSlot : ℕ) (now : ℤ) : Option (Frame × TxProperties) :=
  (transmitSlot encodedLen reaches state absoluteSlot now).frame.bind fun frame =>
    (announce reaches state absoluteSlot).map fun tx => (frame, tx)

/-- The bytes of the components of a frame. -/
def Frame.bytes (frame : Frame) : ℕ := (frame.components.map fun component => component.bytes.length).sum

/-- A frame is made of what the loop of `transmit_slot` takes for a current transmit slot. -/
theorem transmitSlot_frame {encodedLen : TdmaBaseModelMessage → ℕ} {reaches : ℕ → ℕ → Bool}
    {state : State} {absoluteSlot : ℕ} {now : ℤ} {frame : Frame}
    (h : (transmitSlot encodedLen reaches state absoluteSlot now).frame = some frame) :
    ∃ schedule frequencyHz dataRateBps serviceClass powerDbm destination first rest,
      state.schedule = some schedule ∧ schedule.absoluteSlot now = absoluteSlot ∧
      schedule.slot absoluteSlot = .tx frequencyHz dataRateBps serviceClass powerDbm destination ∧
      (fillSlot reaches absoluteSlot (schedule.capacity dataRateBps) 0 state).items =
        first :: rest ∧
      frame.absoluteSlot = absoluteSlot ∧ frame.rate = first.rate ∧
      frame.components = (first :: rest).map Transmission.toComponent := by
  unfold transmitSlot at h
  split at h
  · cases h
  next schedule hschedule =>
  split at h
  · cases h
  next hcurrent =>
  split at h
  · cases h
  · cases h
  next frequencyHz dataRateBps serviceClass powerDbm destination hslot =>
  dsimp only at h
  split at h
  · cases h
  next first rest hitems =>
  refine ⟨schedule, frequencyHz, dataRateBps, serviceClass, powerDbm, destination, first, rest,
    hschedule, not_not.mp hcurrent, hslot, hitems, ?_⟩
  split at h
  · cases h
    exact ⟨rfl, rfl, rfl⟩
  · cases h

/-! ## What fits into a slot -/

theorem Drops.schedule {state after : State} (h : Drops state after) :
    after.schedule = state.schedule := by
  induction h with
  | refl state => rfl
  | step index position _ _ ih =>
      rw [ih, State.returnToken]
      split <;> rfl

theorem Takes.schedule {state after : State} {component : Component}
    (h : Takes state after component) : after.schedule = state.schedule := by
  obtain ⟨index, position, front, take, -, -, -, rfl, -⟩ := h
  unfold State.takeFrom
  split
  · rfl
  · unfold State.returnToken
    split <;> rfl

theorem takeTransmission_schedule (state : State) (absoluteSlot used : ℕ) :
    (takeTransmission state absoluteSlot used).state.schedule = state.schedule := by
  obtain ⟨mid, hdrops, hnone, hsome⟩ := takeTransmission_spec state absoluteSlot used
  cases htransmission : (takeTransmission state absoluteSlot used).transmission with
  | none => rw [hnone htransmission, hdrops.schedule]
  | some item => rw [(hsome item htransmission).schedule, hdrops.schedule]

section

variable {state : State} {schedule : ValidSchedule} {absoluteSlot frequencyHz dataRateBps : ℕ}
  {serviceClass : ℕ} {powerDbm : F64} {destination : UInt16}

/-- A component fits into what is left of the slot, and has the rate and the start of the slot. -/
theorem takeTransmission_fits (hschedule : state.schedule = some schedule)
    (hslot : schedule.slot absoluteSlot =
      .tx frequencyHz dataRateBps serviceClass powerDbm destination)
    {used : ℕ} {item : Transmission}
    (hitem : (takeTransmission state absoluteSlot used).transmission = some item) :
    item.rate = dataRateBps ∧ item.txTime = schedule.slotStart absoluteSlot ∧
      used + item.bytes.length ≤ schedule.capacity dataRateBps := by
  fun_induction takeTransmission state absoluteSlot used with
  | case1 => cases hitem
  | case2 => cases hitem
  | case3 => cases hitem
  | case4 => cases hitem
  | case5 => cases hitem
  | case6 => cases hitem
  | case7 state schedule' hschedule' _ _ _ _ _ _ index _ available _ position h front remaining _ _ r ih =>
      refine ih ?_ hitem
      rw [State.returnToken]
      split <;> exact hschedule
  | case8 state schedule' hschedule' _ _ _ _ _ hslot' index _ available havailable position h front
        remaining _ take =>
      -- the schedule and the slot are the given ones
      rw [hschedule] at hschedule'
      cases hschedule'
      rw [hslot] at hslot'
      cases hslot'
      cases hitem
      refine ⟨rfl, rfl, ?_⟩
      have hle : (front.component take).bytes.length ≤ take := by
        simp [QueuedPacket.component]
      have htake : take ≤ schedule.capacity dataRateBps - used := Nat.min_le_right ..
      change used + (front.component take).bytes.length ≤ _
      omega
  | case9 => cases hitem

/-- **Everything taken for a slot fits into it.** -/
theorem fillSlot_fits (hschedule : state.schedule = some schedule)
    (hslot : schedule.slot absoluteSlot =
      .tx frequencyHz dataRateBps serviceClass powerDbm destination)
    (reaches : ℕ → ℕ → Bool) {capacity used : ℕ} (hused : used ≤ schedule.capacity dataRateBps) :
    let items := (fillSlot reaches absoluteSlot capacity used state).items
    used + componentBytes items ≤ schedule.capacity dataRateBps ∧
      ∀ item ∈ items, item.rate = dataRateBps ∧ item.txTime = schedule.slotStart absoluteSlot := by
  fun_induction fillSlot reaches absoluteSlot capacity used state with
  | case1 used state hnone => exact ⟨hused, by simp⟩
  | case2 used state item hitem used' hstop =>
      obtain ⟨hrate, htime, hfits⟩ := takeTransmission_fits hschedule hslot hitem
      exact ⟨by simpa [componentBytes] using hfits, by simpa using ⟨hrate, htime⟩⟩
  | case3 used state item hitem used' hstop r ih =>
      -- what is used so far is within the capacity, and this is what the loop goes on with
      obtain ⟨hrate, htime, hfits⟩ := takeTransmission_fits hschedule hslot hitem
      obtain ⟨hsum, hothers⟩ := ih ((takeTransmission_schedule ..).trans hschedule) hfits
      refine ⟨?_, List.forall_mem_cons.mpr ⟨⟨hrate, htime⟩, hothers⟩⟩
      calc used + componentBytes (item :: r.items)
          = used' + componentBytes r.items := (Nat.add_assoc ..).symm
        _ ≤ schedule.capacity dataRateBps := hsum

/-- Bytes that fit into a time are sent in that time. -/
theorem airtime_le {bytes rate time : ℕ} (h : bytes ≤ rate * time / 8000000) :
    bytes * 8000000 / rate ≤ time := by
  apply Nat.div_le_of_le_mul
  calc bytes * 8000000 ≤ rate * time / 8000000 * 8000000 := Nat.mul_le_mul_right _ h
    _ ≤ rate * time := Nat.div_mul_le_self ..

/-- **A frame fits into its slot**, and the duration announced for it says so. -/
theorem handDown_fits {encodedLen : TdmaBaseModelMessage → ℕ} {reaches : ℕ → ℕ → Bool} {now : ℤ}
    {frame : Frame} {tx : TxProperties} (hschedule : state.schedule = some schedule)
    (hduration : schedule.slotDurationUs < 2 ^ 64)
    (hdown : handDown encodedLen reaches state absoluteSlot now = some (frame, tx)) :
    schedule.absoluteSlot now = absoluteSlot ∧ frame.absoluteSlot = absoluteSlot ∧
      (∃ frequencyHz serviceClass powerDbm destination, schedule.slot absoluteSlot =
        .tx frequencyHz frame.rate serviceClass powerDbm destination) ∧
      frame.bytes ≤ frame.rate * (schedule.slotDurationUs - schedule.overheadUs) / 8000000 ∧
      tx.durationMicroseconds.toNat =
        min (frame.bytes * 8000000 / frame.rate) (schedule.slotDurationUs - 1) ∧
      tx.txTimeMicroseconds = Int64.ofInt (schedule.slotStart absoluteSlot) := by
  obtain ⟨frame', hframe, hmap⟩ := Option.bind_eq_some_iff.mp hdown
  obtain ⟨tx', htx, hpair⟩ := Option.map_eq_some_iff.mp hmap
  obtain ⟨rfl, rfl⟩ := Prod.mk.inj hpair
  obtain ⟨schedule', frequencyHz, dataRateBps, serviceClass, powerDbm, destination, first, others,
    hschedule', hcurrent, hslot, hitems, habsolute, hrate, hcomponents⟩ := transmitSlot_frame hframe
  obtain rfl := Option.some.inj (hschedule.symm.trans hschedule')
  obtain ⟨hsum, hall⟩ := fillSlot_fits hschedule hslot reaches
    (Nat.zero_le (schedule.capacity dataRateBps))
  rw [hitems] at hsum hall
  obtain ⟨hfirst, htime⟩ := hall first List.mem_cons_self
  have hbytes : frame'.bytes = componentBytes (first :: others) := by
    rw [Frame.bytes, hcomponents, List.map_map]
    rfl
  have htx' : tx' = txProperties first (componentBytes (first :: others)) schedule.slotDurationUs := by
    simp only [announce, hschedule, hslot, hitems, List.head?_cons, Option.map_some,
      Option.some.injEq] at htx
    exact htx.symm
  rw [hrate, hfirst, hbytes]
  refine ⟨hcurrent, habsolute, ⟨frequencyHz, serviceClass, powerDbm, destination, hslot⟩, ?_, ?_, ?_⟩
  · rw [Nat.zero_add] at hsum
    exact hsum.trans (Nat.min_le_left ..)
  · rw [htx', ← hfirst]
    refine UInt64.toNat_ofNat_of_lt' ((Nat.min_le_right ..).trans_lt ?_)
    exact (Nat.sub_le ..).trans_lt hduration
  · rw [htx', txProperties, htime]

end

/-! ## The end of a reception -/

/-- The slot in which a reception ends, by the test of `upstream`. -/
def ValidSchedule.endSlot (schedule : ValidSchedule) (rx : RxProperties)
    (segments : Option RxFrequencySegments) : ℕ :=
  let query := FfiSpectrumQuery.fromRx rx (segments.bind fun value => value.segments.head?)
  schedule.absoluteSlot (lastReceptionMicrosecond query.startTimeMicroseconds rx)

/-- Only a frame that does not end in its slot is too long. -/
theorem Layer.admits_tooLong {layer : Layer} {arrival : Arrival} {now : ℤ} {rx : RxProperties}
    {schedule : ValidSchedule} (hschedule : layer.schedule = some schedule)
    (hrx : arrival.rx = some rx) (h : layer.admits arrival now = .error .tooLong) :
    schedule.endSlot rx arrival.segments ≠ arrival.wire.absoluteSlotIndex := by
  unfold admits at h
  rw [hschedule, hrx] at h
  split at h
  · cases h
  split at h
  · cases h
  · cases h
  next hsome =>
  cases hsome
  split at h
  · cases h
  split at h
  · cases h
  dsimp only at h
  split at h
  · assumption
  -- the later tests find other errors
  split at h
  · cases h
  split at h
  · cases h
  · cases h
  split at h
  · cases h
  · cases h

section

variable {schedule : ValidSchedule} {slot : ℕ}

theorem ValidSchedule.absoluteSlot_eq {time : ℤ} (hstart : (slot * schedule.slotDurationUs : ℕ) ≤ time)
    (hend : time < ((slot + 1) * schedule.slotDurationUs : ℕ)) : schedule.absoluteSlot time = slot := by
  apply Nat.div_eq_of_lt_le
  · omega
  · omega

theorem ValidSchedule.absoluteSlot_lt {time : ℤ} (h : time < (slot * schedule.slotDurationUs : ℕ))
    (hslot : slot ≠ 0) : schedule.absoluteSlot time < slot := by
  have hpos : 0 < schedule.slotDurationUs := Nat.zero_lt_of_lt schedule.wellFormed.overhead_lt
  have hproduct : 0 < slot * schedule.slotDurationUs := Nat.mul_pos (Nat.pos_of_ne_zero hslot) hpos
  exact Nat.div_lt_of_lt_mul (by rw [Nat.mul_comm]; omega)

/-- The start of a slot whose number was computed from a time is exact. -/
theorem ValidSchedule.slotStart_eq {now : ℤ} (hnow : now < 2 ^ 63) (h : schedule.absoluteSlot now = slot) :
    schedule.slotStart slot = (slot * schedule.slotDurationUs : ℕ) ∧
      slot * schedule.slotDurationUs < 2 ^ 63 := by
  have hle : slot * schedule.slotDurationUs ≤ now.toNat := by
    rw [← h]
    exact Nat.div_mul_le_self ..
  have hlt : slot * schedule.slotDurationUs < 2 ^ 63 := by omega
  refine ⟨?_, hlt⟩
  unfold slotStart
  omega

/-- **A reception ends in the slot of its frame**, unless the slot starts in the last microsecond that
there is: the end saturates then, and the microsecond before it is in the slot before. -/
theorem lastReception_slot {start : ℤ} {rx : RxProperties} {propagation : ℕ}
    (hslot : slot * schedule.slotDurationUs < 2 ^ 63) (hpropagation : propagation ≤ schedule.overheadUs)
    (hfits : rx.durationMicroseconds.toNat ≤ schedule.slotDurationUs - schedule.overheadUs)
    (hstart : start = saturatingAdd (slot * schedule.slotDurationUs : ℕ) propagation) :
    schedule.absoluteSlot (lastReceptionMicrosecond start rx) = slot ↔
      slot * schedule.slotDurationUs < 2 ^ 63 - 1 ∨ rx.durationMicroseconds = 0 := by
  have hoverhead : schedule.overheadUs < schedule.slotDurationUs := schedule.wellFormed.overhead_lt
  have hnext : (slot + 1) * schedule.slotDurationUs =
      slot * schedule.slotDurationUs + schedule.slotDurationUs := Nat.succ_mul ..
  unfold saturatingAdd at hstart
  by_cases hzero : rx.durationMicroseconds = 0
  · rw [lastReceptionMicrosecond, if_pos hzero]
    exact iff_of_true (ValidSchedule.absoluteSlot_eq (by omega) (by omega)) (Or.inr hzero)
  · have hpos : 0 < rx.durationMicroseconds.toNat :=
      Nat.pos_of_ne_zero fun h => hzero (UInt64.toNat_inj.mp h)
    have hlast : lastReceptionMicrosecond start rx =
        min (start + rx.durationMicroseconds.toNat) (2 ^ 63 - 1) - 1 := by
      rw [lastReceptionMicrosecond, if_neg hzero, toI64, saturatingAdd, saturatingAdd]
      omega
    by_cases hlt : slot * schedule.slotDurationUs < 2 ^ 63 - 1
    -- a saturated end is still in the slot if the microsecond before it is
    · refine iff_of_true (ValidSchedule.absoluteSlot_eq ?_ ?_) (Or.inl hlt)
      · omega
      · omega
    -- the slot starts where the end saturates
    · refine iff_of_false (ValidSchedule.absoluteSlot_lt ?_ ?_).ne (not_or.mpr ⟨hlt, hzero⟩)
      · omega
      · rintro rfl
        omega

end

/-! ## Frames fit into their slots -/

/-- A receiver is given a frame as it was sent, and sees it start a propagation delay after its slot. -/
structure Receives (schedule : ValidSchedule) (frame : Frame) (tx : TxProperties) (propagation : ℕ)
    (arrival : Arrival) (rx : RxProperties) : Prop where
  wire_eq : arrival.wire = frame.wire
  rx_eq : arrival.rx = some rx
  duration_eq : rx.durationMicroseconds = tx.durationMicroseconds
  start_eq : (FfiSpectrumQuery.fromRx rx
      (arrival.segments.bind fun value => value.segments.head?)).startTimeMicroseconds =
    saturatingAdd (schedule.slotStart frame.absoluteSlot) propagation

/-- The receive properties of a frame for which the physical layer keeps what was announced. -/
def received (tx : TxProperties) (propagation : UInt64) : RxProperties where
  frequencyHz := tx.frequencyHz
  rxPowerDbm := tx.txPowerDbm
  txTimeMicroseconds := tx.txTimeMicroseconds.toInt
  propagationMicroseconds := propagation
  durationMicroseconds := tx.durationMicroseconds

/-- A frame arrives, from `source`. -/
def Frame.arrival (frame : Frame) (source : UInt16) (tx : TxProperties) (propagation : UInt64) :
    Arrival where
  info := ⟨source, frame.destination, frame.priority⟩
  wire := frame.wire
  serializationLen := frame.wire.encodedLen
  header := some frame.header
  rx := some (received tx propagation)
  segments := none

/-- With what is announced, a receiver sees the frame start a propagation delay after its slot. -/
theorem receives_arrival {encodedLen : TdmaBaseModelMessage → ℕ} {reaches : ℕ → ℕ → Bool}
    {state : State} {schedule : ValidSchedule} {absoluteSlot : ℕ} {now : ℤ} {frame : Frame}
    {tx : TxProperties} (hschedule : state.schedule = some schedule)
    (hduration : schedule.slotDurationUs < 2 ^ 64)
    (hdown : handDown encodedLen reaches state absoluteSlot now = some (frame, tx))
    (source : UInt16) (propagation : UInt64) :
    Receives schedule frame tx propagation.toNat (frame.arrival source tx propagation)
      (received tx propagation) := by
  obtain ⟨-, habsolute, -, -, -, htime⟩ := handDown_fits hschedule hduration hdown
  have hstart : 0 ≤ schedule.slotStart absoluteSlot ∧ schedule.slotStart absoluteSlot ≤ 2 ^ 63 - 1 := by
    unfold ValidSchedule.slotStart
    omega
  have hexact : tx.txTimeMicroseconds.toInt = schedule.slotStart absoluteSlot := by
    rw [htime]
    exact Int64.toInt_ofInt_of_le (by omega) (by omega)
  refine ⟨rfl, rfl, rfl, ?_⟩
  rw [habsolute]
  simp only [Frame.arrival, FfiSpectrumQuery.fromRx, received, hexact, Option.bind_none,
    Option.map_none, Option.getD_none, saturatingAdd, toI64]
  omega

/-- **TDMA frames fit into their slots.** The components of a frame fit into the part of its slot that
is not overhead, and so does the announced duration. At a receiver with slots of the same duration a
frame that is delayed by no more than the overhead ends in its slot, and is not too long, unless the
slot starts in the last microsecond that there is and the announced duration is not zero. -/
theorem frames_fit_slot (encodedLen : TdmaBaseModelMessage → ℕ) (reaches : ℕ → ℕ → Bool)
    {state : State} {schedule : ValidSchedule} {absoluteSlot : ℕ} {now : ℤ} {frame : Frame}
    {tx : TxProperties} (hschedule : state.schedule = some schedule)
    (hduration : schedule.slotDurationUs < 2 ^ 64) (hnow : now < 2 ^ 63)
    (hdown : handDown encodedLen reaches state absoluteSlot now = some (frame, tx)) :
    (∃ frequencyHz serviceClass powerDbm destination, schedule.slot absoluteSlot =
        .tx frequencyHz frame.rate serviceClass powerDbm destination) ∧
      frame.bytes ≤ frame.rate * (schedule.slotDurationUs - schedule.overheadUs) / 8000000 ∧
      tx.durationMicroseconds.toNat =
        min (frame.bytes * 8000000 / frame.rate) (schedule.slotDurationUs - 1) ∧
      tx.durationMicroseconds.toNat ≤ schedule.slotDurationUs - schedule.overheadUs ∧
      ∀ (receiver : Layer) (receiverSchedule : ValidSchedule) (propagation : ℕ) (arrival : Arrival)
        (rx : RxProperties) (clock : ℤ), receiver.schedule = some receiverSchedule →
        receiverSchedule.slotDurationUs = schedule.slotDurationUs →
        propagation ≤ schedule.overheadUs → Receives schedule frame tx propagation arrival rx →
        (receiverSchedule.endSlot rx arrival.segments = absoluteSlot ↔
          schedule.slotStart absoluteSlot < 2 ^ 63 - 1 ∨ tx.durationMicroseconds = 0) ∧
        (schedule.slotStart absoluteSlot < 2 ^ 63 - 1 ∨ tx.durationMicroseconds = 0 →
          receiver.admits arrival clock ≠ .error .tooLong) := by
  obtain ⟨hcurrent, habsolute, hslot, hbytes, htx, -⟩ := handDown_fits hschedule hduration hdown
  have hfits : tx.durationMicroseconds.toNat ≤ schedule.slotDurationUs - schedule.overheadUs :=
    calc tx.durationMicroseconds.toNat ≤ frame.bytes * 8000000 / frame.rate :=
          htx.le.trans (Nat.min_le_left ..)
      _ ≤ schedule.slotDurationUs - schedule.overheadUs := airtime_le hbytes
  refine ⟨hslot, hbytes, htx, hfits, ?_⟩
  intro receiver receiverSchedule propagation arrival rx clock hreceiver hsame hpropagation hreceives
  obtain ⟨hstart, hlt⟩ := ValidSchedule.slotStart_eq hnow hcurrent
  have hend : receiverSchedule.endSlot rx arrival.segments = absoluteSlot ↔
      schedule.slotStart absoluteSlot < 2 ^ 63 - 1 ∨ tx.durationMicroseconds = 0 := by
    have hslots : ∀ time, receiverSchedule.absoluteSlot time = schedule.absoluteSlot time :=
      fun time => congrArg (time.toNat / ·) hsame
    have hsees := hreceives.start_eq
    rw [habsolute, hstart] at hsees
    have hlast := lastReception_slot hlt hpropagation (hreceives.duration_eq ▸ hfits) hsees
    rw [hreceives.duration_eq] at hlast
    rw [ValidSchedule.endSlot, hslots, hstart]
    exact hlast.trans (or_congr_left (by omega))
  refine ⟨hend, fun hends htooLong => ?_⟩
  apply Layer.admits_tooLong hreceiver hreceives.rx_eq htooLong
  rw [hend.mpr hends, hreceives.wire_eq]
  exact habsolute.symm

/-- The state of a sender with a schedule and a packet of one byte. -/
def byteQueued (schedule : ValidSchedule) : State :=
  { (Sender.fresh byteConfig).state with
    schedule := some schedule
    queues := Function.update (fun _ => []) (priorityToQueue 0) [⟨⟨⟨1, 2, 0⟩, [7]⟩, 1, 0, 0⟩] }

/-- What the sender hands down for a slot at the time `now`. -/
def byteDown (schedule : ValidSchedule) (slot : ℕ) (now : ℤ) : Option (Frame × TxProperties) :=
  handDown TdmaBaseModelMessage.encodedLen (fun _ _ => false) (byteQueued schedule) slot now

/-- A started receiver with a schedule. -/
def listener (schedule : ValidSchedule) : Layer :=
  { Layer.fresh with started := true, schedule := some schedule }

/-- What is announced for a byte in slot 3 of `byteSchedule`. -/
def byteTx : TxProperties := ⟨1, 1, ⟨0⟩, 8, 0, 30, 0, 0, 0⟩

/-- A byte for a slot of 10 microseconds is announced for 8, and is not too long after a delay of 2. -/
theorem frames_fit_slot_byte :
    let frame := byteFrame 3 2 [7] 1 0 0
    byteDown byteSchedule 3 34 = some (frame, byteTx) ∧
      (listener byteSchedule).admits (frame.arrival 1 byteTx 2) 36 ≠ .error .tooLong := by
  intro frame
  have hdown : byteDown byteSchedule 3 34 = some (frame, byteTx) := by decide +kernel
  refine ⟨hdown, ?_⟩
  obtain ⟨-, -, -, -, hreceives⟩ := @frames_fit_slot TdmaBaseModelMessage.encodedLen
    (fun _ _ => false) (byteQueued byteSchedule) byteSchedule 3 34 frame byteTx rfl (by decide)
    (by decide) hdown
  exact (hreceives (listener byteSchedule) byteSchedule 2 (frame.arrival 1 byteTx 2) _ 36 rfl rfl
    (by decide) (receives_arrival rfl (by decide) hdown 1 2)).2 (Or.inl (by decide))

/-- A schedule of transmit slots of 7 microseconds. -/
def sevenSchedule : ValidSchedule where
  slotsPerFrame := 1
  framesPerMultiframe := 1
  slotDurationUs := 7
  overheadUs := 2
  bandwidthHz := 1
  slots := [.tx 1 8000000 0 ⟨0⟩ 0]
  wellFormed := ⟨rfl, by decide, by decide, by simp [Schedule.SlotOk]⟩

/-- **A frame of the last slot is too long**: the slot starts in the last microsecond that there is. -/
theorem last_slot_too_long :
    ∃ frame tx, byteDown sevenSchedule 1317624576693539401 (2 ^ 63 - 1) = some (frame, tx) ∧
      tx.durationMicroseconds = 1 ∧
      (listener sevenSchedule).admits (frame.arrival 1 tx 0) (2 ^ 63 - 1) = .error .tooLong := by
  have hsome : (byteDown sevenSchedule 1317624576693539401 (2 ^ 63 - 1)).isSome := by decide +kernel
  obtain ⟨⟨frame, tx⟩, hdown⟩ := Option.isSome_iff_exists.mp hsome
  have hlate : (byteDown sevenSchedule 1317624576693539401 (2 ^ 63 - 1)).all (fun sent =>
      sent.2.durationMicroseconds = 1 ∧
        (listener sevenSchedule).admits (sent.1.arrival 1 sent.2 0) (2 ^ 63 - 1) = .error .tooLong) := by
    decide +kernel
  rw [hdown] at hlate
  exact ⟨frame, tx, hdown, by simpa using hlate⟩

end Emane.Tdma
