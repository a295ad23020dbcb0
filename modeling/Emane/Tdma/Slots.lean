import Mathlib
import Emane.Lib.Clock
import Emane.Lib.Residues
import Emane.Tdma.Transmit

set_option autoImplicit false

/-! # The slots of the TDMA layer

The layer's reaction to `start`, `stop`, schedule events, timer callbacks and frames from below, as far
as it decides which slots are transmitted in and which receptions are completed. A callback may come
for a timer that was cancelled, so callbacks are not tied to what was scheduled.

In every run with a clock that does not go back and a fixed slot duration no slot is transmitted in
twice, and the next transmit slot is the first one after the slot in which it was chosen
(`slots_in_order`). After a start or a full schedule it is chosen from the next multiframe on
(`full_schedule_skips_slots`).
-/

namespace Emane.Tdma

open Emane.Lib
open Emane.PluginApi (F64 FfiPacketInfo ModelHeader RxFrequencySegment RxFrequencySegments)

/-! ## Frames from below -/

/-- The part of the receive properties that the layer uses. -/
structure RxProperties where
  frequencyHz : UInt64
  rxPowerDbm : F64
  txTimeMicroseconds : ℤ
  propagationMicroseconds : UInt64
  durationMicroseconds : UInt64

structure FfiSpectrumQuery where
  frequencyHz : UInt64
  startTimeMicroseconds : ℤ
  durationMicroseconds : UInt64
  rxPowerDbm : F64
  deriving DecidableEq

/-- `i64::saturating_add` -/
def saturatingAdd (x y : ℤ) : ℤ := max (-2 ^ 63) (min (x + y) (2 ^ 63 - 1))

/-- A duration as a signed 64-bit number, or the largest one. -/
def toI64 (n : UInt64) : ℤ := min (n.toNat : ℤ) (2 ^ 63 - 1)

/-- `FfiSpectrumQuery::from_rx` -/
def FfiSpectrumQuery.fromRx (rx : RxProperties) (segment : Option RxFrequencySegment) :
    FfiSpectrumQuery where
  frequencyHz := (segment.map RxFrequencySegment.frequencyHz).getD rx.frequencyHz
  startTimeMicroseconds :=
    saturatingAdd (saturatingAdd rx.txTimeMicroseconds (toI64 rx.propagationMicroseconds))
      ((segment.map fun segment => toI64 segment.offsetMicroseconds).getD 0)
  durationMicroseconds := max rx.durationMicroseconds 1
  rxPowerDbm := (segment.map RxFrequencySegment.rxPowerDbm).getD rx.rxPowerDbm

/-- A frame whose message could be decoded, with its decoded controls. -/
structure Arrival where
  info : FfiPacketInfo
  wire : TdmaBaseModelMessage
  serializationLen : ℕ
  header : Option ModelHeader
  rx : Option RxProperties
  segments : Option RxFrequencySegments

structure PendingReception where
  info : FfiPacketInfo
  wire : TdmaBaseModelMessage
  modelSequence : UInt64
  packetLen : ℕ
  spectrumQuery : FfiSpectrumQuery
  deriving DecidableEq

/-- The start of reception. -/
def PendingReception.start (pending : PendingReception) : ℤ :=
  pending.spectrumQuery.startTimeMicroseconds

/-- Why a frame is not accepted: silently, or with a recorded reason. -/
inductive UpstreamDrop
  | silent
  | badControl
  | registrationId
  | tooLong
  | slotError
  | frequency
  deriving DecidableEq

/-- The last microsecond of a reception. -/
def lastReceptionMicrosecond (start : ℤ) (rx : RxProperties) : ℤ :=
  if rx.durationMicroseconds = 0 then start
  else saturatingAdd (saturatingAdd start (toI64 rx.durationMicroseconds)) (-1)

/-! ## The layer -/

structure Layer where
  started : Bool
  schedule : Option ValidSchedule
  nextTxSlot : Option ℕ
  pendingRx : ℕ → Option PendingReception

/-- A layer that was not started yet. -/
def Layer.fresh : Layer := ⟨false, none, none, fun _ => none⟩

def Slot.isTx : Slot → Bool
  | .tx .. => true
  | .rx _ => false
  | .idle => false

/-- `next_tx`. The sum does not saturate: a slot is that of a 63-bit time, and the slots of a cycle are
the elements of a vector. -/
def ValidSchedule.nextTx (schedule : ValidSchedule) (afterAbsolute : ℕ) : Option ℕ :=
  ((List.range schedule.cycleSlots).map fun n => afterAbsolute + (n + 1)).find?
    fun index => (schedule.slot index).isTx

/-- The slot after which the next transmit slot is chosen: the current one, or the last one of the
current multiframe. -/
def ValidSchedule.txReference (schedule : ValidSchedule) (firstAfterSchedule : Bool) (now : ℤ) : ℕ :=
  let current := schedule.absoluteSlot now
  if firstAfterSchedule then
    current / schedule.cycleSlots * schedule.cycleSlots + schedule.cycleSlots - 1
  else current

/-- The schedule, if the layer is started. -/
def Layer.running (layer : Layer) : Option ValidSchedule := layer.schedule.filter fun _ => layer.started

/-- `schedule_next_tx`; `timer` says whether the timer could be scheduled. -/
def Layer.scheduleNextTx (layer : Layer) (firstAfterSchedule : Bool) (now : ℤ) (timer : Bool) : Layer :=
  match layer.running with
  | none => layer
  | some schedule =>
      match schedule.nextTx (schedule.txReference firstAfterSchedule now) with
      | none => layer
      | some slot => if timer then { layer with nextTxSlot := some slot } else layer

/-- `start`; `loaded` says whether the curves could be loaded. -/
def Layer.start (layer : Layer) (loaded : Bool) (now : ℤ) (timer : Bool) : Layer :=
  if loaded then Layer.scheduleNextTx { layer with started := true } true now timer else layer

/-- `stop` -/
def Layer.stop (layer : Layer) : Layer :=
  { layer with started := false, nextTxSlot := none, pendingRx := fun _ => none }

/-- `process_event` for an event that was accepted. -/
def Layer.install (layer : Layer) (schedule : ValidSchedule) (full : Bool) (now : ℤ) (timer : Bool) :
    Layer :=
  Layer.scheduleNextTx { layer with schedule := some schedule, nextTxSlot := none } full now timer

/-- The tests of `transmit_slot`: the schedule in force, if `slot` is current and a transmit slot. -/
def Layer.transmits (layer : Layer) (slot : ℕ) (now : ℤ) : Option ValidSchedule :=
  layer.schedule.filter fun schedule =>
    schedule.absoluteSlot now = slot ∧ (schedule.slot slot).isTx

/-- `timed` with a transmit slot: the layer, and the transmission. The clock is read by
`transmit_slot` (`now`) and again by `schedule_next_tx` (`later`). -/
def Layer.timedTx (layer : Layer) (value : ℕ) (now later : ℤ) (timer : Bool) :
    Layer × Option (ℕ × ValidSchedule) :=
  if layer.nextTxSlot = some value then
    (Layer.scheduleNextTx { layer with nextTxSlot := none } false later timer,
      (layer.transmits value now).map fun schedule => (value, schedule))
  else (layer, none)

/-- The tests of `upstream`: the slot of a frame, and its reception. -/
def Layer.admits (layer : Layer) (arrival : Arrival) (now : ℤ) :
    Except UpstreamDrop (ℕ × PendingReception) :=
  if layer.started = false then .error .silent
  else
    match arrival.header, arrival.rx with
    | none, _ => .error .badControl
    | some _, none => .error .badControl
    | some model, some rx =>
        if model.registrationId ≠ 5 then .error .registrationId
        else if arrival.wire.dataRateBps = 0 then .error .badControl
        else
          match layer.schedule with
          | none => .error .silent
          | some schedule =>
              let query :=
                FfiSpectrumQuery.fromRx rx (arrival.segments.bind fun value => value.segments.head?)
              let last := lastReceptionMicrosecond query.startTimeMicroseconds rx
              let currentSlot := schedule.absoluteSlot now
              if schedule.absoluteSlot last ≠ arrival.wire.absoluteSlotIndex then .error .tooLong
              else if currentSlot ≠ arrival.wire.absoluteSlotIndex then .error .slotError
              else
                match schedule.slot currentSlot with
                | .idle => .error .slotError
                | .tx .. => .error .slotError
                | .rx frequencyHz =>
                    if frequencyHz ≠ query.frequencyHz.toNat then .error .frequency
                    else .ok (currentSlot, {
                      info := arrival.info
                      wire := arrival.wire
                      modelSequence := model.sequence
                      packetLen := arrival.serializationLen
                      spectrumQuery := query })

/-- `upstream`: the layer, and the slot and reception if the frame is accepted. A frame for a slot with
a pending reception takes its place if it started earlier. -/
def Layer.upstream (layer : Layer) (arrival : Arrival) (now : ℤ) (timer : Bool) :
    Layer × Except UpstreamDrop (ℕ × PendingReception) :=
  match layer.admits arrival now with
  | .error reason => (layer, .error reason)
  | .ok (slot, pending) =>
      match layer.pendingRx slot with
      | some previous =>
          if pending.start < previous.start then
            ({ layer with pendingRx := Function.update layer.pendingRx slot (some pending) },
              .ok (slot, pending))
          else (layer, .ok (slot, pending))
      | none =>
          if timer then
            ({ layer with pendingRx := Function.update layer.pendingRx slot (some pending) },
              .ok (slot, pending))
          -- without a timer the reception is removed again
          else (layer, .error .badControl)

/-- The beginning of `complete_receive`: the pending reception of a slot is removed, and goes on to the
reception tests if the layer is started. -/
def Layer.completeReceive (layer : Layer) (slot : ℕ) : Layer × Option PendingReception :=
  ({ layer with pendingRx := Function.update layer.pendingRx slot none },
    (layer.pendingRx slot).filter fun _ => layer.started)

/-! ## Runs -/

/-- What happens at the layer. -/
inductive SlotOp
  | start (loaded : Bool) (now : ℤ) (timer : Bool)
  | stop (now : ℤ)
  | install (schedule : ValidSchedule) (full : Bool) (now : ℤ) (timer : Bool)
  | timedTx (value : ℕ) (now later : ℤ) (timer : Bool)
  | timedRx (value : ℕ) (now : ℤ)
  | upstream (arrival : Arrival) (now : ℤ) (timer : Bool)

/-- When the clock is first read. -/
def SlotOp.begins : SlotOp → ℤ
  | .start _ now _ => now
  | .stop now => now
  | .install _ _ now _ => now
  | .timedTx _ now _ _ => now
  | .timedRx _ now => now
  | .upstream _ now _ => now

/-- When the clock is last read. -/
def SlotOp.finishes : SlotOp → ℤ
  | .start _ now _ => now
  | .stop now => now
  | .install _ _ now _ => now
  | .timedTx _ _ later _ => later
  | .timedRx _ now => now
  | .upstream _ now _ => now

/-- The schedules that are installed have slots of `duration`. -/
def SlotOp.Lasts (duration : ℕ) : SlotOp → Prop
  | .install schedule _ _ _ => schedule.slotDurationUs = duration
  | .start .. => True
  | .stop _ => True
  | .timedTx .. => True
  | .timedRx .. => True
  | .upstream .. => True

/-- Timers can be scheduled. -/
def SlotOp.TimerOk : SlotOp → Prop
  | .start _ _ timer => timer = true
  | .install _ _ _ timer => timer = true
  | .timedTx _ _ _ timer => timer = true
  | .upstream _ _ timer => timer = true
  | .stop _ => True
  | .timedRx .. => True

/-- A reception that was completed, and the receptions accepted for its slot since the last stop. -/
structure Choice where
  slot : ℕ
  reception : PendingReception
  among : List PendingReception

/-- A layer with its history: the slots transmitted in with the schedule in force, the slot after which
the next transmit slot was chosen, the receptions accepted since the last stop with their slots, and
the completed receptions. -/
structure SlotRun where
  layer : Layer
  transmitted : List (ℕ × ValidSchedule)
  chosenAfter : ℕ
  accepted : List (ℕ × PendingReception)
  chosen : List Choice

def SlotRun.fresh : SlotRun := ⟨Layer.fresh, [], 0, [], []⟩

/-- The receptions accepted for a slot since the last stop. -/
def SlotRun.acceptedFor (s : SlotRun) (slot : ℕ) : List PendingReception :=
  (s.accepted.filter fun e => e.1 = slot).map Prod.snd

/-- The slot after which a next transmit slot is chosen in `layer`, if one is. -/
def SlotRun.reference (s : SlotRun) (layer : Layer) (firstAfterSchedule : Bool) (now : ℤ) : ℕ :=
  (layer.running.map fun schedule => schedule.txReference firstAfterSchedule now).getD s.chosenAfter

def SlotRun.step (s : SlotRun) : SlotOp → SlotRun
  | .start loaded now timer =>
      let layer := s.layer.start loaded now timer
      { s with
        layer := layer
        chosenAfter := if loaded then s.reference layer true now else s.chosenAfter }
  | .stop _ => { s with layer := s.layer.stop, accepted := [] }
  | .install schedule full now timer =>
      let layer := s.layer.install schedule full now timer
      { s with layer := layer, chosenAfter := s.reference layer full now }
  | .timedTx value now later timer =>
      let r := s.layer.timedTx value now later timer
      { s with
        layer := r.1
        transmitted := s.transmitted ++ r.2.toList
        chosenAfter :=
          if s.layer.nextTxSlot = some value then s.reference r.1 false later else s.chosenAfter }
  | .timedRx value _ =>
      let r := s.layer.completeReceive value
      { s with
        layer := r.1
        chosen := s.chosen ++ (r.2.map fun pending => ⟨value, pending, s.acceptedFor value⟩).toList }
  | .upstream arrival now timer =>
      let r := s.layer.upstream arrival now timer
      { s with layer := r.1, accepted := s.accepted ++ r.2.toOption.toList }

def SlotRun.run (s : SlotRun) (ops : List SlotOp) : SlotRun := ops.foldl SlotRun.step s

/-! ## The next transmit slot -/

/-- The transmit slots after a slot. -/
def ValidSchedule.txAfter (schedule : ValidSchedule) (slot : ℕ) : Set ℕ :=
  {index | slot < index ∧ (schedule.slot index).isTx = true}

section

variable {schedule : ValidSchedule}

/-- A transmit slot comes again within a cycle after any slot. -/
theorem ValidSchedule.exists_tx_within (after index : ℕ) (h : (schedule.slot index).isTx = true) :
    ∃ n < schedule.cycleSlots, (schedule.slot (after + (n + 1))).isTx = true := by
  have hpos : 0 < schedule.cycleSlots := schedule.wellFormed.cycle_pos
  -- the offset to the first slot after `after` with the position of `index` in the cycle
  refine ⟨(index + schedule.cycleSlots * (after + 1) - (after + 1)) % schedule.cycleSlots,
    Nat.mod_lt _ hpos, ?_⟩
  have hle : after + 1 ≤ schedule.cycleSlots * (after + 1) := Nat.le_mul_of_pos_left _ hpos
  have hposition : (after + ((index + schedule.cycleSlots * (after + 1) - (after + 1)) %
      schedule.cycleSlots + 1)) % schedule.cycleSlots = index % schedule.cycleSlots := by
    calc (after + ((index + schedule.cycleSlots * (after + 1) - (after + 1)) %
          schedule.cycleSlots + 1)) % schedule.cycleSlots
        = ((index + schedule.cycleSlots * (after + 1) - (after + 1)) % schedule.cycleSlots +
            (after + 1)) % schedule.cycleSlots := by congr 1; omega
      _ = (index + schedule.cycleSlots * (after + 1) - (after + 1) + (after + 1)) %
            schedule.cycleSlots := Nat.mod_add_mod ..
      _ = (index + schedule.cycleSlots * (after + 1)) % schedule.cycleSlots := by
            rw [Nat.sub_add_cancel (by omega)]
      _ = index % schedule.cycleSlots := Nat.add_mul_mod_self_left ..
  unfold ValidSchedule.slot at h ⊢
  simp only [hposition]
  exact h

/-- **`next_tx` finds the least transmit slot after a slot.** -/
theorem ValidSchedule.nextTx_isLeast {after slot : ℕ} (h : schedule.nextTx after = some slot) :
    IsLeast (schedule.txAfter after) slot := by
  unfold nextTx at h
  have htx := List.find?_some h
  obtain ⟨n, hn, rfl⟩ := List.mem_map.mp (List.mem_of_find?_eq_some h)
  refine ⟨⟨by omega, htx⟩, ?_⟩
  rintro index ⟨hafter, hindex⟩
  by_contra hlt
  -- an earlier transmit slot is among those that are searched
  have hrange : index ∈ (List.range schedule.cycleSlots).map fun n => after + (n + 1) := by
    refine List.mem_map.mpr ⟨index - after - 1, ?_, by omega⟩
    rw [List.mem_range] at hn ⊢
    omega
  have hsorted : ((List.range schedule.cycleSlots).map fun n => after + (n + 1)).Pairwise (· < ·) := by
    rw [List.pairwise_map]
    exact List.pairwise_lt_range.imp fun hlt => by omega
  exact hlt (find?_le h hsorted hrange hindex)

/-- `next_tx` finds a slot if there is a transmit slot at all. -/
theorem ValidSchedule.nextTx_ne_none {index : ℕ} (h : (schedule.slot index).isTx = true) (after : ℕ) :
    schedule.nextTx after ≠ none := by
  obtain ⟨n, hn, htx⟩ := schedule.exists_tx_within after index h
  intro hnone
  unfold nextTx at hnone
  have hnot := List.find?_eq_none.mp hnone (after + (n + 1))
    (List.mem_map.mpr ⟨n, List.mem_range.mpr hn, rfl⟩)
  exact hnot htx

/-- The slot after which the next one is chosen is not before the current one. -/
theorem ValidSchedule.absoluteSlot_le_txReference (firstAfterSchedule : Bool) (now : ℤ) :
    schedule.absoluteSlot now ≤ schedule.txReference firstAfterSchedule now := by
  have hpos : 0 < schedule.cycleSlots := schedule.wellFormed.cycle_pos
  have hdiv := Nat.div_add_mod' (schedule.absoluteSlot now) schedule.cycleSlots
  have hmod := Nat.mod_lt (schedule.absoluteSlot now) hpos
  unfold txReference
  dsimp only
  split
  · omega
  · exact le_rfl

end

namespace Layer

variable {layer : Layer} {firstAfterSchedule timer : Bool} {now : ℤ}

/-- What `schedule_next_tx` can do: nothing, or choose the least transmit slot after the reference. -/
theorem scheduleNextTx_cases (layer : Layer) (firstAfterSchedule : Bool) (now : ℤ) (timer : Bool) :
    layer.scheduleNextTx firstAfterSchedule now timer = layer ∨
    ∃ schedule slot, layer.running = some schedule ∧
      IsLeast (schedule.txAfter (schedule.txReference firstAfterSchedule now)) slot ∧
      layer.scheduleNextTx firstAfterSchedule now timer = { layer with nextTxSlot := some slot } := by
  unfold scheduleNextTx
  split
  · exact Or.inl rfl
  next schedule hrunning =>
  split
  · exact Or.inl rfl
  next slot hslot =>
  split
  · exact Or.inr ⟨schedule, slot, hrunning, schedule.nextTx_isLeast hslot, rfl⟩
  · exact Or.inl rfl

/-- With a timer and a transmit slot in the schedule one is chosen. -/
theorem scheduleNextTx_chooses (layer : Layer) {schedule : ValidSchedule}
    (hrunning : layer.running = some schedule) {index : ℕ}
    (htx : (schedule.slot index).isTx = true) (firstAfterSchedule : Bool) (now : ℤ) :
    ∃ slot, (layer.scheduleNextTx firstAfterSchedule now true).nextTxSlot = some slot ∧
      IsLeast (schedule.txAfter (schedule.txReference firstAfterSchedule now)) slot := by
  unfold scheduleNextTx
  rw [hrunning]
  dsimp only
  cases hslot : schedule.nextTx (schedule.txReference firstAfterSchedule now) with
  | none => exact absurd hslot (schedule.nextTx_ne_none htx _)
  | some slot => exact ⟨slot, rfl, schedule.nextTx_isLeast hslot⟩

@[simp] theorem scheduleNextTx_schedule :
    (layer.scheduleNextTx firstAfterSchedule now timer).schedule = layer.schedule := by
  rcases layer.scheduleNextTx_cases firstAfterSchedule now timer with h | ⟨_, _, _, _, h⟩ <;> rw [h]

@[simp] theorem scheduleNextTx_started :
    (layer.scheduleNextTx firstAfterSchedule now timer).started = layer.started := by
  rcases layer.scheduleNextTx_cases firstAfterSchedule now timer with h | ⟨_, _, _, _, h⟩ <;> rw [h]

@[simp] theorem scheduleNextTx_running :
    (layer.scheduleNextTx firstAfterSchedule now timer).running = layer.running := by
  rcases layer.scheduleNextTx_cases firstAfterSchedule now timer with h | ⟨_, _, _, _, h⟩
  · rw [h]
  · rw [h]
    rfl

@[simp] theorem scheduleNextTx_pendingRx :
    (layer.scheduleNextTx firstAfterSchedule now timer).pendingRx = layer.pendingRx := by
  rcases layer.scheduleNextTx_cases firstAfterSchedule now timer with h | ⟨_, _, _, _, h⟩ <;> rw [h]

/-- A transmission is in the current slot, which the schedule in force marks for transmission. -/
theorem transmits_eq_some {slot : ℕ} {schedule : ValidSchedule}
    (h : layer.transmits slot now = some schedule) :
    layer.schedule = some schedule ∧ schedule.absoluteSlot now = slot ∧
      (schedule.slot slot).isTx = true := by
  unfold transmits at h
  obtain ⟨hschedule, htest⟩ := Option.filter_eq_some_iff.mp h
  simpa [hschedule] using htest

/-- `upstream` changes nothing but the pending receptions. -/
theorem upstream_eq (layer : Layer) (arrival : Arrival) (now : ℤ) (timer : Bool) :
    ∃ pendingRx, (layer.upstream arrival now timer).1 = { layer with pendingRx := pendingRx } := by
  unfold upstream
  split
  · exact ⟨layer.pendingRx, rfl⟩
  split
  · split
    · exact ⟨_, rfl⟩
    · exact ⟨layer.pendingRx, rfl⟩
  · split
    · exact ⟨_, rfl⟩
    · exact ⟨layer.pendingRx, rfl⟩

theorem running_eq_some {schedule : ValidSchedule} (h : layer.running = some schedule) :
    layer.schedule = some schedule := (Option.filter_eq_some_iff.mp h).1

end Layer

/-- Outside these tests `transmit_slot` does nothing. -/
theorem transmitSlot_of_not_transmits {encodedLen : TdmaBaseModelMessage → ℕ}
    {reaches : ℕ → ℕ → Bool} {state : State} {layer : Layer} {slot : ℕ} {now : ℤ}
    (hschedule : layer.schedule = state.schedule) (h : layer.transmits slot now = none) :
    transmitSlot encodedLen reaches state slot now = ⟨state, [], none, []⟩ := by
  unfold Layer.transmits at h
  rw [hschedule] at h
  unfold transmitSlot
  split
  · rfl
  next schedule hstate =>
  rw [hstate, Option.filter_some] at h
  split
  · rfl
  next hcurrent =>
  split
  · rfl
  · rfl
  next hslot =>
  rw [not_not.mp hcurrent, hslot] at h
  simp [Slot.isTx] at h

/-! ## Slots in order -/

/-- The slots transmitted in are in order, none is in the future, and the next one is after them. -/
structure SlotRun.Ordered (duration : ℕ) (clock : ℤ) (s : SlotRun) : Prop where
  duration_eq : ∀ schedule, s.layer.schedule = some schedule → schedule.slotDurationUs = duration
  increasing : s.transmitted.Pairwise fun t t' => t.1 < t'.1
  past : ∀ t ∈ s.transmitted, t.1 ≤ clock.toNat / duration
  next : ∀ slot, s.layer.nextTxSlot = some slot → ∀ t ∈ s.transmitted, t.1 < slot
  marked : ∀ t ∈ s.transmitted, (t.2.slot t.1).isTx = true

namespace SlotRun

variable {duration : ℕ} {clock now : ℤ} {s : SlotRun}

theorem Ordered.later (h : s.Ordered duration clock) (hclock : clock ≤ now) :
    s.Ordered duration now where
  duration_eq := h.duration_eq
  increasing := h.increasing
  past t ht := (h.past t ht).trans (Nat.div_le_div_right (Int.toNat_le_toNat hclock))
  next := h.next
  marked := h.marked

/-- What was transmitted is not after the slot after which the next one is chosen. -/
theorem Ordered.le_txReference (h : s.Ordered duration now) {schedule : ValidSchedule}
    (hrunning : s.layer.running = some schedule) (firstAfterSchedule : Bool) :
    ∀ t ∈ s.transmitted, t.1 ≤ schedule.txReference firstAfterSchedule now := by
  intro t ht
  calc t.1 ≤ now.toNat / duration := h.past t ht
    _ = schedule.absoluteSlot now := by
        rw [← h.duration_eq schedule (Layer.running_eq_some hrunning)]
        rfl
    _ ≤ schedule.txReference firstAfterSchedule now := schedule.absoluteSlot_le_txReference _ _

/-- Choosing the next transmit slot keeps the order. -/
theorem Ordered.scheduleNextTx (h : s.Ordered duration now) (firstAfterSchedule timer : Bool)
    (chosenAfter : ℕ) :
    Ordered duration now { s with
      layer := s.layer.scheduleNextTx firstAfterSchedule now timer
      chosenAfter := chosenAfter } := by
  refine ⟨by simpa using h.duration_eq, h.increasing, h.past, ?_, h.marked⟩
  rcases s.layer.scheduleNextTx_cases firstAfterSchedule now timer with
    heq | ⟨schedule, slot, hrunning, hleast, heq⟩
  · simp only [heq]
    exact h.next
  · simp only [heq, Option.some.injEq]
    rintro _ rfl t ht
    exact (h.le_txReference hrunning firstAfterSchedule t ht).trans_lt hleast.1.1

/-- The change of other parts of the layer keeps the order. -/
theorem Ordered.change (h : s.Ordered duration clock) (layer : Layer)
    (hschedule : ∀ schedule, layer.schedule = some schedule → schedule.slotDurationUs = duration)
    (hnext : layer.nextTxSlot = s.layer.nextTxSlot ∨ layer.nextTxSlot = none) (accepted chosen) :
    Ordered duration clock { s with layer := layer, accepted := accepted, chosen := chosen } := by
  refine ⟨hschedule, h.increasing, h.past, ?_, h.marked⟩
  rcases hnext with hnext | hnext
  · simp only [hnext]
    exact h.next
  · simp [hnext]

/-- The next transmit slot is transmitted in. -/
theorem Ordered.transmit (h : s.Ordered duration now) {slot : ℕ}
    (hnext : s.layer.nextTxSlot = some slot) :
    Ordered duration now { s with
      layer := { s.layer with nextTxSlot := none }
      transmitted := s.transmitted ++
        ((s.layer.transmits slot now).map fun schedule => (slot, schedule)).toList } := by
  cases htransmits : s.layer.transmits slot now with
  | none =>
      refine ⟨h.duration_eq, ?_, ?_, by simp, ?_⟩
      · simpa using h.increasing
      · simpa using h.past
      · simpa using h.marked
  | some schedule =>
      obtain ⟨hschedule, hcurrent, htx⟩ := Layer.transmits_eq_some htransmits
      refine ⟨h.duration_eq, ?_, ?_, by simp, ?_⟩
      · rw [Option.map_some, Option.toList_some, List.pairwise_append]
        refine ⟨h.increasing, List.pairwise_singleton .., fun t ht t' ht' => ?_⟩
        rw [List.mem_singleton.mp ht']
        exact h.next slot hnext t ht
      · refine List.forall_mem_append.mpr ⟨h.past, ?_⟩
        rw [Option.map_some, Option.toList_some, List.forall_mem_singleton, ← hcurrent,
          ← h.duration_eq schedule hschedule]
        exact le_rfl
      · refine List.forall_mem_append.mpr ⟨h.marked, ?_⟩
        simpa using htx

/-- **One step keeps the order of the slots.** -/
theorem Ordered.step {op : SlotOp} (hlasts : op.Lasts duration) (hbegins : clock ≤ op.begins)
    (hfinishes : op.begins ≤ op.finishes) (h : s.Ordered duration clock) :
    (s.step op).Ordered duration op.finishes := by
  have hnow := h.later hbegins
  cases op with
  | start loaded now timer =>
      unfold SlotRun.step Layer.start
      cases loaded with
      | true =>
          have hstarted := hnow.change { s.layer with started := true } h.duration_eq (Or.inl rfl)
            s.accepted s.chosen
          exact hstarted.scheduleNextTx true timer _
      | false => exact hnow
  | stop now => exact hnow.change s.layer.stop h.duration_eq (Or.inr rfl) _ _
  | install schedule full now timer =>
      have hschedule : ∀ schedule', some schedule = some schedule' →
          schedule'.slotDurationUs = duration := by
        rintro _ ⟨⟩
        exact hlasts
      have hinstalled := hnow.change { s.layer with schedule := some schedule, nextTxSlot := none }
        hschedule (Or.inr rfl) s.accepted s.chosen
      exact hinstalled.scheduleNextTx full timer _
  | timedTx value now later timer =>
      by_cases hnext : s.layer.nextTxSlot = some value
      · simp only [SlotRun.step, Layer.timedTx, if_pos hnext]
        exact ((hnow.transmit hnext).later hfinishes).scheduleNextTx false timer _
      · simp only [SlotRun.step, Layer.timedTx, if_neg hnext, Option.toList_none, List.append_nil]
        exact hnow.later hfinishes
  | timedRx value now =>
      exact hnow.change (s.layer.completeReceive value).1 h.duration_eq (Or.inl rfl) _ _
  | upstream arrival now timer =>
      obtain ⟨pendingRx, heq⟩ := s.layer.upstream_eq arrival now timer
      simp only [SlotRun.step, heq]
      exact hnow.change { s.layer with pendingRx := pendingRx } h.duration_eq (Or.inl rfl) _ _

/-- A next transmit slot is chosen, the least one after the slot in which it was chosen. -/
def Waits (s : SlotRun) : Prop :=
  ∀ schedule, s.layer.running = some schedule → (∃ index, (schedule.slot index).isTx = true) →
    ∃ slot, s.layer.nextTxSlot = some slot ∧ IsLeast (schedule.txAfter s.chosenAfter) slot ∧
      ∀ t ∈ s.transmitted, t.1 ≤ s.chosenAfter

/-- `schedule_next_tx` with a timer chooses. -/
theorem Ordered.waits (h : s.Ordered duration now) (layer : Layer) (hlayer : s.layer = layer)
    (firstAfterSchedule : Bool) :
    Waits { s with
      layer := layer.scheduleNextTx firstAfterSchedule now true
      chosenAfter :=
        s.reference (layer.scheduleNextTx firstAfterSchedule now true) firstAfterSchedule now } := by
  subst hlayer
  intro schedule hrunning htx
  simp only [Layer.scheduleNextTx_running] at hrunning
  obtain ⟨index, htx⟩ := htx
  obtain ⟨slot, hslot, hleast⟩ := Layer.scheduleNextTx_chooses s.layer hrunning htx firstAfterSchedule now
  have hreference : s.reference (s.layer.scheduleNextTx firstAfterSchedule now true)
      firstAfterSchedule now = schedule.txReference firstAfterSchedule now := by
    simp [reference, hrunning]
  refine ⟨slot, hslot, ?_, fun t ht => ?_⟩
  · simp only [hreference]
    exact hleast
  · simp only [hreference]
    exact h.le_txReference hrunning firstAfterSchedule t ht

/-- Other parts of the layer may change while a slot is chosen. -/
theorem Waits.change (h : s.Waits) (layer : Layer) (hrunning : layer.running = s.layer.running)
    (hnext : layer.nextTxSlot = s.layer.nextTxSlot) (accepted chosen) :
    Waits { s with layer := layer, accepted := accepted, chosen := chosen } := by
  intro schedule hschedule htx
  simp only [hrunning] at hschedule
  simp only [hnext]
  exact h schedule hschedule htx

/-- **One step keeps a next transmit slot chosen**, if timers can be scheduled. -/
theorem Waits.step {op : SlotOp} (hlasts : op.Lasts duration) (htimer : op.TimerOk)
    (hbegins : clock ≤ op.begins) (hfinishes : op.begins ≤ op.finishes)
    (hordered : s.Ordered duration clock) (h : s.Waits) : (s.step op).Waits := by
  have hnow := hordered.later hbegins
  cases op with
  | start loaded now timer =>
      unfold SlotRun.step Layer.start
      cases loaded with
      | true =>
          obtain rfl : timer = true := htimer
          have hstarted := hnow.change { s.layer with started := true } hordered.duration_eq
            (Or.inl rfl) s.accepted s.chosen
          exact hstarted.waits _ rfl true
      | false => exact h
  | stop now =>
      intro schedule hrunning
      simp [SlotRun.step, Layer.stop, Layer.running] at hrunning
  | install schedule full now timer =>
      obtain rfl : timer = true := htimer
      have hschedule : ∀ schedule', some schedule = some schedule' →
          schedule'.slotDurationUs = duration := by
        rintro _ ⟨⟩
        exact hlasts
      have hinstalled := hnow.change { s.layer with schedule := some schedule, nextTxSlot := none }
        hschedule (Or.inr rfl) s.accepted s.chosen
      exact hinstalled.waits _ rfl full
  | timedTx value now later timer =>
      obtain rfl : timer = true := htimer
      by_cases hnext : s.layer.nextTxSlot = some value
      · simp only [SlotRun.step, Layer.timedTx, if_pos hnext]
        exact ((hnow.transmit hnext).later hfinishes).waits _ rfl false
      · simp only [SlotRun.step, Layer.timedTx, if_neg hnext, Option.toList_none, List.append_nil]
        exact h
  | timedRx value now => exact h.change (s.layer.completeReceive value).1 rfl rfl _ _
  | upstream arrival now timer =>
      obtain ⟨pendingRx, heq⟩ := s.layer.upstream_eq arrival now timer
      simp only [SlotRun.step, heq]
      exact h.change { s.layer with pendingRx := pendingRx } rfl rfl _ _

theorem fresh_ordered (duration : ℕ) (clock : ℤ) : fresh.Ordered duration clock := by
  constructor <;> simp [fresh, Layer.fresh]

theorem fresh_waits : fresh.Waits := by
  intro schedule hrunning
  simp [fresh, Layer.fresh, Layer.running] at hrunning

end SlotRun

/-- A callback within its slot chooses the least transmit slot after it. -/
theorem Layer.timedTx_chooses {layer : Layer} {schedule : ValidSchedule}
    (hrunning : layer.running = some schedule) {index : ℕ} (htx : (schedule.slot index).isTx = true)
    {value : ℕ} (hnext : layer.nextTxSlot = some value) (now : ℤ) {later : ℤ}
    (hlater : schedule.absoluteSlot later = value) :
    ∃ slot, (layer.timedTx value now later true).1.nextTxSlot = some slot ∧
      IsLeast (schedule.txAfter value) slot := by
  unfold timedTx
  rw [if_pos hnext]
  obtain ⟨slot, hslot, hleast⟩ := scheduleNextTx_chooses { layer with nextTxSlot := none }
    hrunning htx false later
  have hreference : schedule.txReference false later = value := hlater
  rw [hreference] at hleast
  exact ⟨slot, hslot, hleast⟩

/-- A callback for the chosen slot that does not count as a transmission takes nothing from the queues and
sends nothing. -/
theorem Layer.timedTx_silent {encodedLen : TdmaBaseModelMessage → ℕ} {reaches : ℕ → ℕ → Bool}
    {state : State} {layer : Layer} {value : ℕ} {now later : ℤ} {timer : Bool}
    (hschedule : state.schedule = layer.schedule) (hnext : layer.nextTxSlot = some value)
    (h : (layer.timedTx value now later timer).2 = none) :
    transmitSlot encodedLen reaches state value now = ⟨state, [], none, []⟩ := by
  unfold timedTx at h
  rw [if_pos hnext] at h
  exact transmitSlot_of_not_transmits hschedule.symm (Option.map_eq_none_iff.mp h)

/-- **Slots are transmitted in in order.** In every run with a clock that does not go back and slots
of one duration: the slots transmitted in increase, so that none is transmitted in twice, and each is
marked for transmission by the schedule in force; a callback for the chosen slot that is not among the
transmissions sends nothing. If timers can be scheduled, then moreover whenever
the layer is started and its schedule has a transmit slot, a next one is chosen: the least one after
the slot after which it was chosen, which is not before any slot transmitted in. A callback that is
handled within its slot chooses the least one after the slot it handled. -/
theorem slots_in_order (duration : ℕ) (clock : ℤ) (ops : List SlotOp)
    (htimed : Timed SlotOp.begins SlotOp.finishes clock ops)
    (hlasts : ∀ op ∈ ops, op.Lasts duration) :
    let s := SlotRun.fresh.run ops
    (s.transmitted.Pairwise fun t t' => t.1 < t'.1) ∧
      (∀ t ∈ s.transmitted, (t.2.slot t.1).isTx = true) ∧
      ((∀ op ∈ ops, op.TimerOk) → ∀ schedule, s.layer.running = some schedule →
        (∃ index, (schedule.slot index).isTx = true) →
        ∃ slot, s.layer.nextTxSlot = some slot ∧ IsLeast (schedule.txAfter s.chosenAfter) slot ∧
          (∀ t ∈ s.transmitted, t.1 ≤ s.chosenAfter) ∧
          ∀ now later, schedule.absoluteSlot later = slot →
            ∃ slot', (s.layer.timedTx slot now later true).1.nextTxSlot = some slot' ∧
              IsLeast (schedule.txAfter slot) slot') ∧
      ∀ (encodedLen : TdmaBaseModelMessage → ℕ) (reaches : ℕ → ℕ → Bool) (state : State) (value : ℕ)
        (now later : ℤ) (timer : Bool), state.schedule = s.layer.schedule →
        s.layer.nextTxSlot = some value → (s.layer.timedTx value now later timer).2 = none →
        transmitSlot encodedLen reaches state value now = ⟨state, [], none, []⟩ := by
  intro s
  obtain ⟨_, hordered⟩ := timed_invariant (I := SlotRun.Ordered duration) (SlotOp.Lasts duration)
    (fun clock s op hop hbegins hfinishes h => h.step hop hbegins hfinishes) ops clock SlotRun.fresh
    hlasts htimed (SlotRun.fresh_ordered duration clock)
  refine ⟨hordered.increasing, hordered.marked, fun htimers schedule hrunning htx => ?_,
    fun _ _ _ _ _ _ _ hschedule hnext hsilent => Layer.timedTx_silent hschedule hnext hsilent⟩
  obtain ⟨_, -, hwaits⟩ := timed_invariant
    (I := fun clock s => SlotRun.Ordered duration clock s ∧ s.Waits)
    (fun op => op.Lasts duration ∧ op.TimerOk)
    (fun clock s op hop hbegins hfinishes h =>
      ⟨h.1.step hop.1 hbegins hfinishes, h.2.step hop.1 hop.2 hbegins hfinishes h.1⟩)
    ops clock SlotRun.fresh (fun op hop => ⟨hlasts op hop, htimers op hop⟩) htimed
    ⟨SlotRun.fresh_ordered duration clock, SlotRun.fresh_waits⟩
  obtain ⟨slot, hslot, hleast, htransmitted⟩ := hwaits schedule hrunning htx
  obtain ⟨index, hindex⟩ := htx
  exact ⟨slot, hslot, hleast, htransmitted, fun now later hlater =>
    Layer.timedTx_chooses hrunning hindex hslot now hlater⟩

/-! ## A schedule of transmit slots -/

/-- Multiframes of four transmit slots. -/
def fourSlots : ValidSchedule where
  slotsPerFrame := 2
  framesPerMultiframe := 2
  slotDurationUs := 10
  overheadUs := 2
  bandwidthHz := 1
  slots := List.replicate 4 (.tx 1 1000000 0 ⟨0⟩ 0)
  wellFormed := ⟨rfl, by decide, by decide, by simp [Schedule.SlotOk]⟩

/-- A start, two callbacks in their slots and a late one, with a stale callback in between. -/
def fourOps : List SlotOp :=
  [.install fourSlots true 3 true, .start true 5 true, .timedTx 4 40 41 true, .timedTx 4 42 43 true,
    .timedTx 5 50 51 true, .timedTx 6 75 76 true]

/-- The late callback is for slot 6, but slot 7 is current; so slot 8 is next. -/
theorem slots_in_order_late :
    (SlotRun.fresh.run fourOps).transmitted.map Prod.fst = [4, 5] ∧
      ((SlotRun.fresh.run fourOps).transmitted.Pairwise fun t t' => t.1 < t'.1) ∧
      ∃ slot, (SlotRun.fresh.run fourOps).layer.nextTxSlot = some slot ∧
        IsLeast (fourSlots.txAfter 7) slot := by
  obtain ⟨hincreasing, -, hnext, -⟩ := slots_in_order 10 0 fourOps (by decide)
    (by simp [fourOps, SlotOp.Lasts, fourSlots])
  obtain ⟨slot, hslot, hleast, -⟩ := hnext (by simp [fourOps, SlotOp.TimerOk]) fourSlots rfl
    ⟨0, rfl⟩
  exact ⟨rfl, hincreasing, slot, hslot, hleast⟩

/-- **A full schedule defers to the next multiframe**: slot 4 was handled last, slot 5 is a transmit
slot of the schedule in force, but slot 8 is next. -/
theorem full_schedule_skips_slots :
    let s := SlotRun.fresh.run [.install fourSlots true 3 true, .start true 5 true,
      .timedTx 4 40 41 true, .install fourSlots true 42 true]
    s.transmitted = [(4, fourSlots)] ∧ s.layer.running = some fourSlots ∧
      5 ∈ fourSlots.txAfter 4 ∧ s.layer.nextTxSlot = some 8 := by
  refine ⟨rfl, rfl, ⟨by decide, rfl⟩, rfl⟩

end Emane.Tdma
