import Mathlib
import Emane.Tdma.Slots

set_option autoImplicit false

/-! # Receptions in one slot

Of the frames accepted for a receive slot the one with the earliest start of reception waits for the
end of the slot. With a clock that does not go back, slots of one duration and callbacks that do not
come before the end of their slot, this frame is completed, and it is the only one of its slot
(`earliest_reception_completed`). A schedule that changes the duration of the slots in the middle of
one gives its number a second time (`slot_completed_twice`).
-/

namespace Emane.Tdma

open Emane.Lib

/-- A receive callback does not come before the end of its slot. -/
def SlotOp.NotEarly (duration : ℕ) : SlotOp → Prop
  | .timedRx value now => ((value + 1) * duration : ℕ) ≤ now
  | .start .. => True
  | .stop _ => True
  | .install .. => True
  | .timedTx .. => True
  | .upstream .. => True

/-- A reception that starts no later than the others of a slot. -/
structure Earliest (pending : PendingReception) (among : List PendingReception) : Prop where
  mem : pending ∈ among
  le : ∀ other ∈ among, pending.start ≤ other.start

theorem Earliest.lt (pending : PendingReception) {among : List PendingReception}
    (h : Earliest pending among) (hdistinct : (among.map PendingReception.start).Nodup)
    {other : PendingReception} (hother : other ∈ among) (hne : other ≠ pending) :
    pending.start < other.start :=
  lt_of_le_of_ne (h.le other hother) fun heq =>
    hne (List.inj_on_of_nodup_map hdistinct hother h.mem heq.symm)

/-! ## What `upstream` admits -/

section

variable {layer : Layer} {arrival : Arrival} {now : ℤ} {slot : ℕ} {pending : PendingReception}

/-- A frame is admitted by a started layer, for the current slot. -/
theorem Layer.admits_ok (h : layer.admits arrival now = .ok (slot, pending)) :
    layer.started = true ∧ ∃ schedule, layer.schedule = some schedule ∧
      schedule.absoluteSlot now = slot := by
  unfold admits at h
  split at h
  · cases h
  next hstarted =>
  refine ⟨by simpa using hstarted, ?_⟩
  split at h
  · cases h
  · cases h
  split at h
  · cases h
  split at h
  · cases h
  split at h
  · cases h
  next schedule hschedule =>
  dsimp only at h
  split at h
  · cases h
  split at h
  · cases h
  split at h
  · cases h
  · cases h
  split at h
  · cases h
  · cases h
    exact ⟨schedule, hschedule, rfl⟩

/-- What `upstream` does with a frame that it accepts: the reception waits, or an earlier one of the
slot does. -/
theorem Layer.upstream_ok {timer : Bool}
    (h : (layer.upstream arrival now timer).2 = .ok (slot, pending)) :
    layer.admits arrival now = .ok (slot, pending) ∧
    ((layer.upstream arrival now timer).1 =
        { layer with pendingRx := Function.update layer.pendingRx slot (some pending) } ∧
        (∀ previous, layer.pendingRx slot = some previous → pending.start < previous.start) ∨
      (layer.upstream arrival now timer).1 = layer ∧
        ∃ previous, layer.pendingRx slot = some previous ∧ previous.start ≤ pending.start) := by
  unfold upstream at h ⊢
  split at h
  · cases h
  next slot' pending' hadmits =>
  split at h
  · next previous hprevious =>
      split at h
      · next hearlier =>
          cases h
          refine ⟨hadmits, Or.inl ⟨by rw [if_pos hearlier], ?_⟩⟩
          rintro _ hsome
          rw [hprevious] at hsome
          cases hsome
          exact hearlier
      · next hlater =>
          cases h
          refine ⟨hadmits, Or.inr ⟨by rw [if_neg hlater], previous,
            hprevious, not_lt.mp hlater⟩⟩
  · next hnone =>
      split at h
      · next htimer =>
          cases h
          refine ⟨hadmits, Or.inl ⟨by rw [if_pos htimer], ?_⟩⟩
          rintro _ hsome
          rw [hnone] at hsome
          cases hsome
      · cases h

/-- A frame that is not accepted changes nothing. -/
theorem Layer.upstream_error {timer : Bool} {reason : UpstreamDrop}
    (h : (layer.upstream arrival now timer).2 = .error reason) :
    (layer.upstream arrival now timer).1 = layer := by
  unfold upstream at h ⊢
  split at h
  · rfl
  split at h
  · next previous hprevious =>
      split at h
      · cases h
      · cases h
  · next hnone =>
      split at h
      · cases h
      · next htimer => rw [if_neg htimer]

end

/-! ## The invariant -/

/-- A slot of the given duration is over. -/
def Over (duration : ℕ) (clock : ℤ) (slot : ℕ) : Prop := ((slot + 1) * duration : ℕ) ≤ clock

/-- The pending reception of a slot is the earliest one accepted for it, and the slots of the completed
receptions are over. -/
structure SlotRun.Arbitrated (duration : ℕ) (clock : ℤ) (s : SlotRun) : Prop where
  duration_eq : ∀ schedule, s.layer.schedule = some schedule → schedule.slotDurationUs = duration
  stopped : s.layer.started = false → s.accepted = []
  pending : ∀ slot pending, s.layer.pendingRx slot = some pending →
    Earliest pending (s.acceptedFor slot)
  idle : ∀ slot, s.layer.pendingRx slot = none →
    s.acceptedFor slot = [] ∨ slot ∈ s.chosen.map Choice.slot
  earliest : ∀ c ∈ s.chosen, Earliest c.reception c.among
  passed : ∀ c ∈ s.chosen, Over duration clock c.slot
  done : ∀ c ∈ s.chosen, s.layer.pendingRx c.slot = none
  once : (s.chosen.map Choice.slot).Nodup

namespace SlotRun

variable {duration : ℕ} {clock now : ℤ} {s : SlotRun}

theorem Arbitrated.later (h : s.Arbitrated duration clock) (hclock : clock ≤ now) :
    s.Arbitrated duration now :=
  { h with passed := fun c hc => le_trans (h.passed c hc) hclock }

/-- The change of parts of the layer that do not concern receptions. -/
theorem Arbitrated.change (h : s.Arbitrated duration clock) (layer : Layer)
    (hschedule : ∀ schedule, layer.schedule = some schedule → schedule.slotDurationUs = duration)
    (hstarted : layer.started = false → s.layer.started = false)
    (hpending : layer.pendingRx = s.layer.pendingRx) (transmitted chosenAfter) :
    Arbitrated duration clock
      { s with layer := layer, transmitted := transmitted, chosenAfter := chosenAfter } where
  duration_eq := hschedule
  stopped hstopped := h.stopped (hstarted hstopped)
  pending slot pending hslot := h.pending slot pending (hpending ▸ hslot)
  idle slot hslot := h.idle slot (hpending ▸ hslot)
  earliest := h.earliest
  passed := h.passed
  done c hc := (congrFun hpending c.slot).trans (h.done c hc)
  once := h.once

/-- After a stop nothing is pending. -/
theorem Arbitrated.stop (h : s.Arbitrated duration clock) :
    Arbitrated duration clock { s with layer := s.layer.stop, accepted := [] } where
  duration_eq := h.duration_eq
  stopped _ := rfl
  pending slot pending hslot := by cases hslot
  idle slot _ := Or.inl rfl
  earliest := h.earliest
  passed := h.passed
  done _ _ := rfl
  once := h.once

/-- No frame is accepted for a slot that is over. -/
theorem Arbitrated.not_over (h : s.Arbitrated duration clock) {arrival : Arrival} {slot : ℕ}
    {pending : PendingReception} (hadmits : s.layer.admits arrival now = .ok (slot, pending)) :
    ¬ Over duration now slot := by
  obtain ⟨-, schedule, hschedule, rfl⟩ := Layer.admits_ok hadmits
  have hpos : 0 < schedule.slotDurationUs := Nat.zero_lt_of_lt schedule.wellFormed.overhead_lt
  rw [← h.duration_eq schedule hschedule]
  unfold Over ValidSchedule.absoluteSlot
  intro hover
  have hlt := Nat.lt_mul_div_succ now.toNat hpos
  rw [Nat.mul_comm] at hlt
  omega

/-- An accepted frame, and the reception that waits after it. -/
theorem Arbitrated.accept (h : s.Arbitrated duration now) {arrival : Arrival} {timer : Bool}
    {slot : ℕ} {pending : PendingReception}
    (hok : (s.layer.upstream arrival now timer).2 = .ok (slot, pending)) :
    Arbitrated duration now { s with
      layer := (s.layer.upstream arrival now timer).1
      accepted := s.accepted ++ [(slot, pending)] } := by
  obtain ⟨hadmits, hcases⟩ := Layer.upstream_ok hok
  have hstarted := (Layer.admits_ok hadmits).1
  have hopen : slot ∉ s.chosen.map Choice.slot := by
    intro hmem
    obtain ⟨c, hc, rfl⟩ := List.mem_map.mp hmem
    exact h.not_over hadmits (h.passed c hc)
  obtain ⟨pendingRx, heq⟩ := s.layer.upstream_eq arrival now timer
  -- the receptions accepted for the slot, and for another one
  have hself : acceptedFor { s with accepted := s.accepted ++ [(slot, pending)] } slot =
      s.acceptedFor slot ++ [pending] := by
    simp [acceptedFor]
  have hother : ∀ slot', slot' ≠ slot →
      acceptedFor { s with accepted := s.accepted ++ [(slot, pending)] } slot' =
        s.acceptedFor slot' := by
    intro slot' hne
    simp [acceptedFor, hne.symm]
  -- the reception that waits is the earliest one
  have hslot : ∃ waits, (s.layer.upstream arrival now timer).1.pendingRx slot = some waits ∧
      Earliest waits (s.acceptedFor slot ++ [pending]) := by
    rcases hcases with ⟨hlayer, hearlier⟩ | ⟨hlayer, previous, hprevious, hle⟩
    · refine ⟨pending, by rw [hlayer]; exact Function.update_self .., by simp, ?_⟩
      intro other hmem
      rcases List.mem_append.mp hmem with hmem | hmem
      · cases hslot : s.layer.pendingRx slot with
        | none =>
            rw [(h.idle slot hslot).resolve_right hopen] at hmem
            cases hmem
        | some previous =>
            exact (hearlier previous hslot).le.trans ((h.pending slot previous hslot).le other hmem)
      · rw [List.mem_singleton.mp hmem]
    · refine ⟨previous, by rw [hlayer]; exact hprevious, ?_, ?_⟩
      · exact List.mem_append_left _ (h.pending slot previous hprevious).mem
      · intro other hmem
        rcases List.mem_append.mp hmem with hmem | hmem
        · exact (h.pending slot previous hprevious).le other hmem
        · rw [List.mem_singleton.mp hmem]
          exact hle
  have hrest : ∀ slot', slot' ≠ slot →
      (s.layer.upstream arrival now timer).1.pendingRx slot' = s.layer.pendingRx slot' := by
    intro slot' hne
    rcases hcases with ⟨hlayer, -⟩ | ⟨hlayer, -⟩
    · rw [hlayer]
      exact Function.update_of_ne hne ..
    · rw [hlayer]
  obtain ⟨waits, hwaits, hearliest⟩ := hslot
  constructor
  · simp only [heq]
    exact h.duration_eq
  · simp only [heq, hstarted]
    simp
  · intro slot' pending' hpending'
    by_cases hslot' : slot' = slot
    · subst hslot'
      rw [hwaits] at hpending'
      cases hpending'
      exact hself ▸ hearliest
    · rw [hrest slot' hslot'] at hpending'
      exact hother slot' hslot' ▸ h.pending slot' pending' hpending'
  · intro slot' hnone
    by_cases hslot' : slot' = slot
    · subst hslot'
      rw [hwaits] at hnone
      cases hnone
    · rw [hrest slot' hslot'] at hnone
      exact hother slot' hslot' ▸ h.idle slot' hnone
  · exact h.earliest
  · exact h.passed
  · intro c hc
    have hne : c.slot ≠ slot := fun heq => hopen (heq ▸ List.mem_map_of_mem hc)
    rw [hrest c.slot hne]
    exact h.done c hc
  · exact h.once

/-- A reception is pending only while the layer is started. -/
theorem Arbitrated.started (h : s.Arbitrated duration clock) {slot : ℕ} {pending : PendingReception}
    (hpending : s.layer.pendingRx slot = some pending) : s.layer.started = true := by
  by_contra hstopped
  have hmem := (h.pending slot pending hpending).mem
  rw [acceptedFor, h.stopped (by simpa using hstopped)] at hmem
  cases hmem

/-- A callback completes the pending reception of its slot. -/
theorem Arbitrated.complete (h : s.Arbitrated duration now) {value : ℕ}
    (hover : Over duration now value) : (s.step (.timedRx value now)).Arbitrated duration now := by
  have hpending : ∀ slot pending, Function.update s.layer.pendingRx value none slot = some pending →
      slot ≠ value ∧ s.layer.pendingRx slot = some pending := by
    intro slot pending hslot
    by_cases heq : slot = value
    · subst heq
      rw [Function.update_self] at hslot
      cases hslot
    · exact ⟨heq, by rwa [Function.update_of_ne heq] at hslot⟩
  have hdone : ∀ slot, s.layer.pendingRx slot = none →
      Function.update s.layer.pendingRx value none slot = none := by
    intro slot hslot
    by_cases heq : slot = value
    · subst heq
      exact Function.update_self ..
    · rwa [Function.update_of_ne heq]
  unfold SlotRun.step Layer.completeReceive
  dsimp only
  cases hvalue : s.layer.pendingRx value with
  | none =>
      rw [Option.filter_none, Option.map_none, Option.toList_none, List.append_nil]
      have hsame : Function.update s.layer.pendingRx value none = s.layer.pendingRx := by
        rw [← hvalue, Function.update_eq_self]
      rw [hsame]
      exact h
  | some pending =>
      have hchosen : (some pending).filter (fun _ => s.layer.started) = some pending := by
        simp [h.started hvalue]
      rw [hchosen, Option.map_some, Option.toList_some]
      have hnew : value ∉ s.chosen.map Choice.slot := by
        intro hmem
        obtain ⟨c, hc, rfl⟩ := List.mem_map.mp hmem
        rw [h.done c hc] at hvalue
        cases hvalue
      constructor
      · exact h.duration_eq
      · exact h.stopped
      · exact fun slot pending' hslot => h.pending slot pending' (hpending slot pending' hslot).2
      · intro slot hslot
        rw [List.map_append, List.mem_append]
        by_cases heq : slot = value
        · exact Or.inr (Or.inr (by simp [heq]))
        · dsimp only at hslot
          rw [Function.update_of_ne heq] at hslot
          exact (h.idle slot hslot).imp id Or.inl
      · refine List.forall_mem_append.mpr ⟨h.earliest, ?_⟩
        simpa using h.pending value pending hvalue
      · refine List.forall_mem_append.mpr ⟨h.passed, ?_⟩
        simpa using hover
      · refine List.forall_mem_append.mpr ⟨fun c hc => hdone c.slot (h.done c hc), ?_⟩
        simp
      · rw [List.map_append, List.nodup_append]
        refine ⟨h.once, List.nodup_singleton _, ?_⟩
        intro slot hslot slot' hslot' heq
        rw [List.map_singleton, List.mem_singleton] at hslot'
        change slot' = value at hslot'
        rw [heq, hslot'] at hslot
        exact hnew hslot

/-- **One step keeps the invariant.** -/
theorem Arbitrated.step {op : SlotOp} (hlasts : op.Lasts duration) (hearly : op.NotEarly duration)
    (hbegins : clock ≤ op.begins) (hfinishes : op.begins ≤ op.finishes)
    (h : s.Arbitrated duration clock) : (s.step op).Arbitrated duration op.finishes := by
  have hnow := h.later hbegins
  cases op with
  | start loaded now timer =>
      unfold SlotRun.step Layer.start
      cases loaded with
      | true =>
          exact hnow.change _ (by simpa using h.duration_eq) (by simp) (by simp) _ _
      | false => exact hnow
  | stop now => exact hnow.stop
  | install schedule full now timer =>
      refine hnow.change _ ?_ (by simp [Layer.install]) (by simp [Layer.install]) _ _
      simp only [Layer.install, Layer.scheduleNextTx_schedule, Option.some.injEq]
      rintro _ rfl
      exact hlasts
  | timedTx value now later timer =>
      have hlater := hnow.later hfinishes
      by_cases hnext : s.layer.nextTxSlot = some value
      · simp only [SlotRun.step, Layer.timedTx, if_pos hnext]
        exact hlater.change _ (by simpa using h.duration_eq) (by simp) (by simp) _ _
      · simp only [SlotRun.step, Layer.timedTx, if_neg hnext, Option.toList_none, List.append_nil]
        exact hlater
  | timedRx value now => exact hnow.complete hearly
  | upstream arrival now timer =>
      unfold SlotRun.step
      dsimp only
      cases hresult : (s.layer.upstream arrival now timer).2 with
      | error reason =>
          rw [Layer.upstream_error hresult]
          simp only [Except.toOption, Option.toList_none, List.append_nil]
          exact hnow
      | ok e => exact hnow.accept hresult

theorem fresh_arbitrated (duration : ℕ) (clock : ℤ) : fresh.Arbitrated duration clock := by
  constructor <;> simp [fresh, Layer.fresh, acceptedFor]

end SlotRun

/-! ## One reception for each slot -/

/-- **The earliest reception of a slot is completed, and no other.** In every run with a clock that does
not go back, slots of one duration and receive callbacks that are not early: a completed reception is
the one with the smallest start among those accepted for its slot, whatever their order; no slot has two
completed receptions; a callback completes one if receptions were accepted for the slot and none of
them was completed, and nothing if one was. -/
theorem earliest_reception_completed (duration : ℕ) (clock : ℤ) (ops : List SlotOp)
    (htimed : Timed SlotOp.begins SlotOp.finishes clock ops)
    (hlasts : ∀ op ∈ ops, op.Lasts duration) (hearly : ∀ op ∈ ops, op.NotEarly duration) :
    let s := SlotRun.fresh.run ops
    (∀ c ∈ s.chosen, c.reception ∈ c.among ∧ ((c.among.map PendingReception.start).Nodup →
      ∀ other ∈ c.among, other ≠ c.reception → c.reception.start < other.start)) ∧
    (s.chosen.map Choice.slot).Nodup ∧
    (∀ slot now, s.acceptedFor slot ≠ [] → slot ∉ s.chosen.map Choice.slot →
      ∃ reception, (s.step (.timedRx slot now)).chosen =
        s.chosen ++ [⟨slot, reception, s.acceptedFor slot⟩]) ∧
    ∀ slot now, slot ∈ s.chosen.map Choice.slot → (s.step (.timedRx slot now)).chosen = s.chosen := by
  intro s
  obtain ⟨_, h⟩ := timed_invariant (I := SlotRun.Arbitrated duration)
    (fun op => op.Lasts duration ∧ op.NotEarly duration)
    (fun clock s op hop hbegins hfinishes h => h.step hop.1 hop.2 hbegins hfinishes) ops clock
    SlotRun.fresh (fun op hop => ⟨hlasts op hop, hearly op hop⟩) htimed
    (SlotRun.fresh_arbitrated duration clock)
  change SlotRun.Arbitrated duration _ s at h
  refine ⟨fun c hc => ⟨(h.earliest c hc).mem, fun hdistinct other hother hne => ?_⟩, h.once, ?_, ?_⟩
  · exact (h.earliest c hc).lt _ hdistinct hother hne
  · intro slot now haccepted hnot
    cases hpending : s.layer.pendingRx slot with
    | none => exact absurd (h.idle slot hpending) (not_or.mpr ⟨haccepted, hnot⟩)
    | some pending =>
        have hstarted : s.layer.started = true := h.started hpending
        refine ⟨pending, ?_⟩
        simp [SlotRun.step, Layer.completeReceive, hpending, hstarted]
  · intro slot now hmem
    obtain ⟨c, hc, rfl⟩ := List.mem_map.mp hmem
    simp [SlotRun.step, Layer.completeReceive, h.done c hc]

/-! ## A schedule of receive slots -/

/-- A schedule of receive slots of the given duration. -/
def listening (duration : ℕ) (h : 0 < duration) : ValidSchedule where
  slotsPerFrame := 1
  framesPerMultiframe := 1
  slotDurationUs := duration
  overheadUs := 0
  bandwidthHz := 1
  slots := [.rx 7]
  wellFormed := ⟨rfl, Nat.one_pos, h, by simp [Schedule.SlotOk]⟩

/-- A frame of one microsecond for slot 5. -/
def frameAt (source : UInt16) (start : ℤ) : Arrival where
  info := ⟨source, 1, 0⟩
  wire := ⟨5, 1, []⟩
  serializationLen := 4
  header := some ⟨5, 0, 1, 0, 1, 0⟩
  rx := some ⟨7, ⟨0⟩, start, 0, 1⟩
  segments := none

/-- Two frames of slot 5, the later one first, and two callbacks. -/
def lockedOps : List SlotOp :=
  [.install (listening 10 (by decide)) true 3 true, .start true 5 true,
    .upstream (frameAt 2 56) 57 true, .upstream (frameAt 3 52) 58 true, .timedRx 5 60, .timedRx 5 70]

/-- The frame that started first is completed, once. -/
theorem earliest_reception_completed_two :
    (SlotRun.fresh.run lockedOps).chosen.map (fun c => (c.slot, c.reception.info.source)) = [(5, 3)] ∧
      ((SlotRun.fresh.run lockedOps).chosen.map Choice.slot).Nodup := by
  obtain ⟨-, honce, -⟩ := earliest_reception_completed 10 0 lockedOps (by decide)
    (by simp [lockedOps, SlotOp.Lasts, listening]) (by simp [lockedOps, SlotOp.NotEarly])
  exact ⟨by decide +kernel, honce⟩

/-- **Slot 5 twice.** The slots get longer while a reception of slot 5 is pending, so that slot 5 is
still current when that reception is completed. Of the two frames accepted for the longer slot 5 the
one that started later is completed at its end, and two receptions of slot 5 are completed. -/
theorem slot_completed_twice :
    let s := SlotRun.fresh.run [.install (listening 10 (by decide)) true 3 true, .start true 5 true,
      .upstream (frameAt 2 52) 55 true, .install (listening 11 (by decide)) true 56 true,
      .upstream (frameAt 3 56) 57 true, .timedRx 5 60, .upstream (frameAt 4 61) 62 true, .timedRx 5 66]
    s.accepted.map (fun e => (e.1, e.2.info.source, e.2.start)) =
        [(5, 2, 52), (5, 3, 56), (5, 4, 61)] ∧
      s.chosen.map (fun c => (c.slot, c.reception.info.source)) = [(5, 2), (5, 4)] := by
  decide +kernel

end Emane.Tdma
