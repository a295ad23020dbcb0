import Mathlib
import Emane.BentPipe.Lifecycle

set_option autoImplicit false

/-! # Slots and airtime of BentPipe transmissions

`nextSlot` gives the start of an own slot. `drive` sends at a time that is such a start, or inside the
slot for which the transponder was woken, and only when the airtime of the last transmission is over;
both at the reading of the clock with which it decides. The invariant is `Disciplined`.

The frame is stamped with a later reading, and a transponder that was woken late in its slot sends all
the same, so that a frame may end after its slot, and may begin before the one before it has ended: see
`slots_not_kept`. A relay that waits for its packet enters the time when the packet is due as the
wakeup, be it in a slot or not; `RelaysAligned` leaves this out.
-/

namespace Emane.BentPipe

open Emane.Lib
open Std (ExtTreeMap)

/-! ## Slots -/

/-- One of the transponder's slots begins at `time`. -/
def OwnSlotStart (t : FullTransponder) (time : ℤ) : Prop :=
  ∃ frame : ℤ, ∃ slot ∈ t.transmitSlots,
    time = (frame * t.transmitSlotsPerFrame + slot) * t.transmitSlotSizeUs

section

variable {t : FullTransponder}

theorem FullTransponder.slotted_iff : t.slotted = true ↔
    t.transmitSlotSizeUs ≠ 0 ∧ t.transmitSlotsPerFrame ≠ 0 ∧ t.transmitSlots ≠ [] := by
  simp [slotted, and_assoc]

/-- The slot that is `frames` frames after the frame of slot number `absolute`. -/
theorem ownSlotStart_of_mem {slot : ℕ} (hslot : slot ∈ t.transmitSlots)
    (hframe : t.transmitSlotsPerFrame ≠ 0) (absolute frames : ℤ) :
    OwnSlotStart t ((absolute + (frames * t.transmitSlotsPerFrame -
      (absolute % (t.transmitSlotsPerFrame : ℤ)).toNat + slot)) * t.transmitSlotSizeUs) := by
  refine ⟨absolute / t.transmitSlotsPerFrame + frames, slot, hslot, ?_⟩
  have hpos : (t.transmitSlotsPerFrame : ℤ) ≠ 0 := Int.natCast_ne_zero.mpr hframe
  have hdiv := Int.mul_ediv_add_emod absolute t.transmitSlotsPerFrame
  rw [Int.toNat_of_nonneg (Int.emod_nonneg absolute hpos)]
  congr 1
  linear_combination -hdiv

/-- What `next_slot` finds: a later slot of this frame, this slot if it begins now, or the first slot
of the next frame. -/
theorem nextSlot_cases (hslotted : t.slotted = true) (now : ℤ) :
    ∃ slot ∈ t.transmitSlots, ∃ frames : ℤ, ∃ current : ℕ,
      current = (now / (t.transmitSlotSizeUs : ℤ) % (t.transmitSlotsPerFrame : ℤ)).toNat ∧
      nextSlot t now = (now / (t.transmitSlotSizeUs : ℤ) +
        (frames * t.transmitSlotsPerFrame - current + slot)) * t.transmitSlotSizeUs ∧
      ((frames = 0 ∧ current < slot) ∨
        (frames = 0 ∧ slot = current ∧ now.tmod t.transmitSlotSizeUs = 0) ∨ frames = 1) := by
  obtain ⟨hsize, hframe, hne⟩ := FullTransponder.slotted_iff.mp hslotted
  unfold nextSlot
  split
  next hnil => exact absurd hnil hne
  next first rest hcons =>
    rw [if_neg (by omega), ← hcons]
    dsimp only
    split
    next slot hfind =>
      have hcond := List.find?_some hfind
      simp only [Bool.or_eq_true, Bool.and_eq_true, decide_eq_true_eq, beq_iff_eq] at hcond
      refine ⟨slot, List.mem_of_find?_eq_some hfind, 0, _, rfl, by ring, ?_⟩
      rcases hcond with hlt | ⟨heq, hstart⟩
      · exact .inl ⟨rfl, hlt⟩
      · exact .inr (.inl ⟨rfl, heq, hstart⟩)
    next =>
      refine ⟨first, ?_, 1, _, rfl, by ring, .inr (.inr rfl)⟩
      rw [hcons]
      exact List.mem_cons_self

/-- **`next_slot` gives the start of an own slot**, and none that began before `now`. -/
theorem nextSlot_spec (hslotted : t.slotted = true) (now : ℤ) :
    OwnSlotStart t (nextSlot t now) ∧ now ≤ nextSlot t now := by
  obtain ⟨hsize, hframe, -⟩ := FullTransponder.slotted_iff.mp hslotted
  obtain ⟨slot, hslot, frames, current, hcurrent, hnext, hcases⟩ := nextSlot_cases hslotted now
  have hsizePos : (0 : ℤ) < t.transmitSlotSizeUs := by omega
  have hnow := Int.mul_ediv_add_emod now t.transmitSlotSizeUs
  have hrest := Int.emod_lt_of_pos now hsizePos
  have hplace : (current : ℤ) < t.transmitSlotsPerFrame := by
    have := Int.emod_lt_of_pos (now / (t.transmitSlotSizeUs : ℤ))
      (show (0 : ℤ) < t.transmitSlotsPerFrame by omega)
    omega
  -- a slot after the current one begins after `now`
  have hlater : ∀ n : ℤ, 1 ≤ n →
      now ≤ (now / (t.transmitSlotSizeUs : ℤ) + n) * t.transmitSlotSizeUs := by
    intro n hn
    nlinarith
  rw [hnext]
  refine ⟨?_, ?_⟩
  · rw [hcurrent]
    exact ownSlotStart_of_mem hslot hframe _ frames
  · rcases hcases with ⟨rfl, hlt⟩ | ⟨rfl, rfl, hstart⟩ | rfl
    · exact hlater _ (by omega)
    · have hzero : now % (t.transmitSlotSizeUs : ℤ) = 0 :=
        Int.emod_eq_zero_of_dvd (Int.dvd_of_tmod_eq_zero hstart)
      have hsame : (0 * (t.transmitSlotsPerFrame : ℤ) - slot + slot) = 0 := by ring
      rw [hsame, add_zero]
      linarith
    · exact hlater _ (by omega)

end

/-! ## Airtime -/

theorem airtime_pos {bytes rate : ℕ} (hbytes : 0 < bytes) (hrate : rate ≠ 0)
    (hlt : rate < 2 ^ 64) : 1 ≤ airtime bytes rate := by
  unfold airtime
  rw [if_neg hrate, Nat.le_div_iff_mul_le (by omega), one_mul]
  omega

/-- Bytes that the rate carries in `time` microseconds take no longer. -/
theorem airtime_le {bytes rate time : ℕ} (h : bytes * 8000000 ≤ rate * time) :
    airtime bytes rate ≤ time := by
  unfold airtime
  split
  · exact Nat.zero_le time
  next hrate =>
    have hdiv : min (min (bytes * 8000000) (2 ^ 64 - 1) + (rate - 1)) (2 ^ 64 - 1) ≤
        time * rate + (rate - 1) := by
      rw [mul_comm time rate]
      omega
    calc min (min (bytes * 8000000) (2 ^ 64 - 1) + (rate - 1)) (2 ^ 64 - 1) / rate
        ≤ (time * rate + (rate - 1)) / rate := Nat.div_le_div_right hdiv
      _ = time := by
          rw [Nat.add_comm, Nat.add_mul_div_right _ _ (by omega),
            Nat.div_eq_of_lt (show rate - 1 < rate by omega), Nat.zero_add]

theorem dataBytes_cons (c : TxComponent) (cs : List TxComponent) :
    dataBytes (c :: cs) = c.packet.payload.length + dataBytes cs := rfl

theorem length_lastComponent (front : PendingTx) :
    (lastComponent front).packet.payload.length =
      front.packet.payload.length - front.offset := List.length_drop

theorem length_nextFragment {front : PendingTx} {available : ℕ}
    (h : available < front.packet.payload.length - front.offset) :
    (nextFragment front available).packet.payload.length = available := by
  simp only [nextFragment, List.extract_eq_take_drop, List.length_take, List.length_drop]
  omega

/-- The components of a frame carry a byte each at least, and together no more than the MTU. -/
theorem dequeueLoop_bytes (aggregate fragment : Bool) (mtu : ℕ) (now : ℤ) (used : ℕ)
    (queue : List PendingTx) :
    dataBytes (dequeueLoop aggregate fragment mtu now used queue).components ≤ mtu - used ∧
      ((dequeueLoop aggregate fragment mtu now used queue).components ≠ [] →
        0 < dataBytes (dequeueLoop aggregate fragment mtu now used queue).components) := by
  fun_induction dequeueLoop aggregate fragment mtu now used queue with
  | case1 | case2 | case3 => exact ⟨Nat.zero_le _, fun h => absurd rfl h⟩
  | case4 used front rest _ _ remaining hzero ih => exact ih
  | case5 used front rest _ _ remaining available hzero hle _ =>
      rw [dataBytes_cons, length_lastComponent]
      simp only [dataBytes, List.map_nil, List.sum_nil]
      omega
  | case6 used front rest _ _ remaining available hzero hle _ r ih =>
      obtain ⟨hbytes, -⟩ := ih
      change dataBytes r.components ≤ mtu - (used + remaining) at hbytes
      rw [dataBytes_cons, length_lastComponent]
      omega
  | case7 used front rest _ _ remaining available hzero hle _ =>
      rw [dataBytes_cons, length_nextFragment (by omega)]
      simp only [dataBytes, List.map_nil, List.sum_nil]
      omega
  | case8 used front rest _ _ remaining available hzero hle _ r ih => exact ih

/-- A frame of an MTU that follows from the slot fits in it. -/
theorem airtime_le_slot {t : FullTransponder} {bytes : ℕ} (hmtu : t.transmitMtuBytes = 0)
    (hbytes : bytes ≤ effectiveMtu t.toTransponder) :
    airtime bytes t.transmitDataRateBps ≤ t.transmitSlotSizeUs := by
  apply airtime_le
  unfold effectiveMtu at hbytes
  rw [if_neg (not_not_intro hmtu)] at hbytes
  split at hbytes
  · calc bytes * 8000000
        ≤ t.transmitDataRateBps * t.transmitSlotSizeUs / 8000000 * 8000000 :=
          Nat.mul_le_mul_right _ hbytes
      _ ≤ t.transmitDataRateBps * t.transmitSlotSizeUs := Nat.div_mul_le_self ..
  · omega

/-! ## What driving a transponder does -/

namespace Mac

/-- What `serve` does to the transmissions and to their ends: nothing is sent, or a frame goes out,
decided at `now` when the transponder was allowed to send and its airtime was over. -/
inductive Outcome (mac : Mac) (index : UInt16) (t : FullTransponder)
    (now allowed startOfTransmission : ℤ) (mac' : Mac) : Prop
  | quiet : mac'.sent = mac.sent → (∀ i, mac.eot i ≤ mac'.eot i) → Outcome mac index t now allowed
      startOfTransmission mac'
  | sends (frame : TxFrame) : mac'.sent = mac.sent ++ [⟨index, now, frame⟩] →
      frame.txTime = startOfTransmission → mac.eot index ≤ now → allowed ≤ now →
      now + frame.duration ≤ mac'.eot index → (∀ i, mac.eot i ≤ mac'.eot i) →
      (t.slotted = true → t.transmitMtuBytes = 0 → frame.duration ≤ t.transmitSlotSizeUs) →
      Outcome mac index t now allowed startOfTransmission mac'

variable {encodedLen : BentPipeMessage → ℕ} {mac : Mac} {index : UInt16} {t : FullTransponder}
  {now allowed : ℤ}

/-- What taking components does: there are none and the end of transmission is as before, or it is set
to the end of their airtime. -/
theorem takeComponents_cases (mac : Mac) (index : UInt16) (t : FullTransponder) (now allowed : ℤ) :
    ((mac.takeComponents index t now allowed).2 = [] ∧
      (mac.takeComponents index t now allowed).1.currentEot = mac.currentEot) ∨
    ((mac.takeComponents index t now allowed).2 ≠ [] ∧ mac.eot index ≤ now ∧ allowed ≤ now ∧
      0 < dataBytes (mac.takeComponents index t now allowed).2 ∧
      dataBytes (mac.takeComponents index t now allowed).2 ≤ effectiveMtu t.toTransponder ∧
      (mac.takeComponents index t now allowed).1.currentEot =
        Function.update mac.currentEot index (some (now +
          airtime (dataBytes (mac.takeComponents index t now allowed).2) t.transmitDataRateBps))) := by
  unfold takeComponents
  split
  case isFalse => exact .inl ⟨rfl, rfl⟩
  case isTrue hcan =>
    have hbytes := dequeueLoop_bytes mac.aggregationEnable mac.fragmentationEnable
      (effectiveMtu t.toTransponder) now 0 (mac.queues index)
    simp only [canSend, Bool.and_eq_true, decide_eq_true_eq] at hcan
    dsimp only
    split
    · exact .inl ⟨rfl, rfl⟩
    next hempty =>
      have hne : (dequeueComponents mac.state index (effectiveMtu t.toTransponder) now).2.1 ≠ [] :=
        fun h => hempty (by rw [h]; rfl)
      exact .inr ⟨hne, hcan.1.2, hcan.2, hbytes.2 hne, hbytes.1, rfl⟩

theorem eot_le_of_update {mac mac' : Mac} {time : ℤ} (hle : mac.eot index ≤ time)
    (h : mac'.currentEot = Function.update mac.currentEot index (some time)) :
    mac'.eot index = time ∧ ∀ i, mac.eot i ≤ mac'.eot i := by
  have hself : mac'.eot index = time := by rw [eot, h, Function.update_self, Option.getD_some]
  refine ⟨hself, fun i => ?_⟩
  by_cases hi : i = index
  · rw [hi, hself]
    exact hle
  · exact le_of_eq (by rw [eot, eot, h, Function.update_of_ne hi])

/-- `serve` enters a wakeup for a slot, or none. -/
theorem serve_wakeups (encodedLen : BentPipeMessage → ℕ) (mac : Mac) (index : UInt16) (t : FullTransponder)
    (now allowed startOfTransmission : ℤ) :
    (mac.serve encodedLen index t now allowed startOfTransmission).transponders = mac.transponders ∧
      ((mac.serve encodedLen index t now allowed startOfTransmission).wakeups = mac.wakeups ∨
        ∃ time, (mac.serve encodedLen index t now allowed startOfTransmission).wakeups =
          mac.wakeups.schedule index (nextSlot t time)) := by
  obtain ⟨after, queue, currentEot, frameSequence, sent, hafter, hserve⟩ :=
    mac.serve_eq encodedLen index t now allowed startOfTransmission
  obtain ⟨wakeups, hwakeups, hcases⟩ := after.scheduleNext_eq index (after.nextWakeup index t now)
  rw [hserve, hwakeups]
  subst hafter
  refine ⟨rfl, ?_⟩
  rcases hcases with heq | ⟨time, htime, heq⟩
  · exact .inl heq
  · obtain ⟨front, _, rfl⟩ := Option.map_eq_some_iff.mp htime
    exact .inr ⟨_, heq⟩

/-- The frame that the components give, if it is not too long. -/
theorem sent_handDown (encodedLen : BentPipeMessage → ℕ) {components : List TxComponent}
    (hne : components ≠ []) (mac : Mac) (index : UInt16) (t : FullTransponder) (now : ℤ)
    (frameSequence : UInt64) (startOfTransmission : ℤ) :
    (mac.handDown encodedLen index t now components frameSequence startOfTransmission).sent = mac.sent ∨
      ∃ frame : TxFrame, frame.txTime = startOfTransmission ∧
        frame.duration = max (airtime (dataBytes components) t.transmitDataRateBps) 1 ∧
        (mac.handDown encodedLen index t now components frameSequence startOfTransmission).sent =
          mac.sent ++ [⟨index, now, frame⟩] := by
  have hempty : components.isEmpty = false := by simpa using hne
  unfold handDown
  rw [hempty, if_neg Bool.false_ne_true]
  cases hframe : sendDownstream encodedLen components frameSequence t startOfTransmission with
  | none => exact .inl (List.append_nil _)
  | some frame =>
      refine .inr ⟨frame, ?_, ?_, rfl⟩ <;>
      · unfold sendDownstream at hframe
        dsimp only at hframe
        split at hframe
        · rw [← Option.some.inj hframe]
        · cases hframe

/-- **What driving a transponder sends.** -/
theorem serve_outcome (encodedLen : BentPipeMessage → ℕ) (hrate : t.transmitDataRateBps ≠ 0)
    (startOfTransmission : ℤ) :
    Outcome mac index t now allowed startOfTransmission
      (mac.serve encodedLen index t now allowed startOfTransmission) := by
  have hcases := mac.takeComponents_cases index t now allowed
  unfold serve
  generalize htaken : mac.takeComponents index t now allowed = taken at hcases
  obtain ⟨queue, currentEot, frameSequence, hmac⟩ := mac.takeComponents_eq index t now allowed
  rw [htaken] at hmac
  have hsame : taken.1.sent = mac.sent := by rw [hmac]
  obtain ⟨sent, hsent⟩ :=
    taken.1.handDown_eq encodedLen index t now taken.2 mac.frameSequence startOfTransmission
  obtain ⟨wakeups, hwakeups, -⟩ :=
    (taken.1.handDown encodedLen index t now taken.2 mac.frameSequence
      startOfTransmission).scheduleNext_eq index (taken.1.nextWakeup index t now)
  have heot : ∀ i, Mac.eot { taken.1.handDown encodedLen index t now taken.2 mac.frameSequence
      startOfTransmission with wakeups := wakeups } i = taken.1.eot i := by
    intro i
    rw [hsent]
    rfl
  dsimp only
  rw [hwakeups]
  rcases hcases with ⟨hnil, hcurrent⟩ | ⟨hne, hover, hallowed, hpos, hmtu, hcurrent⟩
  · refine .quiet ?_ fun i => ?_
    · rw [← hsame, hnil]
      rfl
    · rw [heot, eot, eot, hcurrent]
  · have hair := airtime_pos hpos hrate t.rate_lt
    obtain ⟨hself, hmono⟩ := eot_le_of_update (by omega) hcurrent
    rcases sent_handDown encodedLen hne taken.1 index t now mac.frameSequence startOfTransmission with
      hdropped | ⟨frame, htime, hduration, hlog⟩
    · refine .quiet (hdropped.trans hsame) fun i => ?_
      rw [heot]
      exact hmono i
    · refine .sends frame (hlog.trans (by rw [hsame])) htime hover hallowed ?_ (fun i => ?_) ?_
      · rw [heot, hself, hduration]
        omega
      · rw [heot]
        exact hmono i
      · intro hslotted hzero
        have hfits := airtime_le_slot hzero hmtu
        have hsize := (FullTransponder.slotted_iff.mp hslotted).1
        rw [hduration]
        omega

end Mac

/-! ## The invariant -/

/-- `time` is the start of an own slot, if transponder `index` has slots. -/
def SlotTime (ts : ExtTreeMap UInt16 FullTransponder) (index : UInt16) (time : ℤ) : Prop :=
  ∀ t : FullTransponder, ts[index]? = some t → t.slotted = true → OwnSlotStart t time

/-- The wakeups of the transponders in `good` are starts of slots. -/
def Aligned (ts : ExtTreeMap UInt16 FullTransponder) (good : UInt16 → Prop)
    (wakeups : Agenda UInt16 ℤ) : Prop :=
  ∀ index time, wakeups.due index = some time → good index → SlotTime ts index time

theorem Aligned.schedule {ts : ExtTreeMap UInt16 FullTransponder} {good : UInt16 → Prop}
    {wakeups : Agenda UInt16 ℤ} (h : Aligned ts good wakeups) {index : UInt16} {time : ℤ}
    (htime : good index → SlotTime ts index time) :
    Aligned ts good (wakeups.schedule index time) := by
  intro i w hw
  obtain hold | ⟨rfl, rfl⟩ := Agenda.due_schedule_cases hw
  · exact h i w hold
  · exact htime

theorem slotTime_nextSlot {ts : ExtTreeMap UInt16 FullTransponder} {index : UInt16}
    {t : FullTransponder} (ht : ts[index]? = some t) (now : ℤ) :
    SlotTime ts index (nextSlot t now) := by
  intro t' ht' hslotted
  obtain rfl := Option.some.inj (ht.symm.trans ht')
  exact (nextSlot_spec hslotted now).1

/-- What the invariant says about a transmission: it was stamped with a reading of the clock that is not
earlier than the decision, which fell inside an own slot if the transponder is `good`. A frame of an MTU
that follows from the slot is not longer than the slot. -/
structure Transmission.InSlot (ts : ExtTreeMap UInt16 FullTransponder) (good : UInt16 → Prop)
    (x : Transmission) : Prop where
  stamped : x.decided ≤ x.frame.txTime
  slot : good x.index → ∀ t : FullTransponder, ts[x.index]? = some t → t.slotted = true →
    ∃ time, OwnSlotStart t time ∧ time ≤ x.decided ∧ x.decided < time + t.transmitSlotSizeUs
  fits : ∀ t : FullTransponder, ts[x.index]? = some t → t.slotted = true → t.transmitMtuBytes = 0 →
    x.frame.duration ≤ t.transmitSlotSizeUs

/-- The second transmission of a transponder is decided after the airtime of the first. -/
def Transmission.Before (x y : Transmission) : Prop :=
  x.index = y.index → x.decided + x.frame.duration ≤ y.decided

/-- A packet that transponder `index` relays is sent at once, or is due at the start of a slot. -/
def Event.RelaysAligned (ts : ExtTreeMap UInt16 FullTransponder) (index : UInt16) : Event → Prop
  | .upstream r => r.transponder = some index → ∀ t : FullTransponder, ts[index]? = some t →
      t.receiveAction = .ubend → ∀ m ∈ r.messages,
        relayTime r.endOfReception m.now t.transmitDelayUs ≤ m.now ∨
          SlotTime ts index (relayTime r.endOfReception m.now t.transmitDelayUs)
  | _ => True

namespace Mac

/-- A layer with the transponders `ts`: wakeups of `good` transponders are starts of their slots,
transmissions kept their slots and follow each other, and the airtime of each is over at the end of
transmission the layer keeps. -/
structure Disciplined (ts : ExtTreeMap UInt16 FullTransponder) (good : UInt16 → Prop) (mac : Mac) :
    Prop where
  transponders : mac.transponders = ts
  aligned : Aligned ts good mac.wakeups
  inSlot : ∀ x ∈ mac.sent, x.InSlot ts good
  spaced : mac.sent.Pairwise Transmission.Before
  ended : ∀ x ∈ mac.sent, x.decided + x.frame.duration ≤ mac.eot x.index

variable {encodedLen : BentPipeMessage → ℕ} {ts : ExtTreeMap UInt16 FullTransponder}
  {good : UInt16 → Prop} {mac : Mac} {index : UInt16}
  {t : FullTransponder}

/-- The invariant is about transponders, wakeups, transmissions and their ends. -/
theorem Disciplined.of_eq (h : mac.Disciplined ts good) {mac' : Mac}
    (htransponders : mac'.transponders = mac.transponders) (hwakeups : mac'.wakeups = mac.wakeups)
    (hsent : mac'.sent = mac.sent) (heot : mac'.currentEot = mac.currentEot) :
    mac'.Disciplined ts good where
  transponders := htransponders.trans h.transponders
  aligned := by
    rw [hwakeups]
    exact h.aligned
  inSlot := by
    rw [hsent]
    exact h.inSlot
  spaced := by
    rw [hsent]
    exact h.spaced
  ended := by
    rw [hsent]
    intro x hx
    rw [eot, heot]
    exact h.ended x hx

theorem Disciplined.scheduleTransmit (h : mac.Disciplined ts good) {time : ℤ}
    (htime : good index → SlotTime ts index time) :
    (mac.scheduleTransmit index time).Disciplined ts good := by
  rw [scheduleTransmit_eq]
  split
  · exact ⟨h.transponders, h.aligned.schedule htime, h.inSlot, h.spaced, h.ended⟩
  · exact h

/-- Transmissions that are there stay, and a later end of transmission does no harm. -/
theorem Disciplined.quiet (h : mac.Disciplined ts good) {mac' : Mac}
    (htransponders : mac'.transponders = ts) (haligned : Aligned ts good mac'.wakeups)
    (hsent : mac'.sent = mac.sent) (hmono : ∀ i, mac.eot i ≤ mac'.eot i) : mac'.Disciplined ts good where
  transponders := htransponders
  aligned := haligned
  inSlot := by
    rw [hsent]
    exact h.inSlot
  spaced := by
    rw [hsent]
    exact h.spaced
  ended := by
    rw [hsent]
    intro x hx
    exact (h.ended x hx).trans (hmono x.index)

/-- A transmission that begins when the airtime of the ones before it is over. -/
theorem Disciplined.sends (h : mac.Disciplined ts good) {mac' : Mac} {x : Transmission}
    (htransponders : mac'.transponders = ts) (haligned : Aligned ts good mac'.wakeups)
    (hsent : mac'.sent = mac.sent ++ [x]) (hmono : ∀ i, mac.eot i ≤ mac'.eot i)
    (hslot : x.InSlot ts good) (hover : mac.eot x.index ≤ x.decided)
    (hend : x.decided + x.frame.duration ≤ mac'.eot x.index) : mac'.Disciplined ts good where
  transponders := htransponders
  aligned := haligned
  inSlot := by
    rw [hsent, List.forall_mem_append, List.forall_mem_singleton]
    exact ⟨h.inSlot, hslot⟩
  spaced := by
    rw [hsent, List.pairwise_append]
    refine ⟨h.spaced, List.pairwise_singleton .., ?_⟩
    intro y hy z hz hindex
    rw [List.mem_singleton.mp hz] at hindex ⊢
    have hy := h.ended y hy
    rw [hindex] at hy
    exact hy.trans hover
  ended := by
    rw [hsent, List.forall_mem_append, List.forall_mem_singleton]
    exact ⟨fun y hy => (h.ended y hy).trans (hmono y.index), hend⟩

/-- A transponder that is allowed to send inside its slots only keeps them. -/
theorem Disciplined.serve (h : mac.Disciplined ts good) (ht : ts[index]? = some t)
    (hrate : t.transmitDataRateBps ≠ 0) {now allowed startOfTransmission : ℤ}
    (hclock : now ≤ startOfTransmission)
    (hallowed : good index → t.slotted = true → allowed ≤ now →
      ∃ time, OwnSlotStart t time ∧ time ≤ now ∧ now < time + t.transmitSlotSizeUs) :
    (mac.serve encodedLen index t now allowed startOfTransmission).Disciplined ts good := by
  obtain ⟨htransponders, hwakeups⟩ := mac.serve_wakeups encodedLen index t now allowed startOfTransmission
  have haligned :
      Aligned ts good (mac.serve encodedLen index t now allowed startOfTransmission).wakeups := by
    rcases hwakeups with heq | ⟨time, heq⟩
    · rw [heq]
      exact h.aligned
    · rw [heq]
      exact h.aligned.schedule fun _ => slotTime_nextSlot ht time
  have htransponders := htransponders.trans h.transponders
  cases mac.serve_outcome encodedLen hrate startOfTransmission with
  | quiet hsent hmono => exact h.quiet htransponders haligned hsent hmono
  | sends frame hsent htime hover hok hend hmono hfits =>
      refine h.sends htransponders haligned hsent hmono ⟨?_, ?_, ?_⟩ hover hend
      · exact hclock.trans htime.ge
      · intro hgood t' ht' hslotted
        obtain rfl := Option.some.inj (ht.symm.trans ht')
        exact hallowed hgood hslotted hok
      · intro t' ht'
        obtain rfl := Option.some.inj (ht.symm.trans ht')
        exact hfits

/-- **Driving keeps slots and airtime**, if the transponder was woken for the start of a slot. -/
theorem Disciplined.drive (h : mac.Disciplined ts good)
    (hrates : ∀ (i : UInt16) (t : FullTransponder), ts[i]? = some t → t.transmitDataRateBps ≠ 0)
    {now startOfTransmission : ℤ} {expected : Option ℤ} (hclock : now ≤ startOfTransmission)
    (hexpected : ∀ time, expected = some time → good index → SlotTime ts index time) :
    (mac.drive encodedLen index now expected startOfTransmission).Disciplined ts good := by
  unfold Mac.drive
  split
  · exact h
  next t ht =>
    rw [h.transponders] at ht
    split
    · exact h
    split
    · refine h.serve ht (hrates index t ht) hclock fun _ hslotted hle => ?_
      -- the next slot begins now
      obtain ⟨hown, hnow⟩ := nextSlot_spec hslotted now
      have hsize := (FullTransponder.slotted_iff.mp hslotted).1
      exact ⟨nextSlot t now, hown, hle, by omega⟩
    next e hfilter =>
      have he : expected = some e := (Option.filter_eq_some_iff.mp hfilter).1
      split
      next hlt =>
        refine h.serve ht (hrates index t ht) hclock fun hgood hslotted hle => ?_
        exact ⟨e, hexpected e he hgood t ht hslotted, hle, hlt⟩
      · exact h.scheduleTransmit fun _ => slotTime_nextSlot ht now

/-! ## The callbacks -/

theorem Disciplined.enqueue (h : mac.Disciplined ts good) (index : UInt16) (packet : OwnedPacket)
    (readyAt : ℤ) :
    (mac.withState (BentPipe.enqueue mac.state index packet readyAt).state).Disciplined ts good :=
  h.of_eq rfl rfl rfl rfl

section

variable (hrates : ∀ (i : UInt16) (t : FullTransponder), ts[i]? = some t → t.transmitDataRateBps ≠ 0)

include hrates

theorem Disciplined.downstream (h : mac.Disciplined ts good) (priority : UInt8) (info : FfiPacketInfo)
    (payload : Bytes) {now startOfTransmission : ℤ} (hclock : now ≤ startOfTransmission) :
    (mac.downstream encodedLen priority info payload now startOfTransmission).Disciplined ts good := by
  rcases mac.downstream_cases encodedLen priority info payload now startOfTransmission with
    hsame | ⟨index, packet, hdriven⟩
  · rw [hsame]
    exact h
  · rw [hdriven]
    exact (h.enqueue index packet now).drive hrates hclock fun _ he => nomatch he

/-- A relay is driven at once, or woken when its packet is due. -/
theorem Disciplined.relay (h : mac.Disciplined ts good) (index : UInt16) (packet : OwnedPacket)
    {endOfReception : ℤ} {delay : ℕ} {now startOfTransmission : ℤ}
    (hclock : now ≤ startOfTransmission)
    (haligned : good index → relayTime endOfReception now delay ≤ now ∨
      SlotTime ts index (relayTime endOfReception now delay)) :
    (mac.relay encodedLen index packet endOfReception delay now startOfTransmission).Disciplined ts
      good := by
  have hqueued := h.enqueue index packet (relayTime endOfReception now delay)
  rcases mac.relay_cases encodedLen index packet endOfReception delay now startOfTransmission with
    hsame | hdriven | ⟨hlate, hwaits⟩
  · rw [hsame]
    exact h
  · rw [hdriven]
    exact hqueued.drive hrates hclock fun _ he => nomatch he
  · rw [hwaits]
    exact hqueued.scheduleTransmit fun hgood => (haligned hgood).resolve_left (not_le.mpr hlate)

theorem Disciplined.upstreamMessage (h : mac.Disciplined ts good) (index : UInt16) (t : FullTransponder)
    (r : Reception) {m : ReceivedComponent} (hclock : m.now ≤ m.startOfTransmission)
    (haligned : t.receiveAction = .ubend → good index →
      relayTime r.endOfReception m.now t.transmitDelayUs ≤ m.now ∨
        SlotTime ts index (relayTime r.endOfReception m.now t.transmitDelayUs)) :
    (Mac.upstreamMessage encodedLen index t r mac m).Disciplined ts good := by
  obtain ⟨store, hstored⟩ := Mac.upstreamMessage_cases encodedLen index t r mac m
  have hstore : Disciplined ts good { mac with reassembly := store } := h.of_eq rfl rfl rfl rfl
  rcases hstored with hsame | ⟨hubend, packet, hrelayed⟩
  · rw [hsame]
    exact hstore
  · rw [hrelayed]
    exact Disciplined.relay hrates hstore index packet hclock (haligned hubend)

theorem Disciplined.upstream (h : mac.Disciplined ts good) {r : Reception}
    (hclock : ∀ m ∈ r.messages, m.now ≤ m.startOfTransmission)
    (haligned : ∀ index, good index → (Event.upstream r).RelaysAligned ts index) :
    (mac.upstream encodedLen r).Disciplined ts good := by
  obtain ⟨receiveEnd, hreceived⟩ := mac.upstream_cases encodedLen r
  have hend : Disciplined ts good { mac with receiveEnd := receiveEnd } := h.of_eq rfl rfl rfl rfl
  rcases hreceived with hsame | ⟨index, t, hindex, ht, hframe⟩
  · rw [hsame]
    exact hend
  · rw [h.transponders] at ht
    rw [hframe]
    refine List.foldlRecOn r.messages _ hend fun mac hmac m hm => ?_
    exact hmac.upstreamMessage hrates index t r (hclock m hm)
      fun hubend hgood => haligned index hgood hindex t ht hubend m hm

/-- A callback that is due was entered for the start of a slot. -/
theorem Disciplined.timed (h : mac.Disciplined ts good) (index : UInt16) (expected : ℤ)
    {now startOfTransmission : ℤ} (hclock : now ≤ startOfTransmission) :
    (mac.timed encodedLen index expected now startOfTransmission).Disciplined ts good := by
  have hfired : Disciplined ts good { mac with wakeups := (mac.wakeups.fire index expected).1 } :=
    ⟨h.transponders, fun i time hdue => h.aligned i time (Agenda.due_of_due_fire hdue).1, h.inSlot,
      h.spaced, h.ended⟩
  unfold Mac.timed
  dsimp only
  split
  next hdue =>
    refine hfired.drive hrates hclock fun time htime => ?_
    obtain rfl := Option.some.inj htime
    by_cases hwas : mac.wakeups.due index = some expected
    · exact h.aligned index expected hwas
    · rw [(Agenda.fire_of_ne hwas).2] at hdue
      cases hdue
  · exact hfired

end

end Mac

/-! ## Whole runs -/

/-- The readings of the clock that an event makes, in order. -/
def Event.readings : Event → List ℤ
  | downstream _ _ _ now startOfTransmission => [now, startOfTransmission]
  | upstream r => r.messages.flatMap fun m => [m.checked, m.now, m.startOfTransmission]
  | timed _ _ now startOfTransmission => [now, startOfTransmission]
  | check now => [now]
  | configure _ _ | start _ | stop => []

namespace Mac

variable {encodedLen : BentPipeMessage → ℕ} {ts : ExtTreeMap UInt16 FullTransponder}
  {good : UInt16 → Prop} {mac : Mac}

theorem Disciplined.step (h : mac.Disciplined ts good)
    (hrates : ∀ (i : UInt16) (t : FullTransponder), ts[i]? = some t → t.transmitDataRateBps ≠ 0)
    {event : Event} (hfixed : ∀ receiveSide items, event ≠ .configure receiveSide items)
    (hclock : event.readings.Pairwise (· ≤ ·))
    (haligned : ∀ index, good index → event.RelaysAligned ts index) :
    (mac.step encodedLen event).Disciplined ts good := by
  cases event with
  | downstream priority info payload now startOfTransmission =>
      exact h.downstream hrates priority info payload (List.rel_of_pairwise_cons hclock (by simp))
  | upstream r =>
      refine h.upstream hrates (fun m hm => ?_) haligned
      have hpair := (List.pairwise_flatMap.mp hclock).1 m hm
      exact List.rel_of_pairwise_cons hpair.of_cons (by simp)
  | timed index expected now startOfTransmission =>
      exact h.timed hrates index expected (List.rel_of_pairwise_cons hclock (by simp))
  | check now =>
      rw [Mac.step, Mac.check]
      split
      · exact h.of_eq rfl rfl rfl rfl
      · exact h
  | configure receiveSide items => exact absurd rfl (hfixed receiveSide items)
  | start receiveSide =>
      rw [Mac.step, Mac.start]
      split
      · exact h
      · exact h.of_eq rfl rfl rfl rfl
  | stop => exact ⟨h.transponders, fun i time hdue => (nomatch hdue), h.inSlot, h.spaced, h.ended⟩

theorem Stopped.disciplined (h : mac.Stopped) {receiveSide : Bool}
    (hstart : (mac.start receiveSide).2 = true) :
    (mac.start receiveSide).1.Disciplined mac.transponders good := by
  rw [(mac.start_eq hstart).1]
  refine ⟨rfl, ?_, ?_, ?_, ?_⟩
  · intro i time hdue
    change mac.wakeups.due i = some time at hdue
    rw [h.wakeups] at hdue
    cases hdue
  · simp [h.sent]
  · simp [h.sent]
  · simp [h.sent]

/-- **Slots and airtime.** In every run without changes of the configuration and with a clock that does
not go back: each transmission of a slotted transponder is stamped no earlier than it is decided, it is
no longer than the slot if the MTU follows from the slot, and it is decided inside one of its own slots,
if all packets that the transponder relays are sent at once or are due at starts of slots. No
transmission of a transponder is decided before the airtime of the one before it is over. -/
theorem slots_and_airtime_kept (encodedLen : BentPipeMessage → ℕ) {mac : Mac} (hstopped : mac.Stopped)
    {receiveSide : Bool} (hstart : (mac.start receiveSide).2 = true) {events : List Event}
    (hfixed : ∀ receiveSide items, Event.configure receiveSide items ∉ events)
    (hclock : (events.flatMap Event.readings).Pairwise (· ≤ ·)) :
    (∀ x ∈ ((mac.start receiveSide).1.run encodedLen events).sent, x.InSlot mac.transponders fun index =>
        ∀ event ∈ events, event.RelaysAligned mac.transponders index) ∧
      ((mac.start receiveSide).1.run encodedLen events).sent.Pairwise Transmission.Before := by
  have hrates : ∀ (i : UInt16) (t : FullTransponder), mac.transponders[i]? = some t →
      t.transmitDataRateBps ≠ 0 := fun i t ht =>
    FullTransponder.acceptable_rate (mac.acceptable_of_getElem? (mac.start_eq hstart).2 ht)
  have hrun : ((mac.start receiveSide).1.run encodedLen events).Disciplined mac.transponders fun index =>
      ∀ event ∈ events, event.RelaysAligned mac.transponders index := by
    refine List.foldlRecOn events (Mac.step encodedLen) (hstopped.disciplined hstart)
      fun mac' h event hmem => ?_
    refine h.step hrates (fun receiveSide items heq => hfixed receiveSide items (heq ▸ hmem)) ?_
      fun index hgood => hgood event hmem
    exact (List.pairwise_flatMap.mp hclock).1 event hmem
  exact ⟨hrun.inSlot, hrun.spaced⟩

/-- A frame is received from 5 to 20, its packet is relayed, and a packet comes from above. -/
def relayThenSend : List Event := [
  .upstream ⟨2, some 3, 5, 15, true, [⟨⟨7, [1, 2, 3], none⟩, 12, 12, 12⟩]⟩,
  .timed 3 20 21 22,
  .downstream 0 ⟨1, 2⟩ [4, 5] 30 30,
  .timed 3 40 40 41]

/-- A packet received until 20 is relayed in the slot that begins then, and a packet from above waits
for the next own slot. -/
theorem slots_and_airtime_kept_relay :
    (((slotMac .ubend [0]).start true).1.run BentPipeMessage.encodedLen relayThenSend).sent.length = 2 ∧
      (∀ event ∈ relayThenSend, event.RelaysAligned (slotMac .ubend [0]).transponders 3) ∧
      (∀ x ∈ (((slotMac .ubend [0]).start true).1.run BentPipeMessage.encodedLen relayThenSend).sent,
        x.InSlot (slotMac .ubend [0]).transponders fun index =>
          ∀ event ∈ relayThenSend, event.RelaysAligned (slotMac .ubend [0]).transponders index) ∧
      (((slotMac .ubend [0]).start true).1.run BentPipeMessage.encodedLen relayThenSend).sent.Pairwise
        Transmission.Before := by
  refine ⟨by decide +kernel, ?_, slots_and_airtime_kept BentPipeMessage.encodedLen
    (slotMac_stopped .ubend [0]) (by decide +kernel) (by simp [relayThenSend]) (by decide)⟩
  intro event hmem
  simp only [relayThenSend, List.mem_cons, List.not_mem_nil, or_false] at hmem
  rcases hmem with rfl | rfl | rfl | rfl
  · intro _ t ht _ m hm
    obtain rfl := List.mem_singleton.mp hm
    refine .inr fun t' ht' _ => ?_
    rw [slotMac_transponder] at ht ht'
    obtain rfl := Option.some.inj ht
    obtain rfl := Option.some.inj ht'
    exact ⟨1, 0, List.mem_singleton_self 0, by decide⟩
  · trivial
  · trivial
  · trivial

end Mac

/-! ## What is stamped on the frames -/

/-- The stamped airtime lies inside an own slot. -/
def Transmission.WithinSlot (ts : ExtTreeMap UInt16 FullTransponder) (x : Transmission) : Prop :=
  ∀ t : FullTransponder, ts[x.index]? = some t → t.slotted = true →
    ∃ time, OwnSlotStart t time ∧ time ≤ x.frame.txTime ∧
      x.frame.txTime + x.frame.duration ≤ time + t.transmitSlotSizeUs

/-- The stamped airtimes of two transmissions of a transponder do not overlap. -/
def Transmission.Apart (x y : Transmission) : Prop :=
  x.index = y.index → x.frame.txTime + x.frame.duration ≤ y.frame.txTime

instance (x y : Transmission) : Decidable (x.Apart y) := inferInstanceAs (Decidable (_ → _))

/-- The own slot of the example begins every 20 microseconds. -/
theorem not_withinSlot {action : ReceiveAction} {sent : List Transmission} {start : ℤ} {duration : ℕ}
    (hsent : (3, start, duration) ∈ sent.map fun x => (x.index, x.frame.txTime, x.frame.duration))
    (hout : 10 < start % 20 + duration) :
    ¬ ∀ x ∈ sent, x.WithinSlot (slotMac action [0]).transponders := by
  intro h
  obtain ⟨x, hx, heq⟩ := List.mem_map.mp hsent
  simp only [Prod.mk.injEq] at heq
  obtain ⟨hindex, rfl, rfl⟩ := heq
  have htransponder := slotMac_transponder action [0]
  rw [← hindex] at htransponder
  obtain ⟨time, ⟨frame, slot, hslot, rfl⟩, hle, hend⟩ := h x hx _ htransponder rfl
  rw [List.mem_singleton.mp hslot] at hle hend
  simp only [slotTransponder] at hle hend
  omega

/-- A packet of 7 bytes is woken for the slot from 20 to 30, and the callback comes at 25. -/
def lateCallback : List Event := [.downstream 0 ⟨1, 2⟩ [1, 2, 3, 4, 5, 6, 7] 5 5, .timed 3 20 25 25]

/-- A packet of 15 bytes needs two slots, and the first frame is stamped 9 microseconds late. -/
def lateStamp : List Event := [
  .downstream 0 ⟨1, 2⟩ (List.replicate 15 0) 5 5, .timed 3 10 10 19, .timed 3 20 20 20]

/-- A packet received until 15 is relayed then, in a slot of another transponder. -/
def relayOutside : List Event := [
  .upstream ⟨2, some 3, 5, 10, true, [⟨⟨7, [1, 2, 3], none⟩, 12, 12, 12⟩]⟩, .timed 3 15 15 15]

/-- **The stamped airtimes keep neither slots nor distance.** A callback that comes late in its slot
sends a frame that ends after it; a frame that is stamped late ends after the next one of the
transponder begins; a relayed packet that is due outside the own slots is sent there. -/
theorem slots_not_kept :
    (((slotMac .process [0]).start true).2 = true ∧ ((slotMac .process [0, 1]).start true).2 = true ∧
      ((slotMac .ubend [0]).start true).2 = true) ∧
    ((lateCallback.flatMap Event.readings).Pairwise (· ≤ ·) ∧
      ¬ ∀ x ∈ (((slotMac .process [0]).start true).1.run BentPipeMessage.encodedLen lateCallback).sent,
        x.WithinSlot (slotMac .process [0]).transponders) ∧
    ((lateStamp.flatMap Event.readings).Pairwise (· ≤ ·) ∧
      ¬ (((slotMac .process [0, 1]).start true).1.run BentPipeMessage.encodedLen
        lateStamp).sent.Pairwise Transmission.Apart) ∧
    ((relayOutside.flatMap Event.readings).Pairwise (· ≤ ·) ∧
      ¬ ∀ x ∈ (((slotMac .ubend [0]).start true).1.run BentPipeMessage.encodedLen relayOutside).sent,
        x.WithinSlot (slotMac .ubend [0]).transponders) := by
  refine ⟨by decide +kernel, ⟨by decide, ?_⟩, ⟨by decide, by decide +kernel⟩, by decide, ?_⟩
  · exact not_withinSlot (show (3, 25, 7) ∈ _ by decide +kernel) (by decide)
  · exact not_withinSlot (show (3, 15, 3) ∈ _ by decide +kernel) (by decide)

end Emane.BentPipe
