import Mathlib
import Emane.Lib.Saturating

set_option autoImplicit false

/-! # The receive buffer of the comm effect layer

For every source the layer keeps the time at which the last reception from it ends. The next packet is
received after this time, unless the reception is so far behind that the packet is dropped. A packet
that the effect loses has been received as well: its time is charged.

The times of the receptions are in order (`Buffer.receptionEnd_run`), and the layer schedules nothing in the
past (`Buffer.le_of_mem_timers`). The clock saturates, though: at its end the receptions overlap.
-/

namespace Emane.CommEffect

open Emane.Lib

/-! ## Packets on the delayed path -/

/-- `Effect`, without the probabilities. -/
structure Effect where
  latencyMicroseconds : UInt64
  jitterMicroseconds : UInt64
  unicastBitRateBps : UInt64
  broadcastBitRateBps : UInt64

/-- What is drawn for a copy of a packet, and whether the framework takes its timer. -/
structure Copy where
  draw : ℤ
  scheduled : Bool

/-- A packet that reaches the delayed path. `copies` has an entry for each copy that `task_count` asks
for, none for a packet that the effect loses. -/
structure Arrival where
  source : UInt16
  destination : UInt16
  payloadLen : ℕ
  effect : Effect
  now : UInt64
  copies : List Copy

/-- `BROADCAST_NEM` -/
def broadcastNem : UInt16 := 65535

namespace Arrival

variable (arrival : Arrival)

def bitrate : ℕ :=
  if arrival.destination = broadcastNem then arrival.effect.broadcastBitRateBps.toNat
  else arrival.effect.unicastBitRateBps.toNat

def reception : ℕ :=
  if arrival.bitrate = 0 then 0
  else min (arrival.payloadLen * 8 * 1000000 / arrival.bitrate) U64.max

def jitter (copy : Copy) : ℤ :=
  if arrival.effect.jitterMicroseconds = 0 then 0 else copy.draw

/-- A signed value as an unsigned one with the same bits. -/
def asU64 (x : ℤ) : ℕ := (x % 2 ^ 64).toNat

/-- The time of the timer of a copy, for a reception that is over at `endTime`. -/
def expiration (endTime : ℕ) (copy : Copy) : ℕ :=
  let base := U64.saturatingAdd endTime arrival.effect.latencyMicroseconds.toNat
  if arrival.jitter copy < 0 then
    max (base - asU64 (-arrival.jitter copy)) arrival.now.toNat
  else U64.saturatingAdd base (asU64 (arrival.jitter copy))

/-- The times that are charged for a reception that is over at `endTime`. -/
def charged (endTime : ℕ) : Set ℕ := Set.Ico (endTime - arrival.reception) endTime

end Arrival

/-- The time of a timer as the framework takes it. -/
structure TimerTime where
  seconds : ℕ
  microseconds : ℕ

def TimerTime.ofMicroseconds (time : ℕ) : TimerTime := ⟨time / 1000000, time % 1000000⟩

def TimerTime.toMicroseconds (time : TimerTime) : ℕ := time.seconds * 1000000 + time.microseconds

/-- What becomes of a packet. The reasons of the drops are those of the source; a packet is dropped with
the reason `Timer` if the framework refuses one of its timers. -/
inductive Outcome where
  | receiveBuffer
  | effect
  | delayed (timers : List TimerTime) (timerFailure : Bool)

/-- The end of `upstream`: a timer for each copy. -/
def Arrival.deliver (arrival : Arrival) (endTime : ℕ) : Outcome :=
  if arrival.copies = [] then .effect
  else .delayed
    (arrival.copies.map fun copy => .ofMicroseconds (arrival.expiration endTime copy))
    (arrival.copies.any fun copy => !copy.scheduled)

/-! ## The buffer -/

structure Buffer where
  receiveBufferPeriodMicroseconds : UInt64
  endOfReception : UInt16 → Option ℕ
  endOfReception_le : ∀ source, ∀ endTime ∈ endOfReception source, endTime ≤ U64.max

namespace Buffer

variable (buffer : Buffer) (arrival : Arrival)

/-- The end of the last reception from the source is too far ahead. -/
def Behind : Prop :=
  ∃ endTime ∈ buffer.endOfReception arrival.source,
    buffer.receiveBufferPeriodMicroseconds.toNat < endTime - arrival.now.toNat

instance : Decidable (buffer.Behind arrival) :=
  inferInstanceAs (Decidable (∃ _ ∈ buffer.endOfReception arrival.source, _))

/-- The time from which the packet can be received. -/
def begins : ℕ :=
  max ((buffer.endOfReception arrival.source).getD arrival.now.toNat) arrival.now.toNat

/-- The end of the reception of an accepted packet. -/
def receptionEnd : Option ℕ :=
  if buffer.receiveBufferPeriodMicroseconds ≠ 0 ∧ buffer.Behind arrival then none
  else some (U64.saturatingAdd (buffer.begins arrival) arrival.reception)

theorem le_max_of_receptionEnd {endTime : ℕ} (h : buffer.receptionEnd arrival = some endTime) :
    endTime ≤ U64.max := by
  unfold receptionEnd at h
  split at h
  · cases h
  · cases h
    exact min_le_right ..

/-- The buffer after a packet was accepted. -/
def insert (source : UInt16) (endTime : ℕ) (h : endTime ≤ U64.max) : Buffer where
  receiveBufferPeriodMicroseconds := buffer.receiveBufferPeriodMicroseconds
  endOfReception := Function.update buffer.endOfReception source (some endTime)
  endOfReception_le := by
    intro other endTime' hmem
    by_cases hother : other = source
    · subst hother
      simp only [Function.update_self, Option.mem_def, Option.some.injEq] at hmem
      exact hmem ▸ h
    · rw [Function.update_of_ne hother] at hmem
      exact buffer.endOfReception_le other endTime' hmem

/-- The delayed path of `upstream`. -/
def upstream : Buffer × Outcome :=
  match h : buffer.receptionEnd arrival with
  | none => (buffer, .receiveBuffer)
  | some endTime =>
      -- the end is recorded before the effect decides whether the packet is lost
      (buffer.insert arrival.source endTime (buffer.le_max_of_receptionEnd arrival h),
        arrival.deliver endTime)

/-- The buffer after a sequence of packets. -/
def run (arrivals : List Arrival) : Buffer :=
  arrivals.foldl (fun buffer arrival => (buffer.upstream arrival).1) buffer

/-! ## One packet -/

/-- What a packet does to the buffer: its source gets the new end if there is one. -/
theorem upstream_endOfReception :
    (buffer.upstream arrival).1.endOfReception =
      match buffer.receptionEnd arrival with
      | none => buffer.endOfReception
      | some endTime => Function.update buffer.endOfReception arrival.source (some endTime) := by
  unfold upstream
  split <;> simp [*, insert]

@[simp]
theorem upstream_period :
    (buffer.upstream arrival).1.receiveBufferPeriodMicroseconds =
      buffer.receiveBufferPeriodMicroseconds := by
  unfold upstream
  split <;> rfl

theorem upstream_outcome :
    (buffer.upstream arrival).2 =
      match buffer.receptionEnd arrival with
      | none => .receiveBuffer
      | some endTime => arrival.deliver endTime := by
  unfold upstream
  split <;> simp [*]

theorem upstream_eq_receiveBuffer_iff :
    (buffer.upstream arrival).2 = .receiveBuffer ↔ buffer.receptionEnd arrival = none := by
  rw [upstream_outcome]
  cases buffer.receptionEnd arrival with
  | none => simp
  | some endTime =>
      simp only [reduceCtorEq, iff_false]
      unfold Arrival.deliver
      split <;> simp

theorem receptionEnd_eq_none_iff :
    buffer.receptionEnd arrival = none ↔
      buffer.receiveBufferPeriodMicroseconds ≠ 0 ∧ buffer.Behind arrival := by
  simp [receptionEnd]

variable {buffer arrival}

theorem receptionEnd_eq_some {endTime : ℕ} (h : buffer.receptionEnd arrival = some endTime) :
    ¬ (buffer.receiveBufferPeriodMicroseconds ≠ 0 ∧ buffer.Behind arrival) ∧
      endTime = min (buffer.begins arrival + arrival.reception) U64.max := by
  unfold receptionEnd at h
  split at h
  · cases h
  · case isFalse hbehind => exact ⟨hbehind, (Option.some.inj h).symm⟩

theorem reception_le (arrival : Arrival) : arrival.reception ≤ U64.max := by
  unfold Arrival.reception
  split
  · exact Nat.zero_le _
  · exact min_le_right ..

theorem now_le (arrival : Arrival) : arrival.now.toNat ≤ U64.max :=
  Nat.le_sub_one_of_lt arrival.now.toNat_lt

/-- The last end is where the next reception begins, or before it. -/
theorem le_begins {endTime : ℕ} (h : buffer.endOfReception arrival.source = some endTime) :
    endTime ≤ buffer.begins arrival := by
  simp [begins, h]

theorem now_le_begins : arrival.now.toNat ≤ buffer.begins arrival := le_max_right ..

/-- The last end fits the clock, so where the next reception begins fits as well. -/
theorem begins_le (buffer : Buffer) (arrival : Arrival) : buffer.begins arrival ≤ U64.max := by
  have hnow := now_le arrival
  cases hlast : buffer.endOfReception arrival.source with
  | none => simpa [begins, hlast] using hnow
  | some endTime =>
      have hle := buffer.endOfReception_le _ endTime hlast
      simpa [begins, hlast] using ⟨hle, hnow⟩

/-- An accepted reception is over after it begins. -/
theorem begins_le_of_receptionEnd {endTime : ℕ} (h : buffer.receptionEnd arrival = some endTime) :
    buffer.begins arrival ≤ endTime := by
  rw [(receptionEnd_eq_some h).2]
  exact le_min (Nat.le_add_right ..) (begins_le buffer arrival)

/-- **The backlog after an accepted packet.** It exceeds the period by the time of the packet itself at
most. -/
theorem backlog_le_of_receptionEnd {endTime : ℕ} (h : buffer.receptionEnd arrival = some endTime)
    (hperiod : buffer.receiveBufferPeriodMicroseconds ≠ 0) :
    endTime - arrival.now.toNat ≤
      buffer.receiveBufferPeriodMicroseconds.toNat + arrival.reception := by
  obtain ⟨hbehind, heq⟩ := receptionEnd_eq_some h
  -- the reception begins at the last end, if this is later than now
  have hbegins : buffer.begins arrival - arrival.now.toNat ≤
      buffer.receiveBufferPeriodMicroseconds.toNat := by
    cases hlast : buffer.endOfReception arrival.source with
    | none => simp [begins, hlast]
    | some last =>
        have hlen : ¬ buffer.receiveBufferPeriodMicroseconds.toNat < last - arrival.now.toNat :=
          fun hlt => hbehind ⟨hperiod, last, hlast, hlt⟩
        simp only [begins, hlast, Option.getD_some]
        omega
  calc endTime - arrival.now.toNat
      ≤ buffer.begins arrival + arrival.reception - arrival.now.toNat :=
        Nat.sub_le_sub_right (heq ▸ min_le_left ..) _
    _ ≤ buffer.receiveBufferPeriodMicroseconds.toNat + arrival.reception := by omega

/-! ## The timers -/

theorem toMicroseconds_ofMicroseconds (time : ℕ) :
    (TimerTime.ofMicroseconds time).toMicroseconds = time :=
  Nat.div_add_mod' ..

/-- A negative jitter does not reach back before `now`, and a positive one only adds. -/
theorem now_le_expiration {endTime : ℕ} (hend : arrival.now.toNat ≤ endTime) (copy : Copy) :
    arrival.now.toNat ≤ arrival.expiration endTime copy := by
  have hnow := now_le arrival
  dsimp only [Arrival.expiration]
  split
  · exact le_max_right ..
  · have hbase : arrival.now.toNat ≤
        U64.saturatingAdd endTime arrival.effect.latencyMicroseconds.toNat :=
      le_min (hend.trans (Nat.le_add_right ..)) hnow
    exact le_min (hbase.trans (Nat.le_add_right ..)) hnow

/-- **Nothing is scheduled in the past.** -/
theorem le_of_mem_timers {timers : List TimerTime} {timerFailure : Bool}
    (h : (buffer.upstream arrival).2 = .delayed timers timerFailure) :
    ∀ timer ∈ timers, arrival.now.toNat ≤ timer.toMicroseconds := by
  rw [upstream_outcome] at h
  cases haccepted : buffer.receptionEnd arrival with
  | none => simp [haccepted] at h
  | some endTime =>
      simp only [haccepted, Arrival.deliver] at h
      split at h
      · cases h
      · cases h
        intro timer hmem
        obtain ⟨copy, -, rfl⟩ := List.mem_map.mp hmem
        rw [toMicroseconds_ofMicroseconds]
        exact now_le_expiration (now_le_begins.trans (begins_le_of_receptionEnd haccepted)) copy

/-! ## A sequence of packets -/

@[simp]
theorem run_nil (buffer : Buffer) : buffer.run [] = buffer := rfl

@[simp]
theorem run_cons (buffer : Buffer) (arrival : Arrival) (arrivals : List Arrival) :
    buffer.run (arrival :: arrivals) = (buffer.upstream arrival).1.run arrivals := rfl

theorem run_append (buffer : Buffer) (before after : List Arrival) :
    buffer.run (before ++ after) = (buffer.run before).run after :=
  List.foldl_append

@[simp]
theorem run_period (buffer : Buffer) (arrivals : List Arrival) :
    (buffer.run arrivals).receiveBufferPeriodMicroseconds =
      buffer.receiveBufferPeriodMicroseconds := by
  induction arrivals generalizing buffer with
  | nil => rfl
  | cons arrival arrivals ih => rw [run_cons, ih, upstream_period]

/-- The end of the last reception from a source only moves forward. -/
theorem endOfReception_upstream {source : UInt16} {endTime : ℕ}
    (h : buffer.endOfReception source = some endTime) :
    ∃ later, endTime ≤ later ∧ (buffer.upstream arrival).1.endOfReception source = some later := by
  rw [upstream_endOfReception]
  cases haccepted : buffer.receptionEnd arrival with
  | none => exact ⟨endTime, le_rfl, h⟩
  | some later =>
      by_cases hsource : source = arrival.source
      · subst hsource
        exact ⟨later, (le_begins h).trans (begins_le_of_receptionEnd haccepted), Function.update_self ..⟩
      · exact ⟨endTime, le_rfl, (Function.update_of_ne hsource ..).trans h⟩

theorem endOfReception_run {source : UInt16} (arrivals : List Arrival) {endTime : ℕ}
    (h : buffer.endOfReception source = some endTime) :
    ∃ later, endTime ≤ later ∧ (buffer.run arrivals).endOfReception source = some later := by
  induction arrivals generalizing buffer endTime with
  | nil => exact ⟨endTime, le_rfl, h⟩
  | cons arrival arrivals ih =>
      obtain ⟨next, hle, hnext⟩ := @endOfReception_upstream _ arrival _ _ h
      obtain ⟨later, hle', hlater⟩ := ih hnext
      exact ⟨later, hle.trans hle', hlater⟩

/-- A packet that was accepted has moved the end of the last reception to its own end. -/
theorem endOfReception_run_cons {endTime : ℕ} (h : buffer.receptionEnd arrival = some endTime)
    (arrivals : List Arrival) :
    ∃ later, endTime ≤ later ∧
      (buffer.run (arrival :: arrivals)).endOfReception arrival.source = some later := by
  refine endOfReception_run arrivals ?_
  simp [upstream_endOfReception, h]

/-- **The receptions from a source are in order.** The later one ends last. It begins where the earlier
one ends, or after it, if the clock has room for it. -/
theorem receptionEnd_run {first second : Arrival} {between : List Arrival} {endTime endTime' : ℕ}
    (hsource : second.source = first.source) (h : buffer.receptionEnd first = some endTime)
    (h' : (buffer.run (first :: between)).receptionEnd second = some endTime') :
    endTime ≤ endTime' ∧
      (endTime ≤ endTime' - second.reception ↔ endTime + second.reception ≤ U64.max) := by
  obtain ⟨later, hle, hlater⟩ := endOfReception_run_cons h between
  have hbegins : endTime ≤ (buffer.run (first :: between)).begins second :=
    hle.trans (le_begins (hsource ▸ hlater))
  have hbound := begins_le (buffer.run (first :: between)) second
  have hreception := reception_le second
  rw [(receptionEnd_eq_some h').2]
  refine ⟨?_, ?_⟩
  · exact le_min (hbegins.trans (Nat.le_add_right ..)) (hbegins.trans hbound)
  · omega

/-! ## Other sources -/

/-- Two buffers that do the same for a source. -/
structure Agree (source : UInt16) (buffer other : Buffer) : Prop where
  period : buffer.receiveBufferPeriodMicroseconds = other.receiveBufferPeriodMicroseconds
  endOfReception : buffer.endOfReception source = other.endOfReception source

section

variable {source : UInt16} {other : Buffer}

theorem Agree.receptionEnd (h : Agree arrival.source buffer other) :
    buffer.receptionEnd arrival = other.receptionEnd arrival := by
  have hbehind : buffer.Behind arrival ↔ other.Behind arrival := by
    simp only [Behind, h.period, h.endOfReception]
  simp only [Buffer.receptionEnd, hbehind, begins, h.period, h.endOfReception]

theorem Agree.outcome (h : Agree arrival.source buffer other) :
    (buffer.upstream arrival).2 = (other.upstream arrival).2 := by
  rw [upstream_outcome, upstream_outcome, h.receptionEnd]

theorem Agree.upstream (h : Agree arrival.source buffer other) :
    Agree arrival.source (buffer.upstream arrival).1 (other.upstream arrival).1 := by
  constructor
  · simpa using h.period
  · rw [upstream_endOfReception, upstream_endOfReception, ← h.receptionEnd]
    cases buffer.receptionEnd arrival with
    | none => exact h.endOfReception
    | some endTime => simp

/-- A packet from another source changes nothing. -/
theorem Agree.upstream_left (h : Agree source buffer other) (hsource : arrival.source ≠ source) :
    Agree source (buffer.upstream arrival).1 other := by
  constructor
  · simpa using h.period
  · rw [upstream_endOfReception]
    cases buffer.receptionEnd arrival with
    | none => exact h.endOfReception
    | some endTime => exact (Function.update_of_ne hsource.symm ..).trans h.endOfReception

/-- **A source is served as if there were no other.** -/
theorem Agree.run (h : Agree source buffer other) (arrivals : List Arrival) :
    Agree source (buffer.run arrivals)
      (other.run (arrivals.filter fun arrival => arrival.source = source)) := by
  induction arrivals generalizing buffer other with
  | nil => exact h
  | cons arrival arrivals ih =>
      by_cases hsource : arrival.source = source
      · subst hsource
        simpa using ih h.upstream
      · simpa [hsource] using ih (h.upstream_left hsource)

end

/-! ## The receive buffer over a run -/

/-- **The receive buffer over a run.** `before` has any packets from any sources, `first` is accepted,
and `second` is a later packet from the same source.

* Accepted packets are charged disjoint times, in the order of their arrival, exactly as long as the
  clock has room for the later reception after the earlier one. The ends are in order in any case.
* With a period, a packet is dropped exactly if the source is further behind than the period, and
  otherwise the backlog exceeds the period by the packet's own time at most.
* The packets from other sources can be left out.
* Each copy is scheduled for now or later. -/
theorem receiveBuffer_run (buffer : Buffer) (before between : List Arrival)
    (first second : Arrival) :
    (∀ endTime endTime', second.source = first.source →
      (buffer.run before).receptionEnd first = some endTime →
      (buffer.run (before ++ first :: between)).receptionEnd second = some endTime' →
      endTime ≤ endTime' ∧
        (endTime ≤ endTime' - second.reception ↔ endTime + second.reception ≤ U64.max) ∧
        (endTime + second.reception ≤ U64.max →
          Disjoint (first.charged endTime) (second.charged endTime'))) ∧
    (((buffer.run before).upstream first).2 = .receiveBuffer ↔
      buffer.receiveBufferPeriodMicroseconds ≠ 0 ∧
        ∃ endTime, (buffer.run before).endOfReception first.source = some endTime ∧
          buffer.receiveBufferPeriodMicroseconds.toNat < endTime - first.now.toNat) ∧
    (∀ endTime, buffer.receiveBufferPeriodMicroseconds ≠ 0 →
      (buffer.run before).receptionEnd first = some endTime →
      endTime - first.now.toNat ≤
        buffer.receiveBufferPeriodMicroseconds.toNat + first.reception) ∧
    ((buffer.run before).endOfReception first.source =
        (buffer.run (before.filter fun arrival => arrival.source = first.source)).endOfReception
          first.source ∧
      ((buffer.run before).upstream first).2 =
        ((buffer.run (before.filter fun arrival => arrival.source = first.source)).upstream
          first).2) ∧
    (∀ timers timerFailure,
      ((buffer.run before).upstream first).2 = .delayed timers timerFailure →
      ∀ timer ∈ timers, first.now.toNat ≤ timer.toMicroseconds) := by
  have hagree : Agree first.source (buffer.run before)
      (buffer.run (before.filter fun arrival => arrival.source = first.source)) :=
    Agree.run ⟨rfl, rfl⟩ before
  refine ⟨?_, ?_, ?_, ⟨hagree.endOfReception, hagree.outcome⟩, fun _ _ => le_of_mem_timers⟩
  · intro endTime endTime' hsource h h'
    rw [run_append] at h'
    obtain ⟨hle, hroom⟩ := receptionEnd_run hsource h h'
    refine ⟨hle, hroom, fun hfits => ?_⟩
    have horder := hroom.mpr hfits
    exact Set.disjoint_left.mpr fun time hfirst hsecond =>
      absurd (hsecond.1.trans_lt hfirst.2) (not_lt.mpr horder)
  · rw [upstream_eq_receiveBuffer_iff, receptionEnd_eq_none_iff, run_period]
    simp only [Behind, run_period, Option.mem_def]
  · intro endTime hperiod haccepted
    have hbacklog := backlog_le_of_receptionEnd haccepted (by rwa [run_period])
    rwa [run_period] at hbacklog

/-! ## The end of the clock -/

/-- A buffer without a period that has received nothing. -/
def idle : Buffer where
  receiveBufferPeriodMicroseconds := 0
  endOfReception _ := none
  endOfReception_le := by simp

/-- Each of equal packets is received after the ones before it. -/
theorem begins_run_replicate (packet : Arrival) (count : ℕ)
    (hroom : packet.now.toNat + count * packet.reception ≤ U64.max) :
    (idle.run (.replicate count packet)).begins packet =
      packet.now.toNat + count * packet.reception := by
  induction count with
  | zero => simp [begins, idle]
  | succ count ih =>
      rw [Nat.succ_mul, ← Nat.add_assoc] at hroom ⊢
      have hbegins := ih ((Nat.le_add_right ..).trans hroom)
      -- without a period the packet is accepted
      have haccepted : (idle.run (.replicate count packet)).receptionEnd packet =
          some (packet.now.toNat + count * packet.reception + packet.reception) := by
        rw [receptionEnd, if_neg (by simp [idle]), hbegins, U64.saturatingAdd, min_eq_left hroom]
      rw [List.replicate_succ', run_append, run_cons, run_nil, begins, upstream_endOfReception,
        haccepted]
      simp only [Function.update_self, Option.getD_some]
      omega

/-- If the clock has room for one packet more but not for two, the two are charged the same times. -/
theorem overlap_of_full (packet : Arrival) (count : ℕ) (hreception : 0 < packet.reception)
    (hroom : packet.now.toNat + (count + 1) * packet.reception ≤ U64.max)
    (hfull : U64.max < packet.now.toNat + (count + 2) * packet.reception) :
    ∃ endTime endTime',
      (idle.run (.replicate count packet)).receptionEnd packet = some endTime ∧
      (idle.run (.replicate count packet ++ [packet])).receptionEnd packet = some endTime' ∧
      ¬ Disjoint (packet.charged endTime) (packet.charged endTime') := by
  have haccepted (buffer : Buffer) (h : buffer.receiveBufferPeriodMicroseconds = 0) :
      buffer.receptionEnd packet =
        some (U64.saturatingAdd (buffer.begins packet) packet.reception) :=
    if_neg (by simp [h])
  have hbegins := begins_run_replicate packet count (by rw [Nat.succ_mul] at hroom; omega)
  have hbegins' := begins_run_replicate packet (count + 1) hroom
  rw [List.replicate_succ'] at hbegins'
  refine ⟨_, _, haccepted _ (run_period ..), haccepted _ (run_period ..), ?_⟩
  rw [hbegins, hbegins', Arrival.charged, Arrival.charged, U64.saturatingAdd, U64.saturatingAdd]
  rw [Nat.succ_mul] at hroom ⊢
  rw [Nat.add_mul] at hfull
  -- the last time of the first reception is also charged to the second one
  refine Set.not_disjoint_iff.mpr
    ⟨packet.now.toNat + (count * packet.reception + packet.reception) - 1, ?_, ?_⟩ <;>
  · rw [Set.mem_Ico]
    omega

/-- 65535 bytes at one bit per second, lost by the effect. -/
def slowPacket : Arrival where
  source := 1
  destination := 2
  payloadLen := 65535
  effect := ⟨0, 0, 1, 1⟩
  now := 1700000000000000
  copies := []

theorem slowPacket_reception : slowPacket.reception = 524280000000 := by
  have hbitrate : slowPacket.bitrate = 1 := by decide
  rw [Arrival.reception, hbitrate]
  simp [slowPacket, U64.max]

theorem slowPacket_now : slowPacket.now.toNat = 1700000000000000 := by simp [slowPacket]

/-- After some thirty-five million such packets the clock is at its end, and two packets are charged
the same times. -/
theorem receptions_overlap :
    ∃ endTime endTime',
      (idle.run (.replicate 35181665 slowPacket)).receptionEnd slowPacket = some endTime ∧
      (idle.run (.replicate 35181665 slowPacket ++ [slowPacket])).receptionEnd slowPacket =
        some endTime' ∧
      ¬ Disjoint (slowPacket.charged endTime) (slowPacket.charged endTime') := by
  refine overlap_of_full slowPacket 35181665 ?_ ?_ ?_
  · rw [slowPacket_reception]
    norm_num
  · rw [slowPacket_reception, slowPacket_now, U64.max]
    norm_num
  · rw [slowPacket_reception, slowPacket_now, U64.max]
    norm_num

end Buffer

end Emane.CommEffect
