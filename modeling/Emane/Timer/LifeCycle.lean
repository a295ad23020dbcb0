import Mathlib

set_option autoImplicit false

/-! # The life of a timer

What may happen to one timer, as an automaton over the events of the timer service. A timer that was
scheduled waits. It is taken to be fired, called, and then waits again (an interval timer that was not
cancelled) or is completed; a timer that was cancelled while it waits is dropped. Its free callback is
the last event.

The results of this file are about the words of the automaton: how often a timer is called and freed
(`accounted`), that its context is not used after it was freed (`unused_after_free`), and what a
cancellation stops (`run_quiet`). That the timer service produces only such words is proved next to its
model.
-/

namespace Emane.Timer

/-! ## Events -/

/-- A timer as the service keeps it. Pointers are addresses. -/
structure TimerEntry where
  eventId : ℕ
  expireTimeMicros : ℕ
  scheduleTimeMicros : ℕ
  intervalMicros : ℕ
  arg : ℕ
  pUser : ℕ
  callback : ℕ
  freeCallback : Option ℕ
  deriving DecidableEq

/-- What happens in the timer service: a timer is scheduled, a number is cancelled, a timer is taken
off the heap to be fired, its callback is called, it is put back or completed after the callback
returned, it is taken off the heap because it was cancelled, its free callback is called. -/
inductive Event
  | scheduled (entry : TimerEntry)
  | cancelled (eventId : ℕ)
  | taken (eventId fireTime : ℕ)
  | called (entry : TimerEntry) (fireTime : ℕ)
  | again (entry : TimerEntry)
  | completed (eventId : ℕ)
  | dropped (eventId : ℕ)
  | freed (entry : TimerEntry)
  deriving DecidableEq

/-- The timer that an event is about. -/
def Event.eventId : Event → ℕ
  | .scheduled entry => entry.eventId
  | .cancelled eventId => eventId
  | .taken eventId _ => eventId
  | .called entry _ => entry.eventId
  | .again entry => entry.eventId
  | .completed eventId => eventId
  | .dropped eventId => eventId
  | .freed entry => entry.eventId

/-- The events of one timer. -/
def eventsOf (eventId : ℕ) (log : List Event) : List Event := log.filter (·.eventId = eventId)

def Event.isCall : Event → Bool
  | .called .. => true
  | _ => false

def Event.isFree : Event → Bool
  | .freed .. => true
  | _ => false

/-- The timer was fired to completion, or cancelled and popped. -/
def Event.isEnd : Event → Bool
  | .completed .. => true
  | .dropped .. => true
  | _ => false

/-- The callback of the timer is called or has just returned. -/
def Event.usesContext : Event → Bool
  | .called .. => true
  | .again .. => true
  | .completed .. => true
  | _ => false

def calls (events : List Event) : ℕ := events.countP Event.isCall

def frees (events : List Event) : ℕ := events.countP Event.isFree

def ends (events : List Event) : ℕ := events.countP Event.isEnd

/-! ## The automaton -/

/-- Where a timer is in its life. The flag says that it was cancelled. -/
inductive Life
  | unborn (cancelled : Bool)
  | waiting (entry : TimerEntry) (cancelled : Bool)
  | firing (entry : TimerEntry) (fireTime : ℕ) (cancelled : Bool)
  | running (entry : TimerEntry) (fireTime : ℕ) (cancelled : Bool)
  | freeing (entry : TimerEntry)
  | gone

/-- A timer that is at its end is freed if it has a free callback. -/
def Life.atEnd (entry : TimerEntry) : Life :=
  if entry.freeCallback.isSome then .freeing entry else .gone

/-- A cancellation is noted in the flag; it has no meaning for a timer that is at its end. -/
def Life.cancel : Life → Life
  | .unborn _ => .unborn true
  | .waiting entry _ => .waiting entry true
  | .firing entry now _ => .firing entry now true
  | .running entry now _ => .running entry now true
  | .freeing entry => .freeing entry
  | .gone => .gone

/-- An entry that is put back differs from the one before in its times. -/
def SameTimer (entry entry' : TimerEntry) : Prop :=
  entry' = { entry with
    expireTimeMicros := entry'.expireTimeMicros
    scheduleTimeMicros := entry'.scheduleTimeMicros }

instance (entry entry' : TimerEntry) : Decidable (SameTimer entry entry') :=
  inferInstanceAs (Decidable (entry' = _))

/-- One event of a timer. -/
def Life.next : Life → Event → Option Life
  | life, .cancelled _ => some life.cancel
  | .unborn cancelled, .scheduled entry => some (.waiting entry cancelled)
  | .waiting entry false, .taken _ now => some (.firing entry now false)
  | .waiting entry true, .dropped _ => some (.atEnd entry)
  | .firing entry now cancelled, .called entry' now' =>
      if entry' = entry ∧ now' = now then some (.running entry now cancelled) else none
  | .running entry _ false, .again entry' =>
      if 0 < entry.intervalMicros ∧ SameTimer entry entry' then some (.waiting entry' false) else none
  | .running entry _ cancelled, .completed _ =>
      if entry.intervalMicros = 0 ∨ cancelled then some (.atEnd entry) else none
  | .freeing entry, .freed entry' => if entry' = entry then some .gone else none
  | _, _ => none

/-- Where a timer is after its events, newest first. -/
def lifeAfter (life : Life) : List Event → Option Life
  | [] => some life
  | event :: past => (lifeAfter life past).bind (·.next event)

/-! ## The steps of the automaton -/

/-- **What an event can do.** -/
inductive Moves : Life → Event → Life → Prop
  | schedule (entry : TimerEntry) (cancelled : Bool) :
      Moves (.unborn cancelled) (.scheduled entry) (.waiting entry cancelled)
  | take (entry : TimerEntry) (eventId now : ℕ) :
      Moves (.waiting entry false) (.taken eventId now) (.firing entry now false)
  | drop (entry : TimerEntry) (eventId : ℕ) :
      Moves (.waiting entry true) (.dropped eventId) (.atEnd entry)
  | call (entry : TimerEntry) (now : ℕ) (cancelled : Bool) :
      Moves (.firing entry now cancelled) (.called entry now) (.running entry now cancelled)
  | again (entry entry' : TimerEntry) (now : ℕ) (hpos : 0 < entry.intervalMicros)
      (hsame : SameTimer entry entry') :
      Moves (.running entry now false) (.again entry') (.waiting entry' false)
  | complete (entry : TimerEntry) (eventId now : ℕ) (cancelled : Bool)
      (hdone : entry.intervalMicros = 0 ∨ cancelled) :
      Moves (.running entry now cancelled) (.completed eventId) (.atEnd entry)
  | free (entry : TimerEntry) : Moves (.freeing entry) (.freed entry) .gone
  | cancel (life : Life) (eventId : ℕ) : Moves life (.cancelled eventId) life.cancel

theorem next_eq_some_iff {life life' : Life} {event : Event} :
    life.next event = some life' ↔ Moves life event life' := by
  constructor
  · intro h
    unfold Life.next at h
    split at h
    · cases h; exact .cancel ..
    · cases h; exact .schedule ..
    · cases h; exact .take ..
    · cases h; exact .drop ..
    · split at h
      · next hsame =>
          obtain ⟨rfl, rfl⟩ := hsame
          cases h
          exact .call ..
      · cases h
    · split at h
      · next hagain =>
          cases h
          exact .again _ _ _ hagain.1 hagain.2
      · cases h
    · split at h
      · next hdone =>
          cases h
          exact .complete _ _ _ _ hdone
      · cases h
    · split at h
      · next hsame =>
          cases h
          rw [hsame]
          exact .free ..
      · cases h
    · cases h
  · intro h
    cases h with
    | schedule entry cancelled => rfl
    | take entry eventId now => rfl
    | drop entry eventId => rfl
    | call entry now cancelled => exact if_pos ⟨rfl, rfl⟩
    | again entry entry' now hpos hsame => exact if_pos ⟨hpos, hsame⟩
    | complete entry eventId now cancelled hdone =>
        cases cancelled <;> exact if_pos hdone
    | free entry => exact if_pos rfl
    | cancel life eventId => rfl

/-- What holds at first and is kept by every event holds after every word. -/
theorem lifeAfter_induction {motive : List Event → Life → Prop} {life : Life} (hinit : motive [] life)
    (hstep : ∀ past event before after, motive past before → Moves before event after →
      motive (event :: past) after) :
    ∀ events {life'}, lifeAfter life events = some life' → motive events life' := by
  intro events
  induction events with
  | nil =>
      intro life' h
      cases h
      exact hinit
  | cons event past ih =>
      intro life' h
      obtain ⟨before, hbefore, hmove⟩ := Option.bind_eq_some_iff.mp h
      exact hstep past event before life' (ih hbefore) (next_eq_some_iff.mp hmove)

theorem lifeAfter_append (life : Life) (newer older : List Event) :
    lifeAfter life (newer ++ older) = (lifeAfter life older).bind (lifeAfter · newer) := by
  induction newer with
  | nil => cases h : lifeAfter life older <;> simp [lifeAfter, h]
  | cons event newer ih => rw [List.cons_append, lifeAfter, ih, Option.bind_assoc]; rfl

/-! ## What is counted -/

/-- The timer that an entry comes from, among the events. -/
def ScheduledAs (past : List Event) (entry : TimerEntry) : Prop :=
  ∀ first, .scheduled first ∈ past →
    first.intervalMicros = entry.intervalMicros ∧ first.freeCallback = entry.freeCallback

/-- A bound for the calls of a timer without interval. -/
def CalledAtMost (past : List Event) (entry : TimerEntry) (n : ℕ) : Prop :=
  entry.intervalMicros = 0 → calls past ≤ n

/-- **The account of a timer**: what its events add up to at each point of its life. -/
def Accounted (past : List Event) : Life → Prop
  | .unborn _ => calls past = 0 ∧ frees past = 0 ∧ ends past = 0 ∧ ∀ first, .scheduled first ∉ past
  | .waiting entry _ => frees past = 0 ∧ ends past = 0 ∧ ScheduledAs past entry ∧ CalledAtMost past entry 0
  | .firing entry _ _ =>
      frees past = 0 ∧ ends past = 0 ∧ ScheduledAs past entry ∧ CalledAtMost past entry 0
  | .running entry _ _ =>
      frees past = 0 ∧ ends past = 0 ∧ ScheduledAs past entry ∧ CalledAtMost past entry 1
  | .freeing entry => frees past = 0 ∧ ends past = 1 ∧ entry.freeCallback.isSome ∧
      ScheduledAs past entry ∧ CalledAtMost past entry 1
  | .gone => ends past = 1 ∧ ∀ first, .scheduled first ∈ past →
      (frees past = if first.freeCallback.isSome then 1 else 0) ∧ CalledAtMost past first 1

theorem calls_cons (event : Event) (past : List Event) :
    calls (event :: past) = calls past + if event.isCall then 1 else 0 := List.countP_cons ..

theorem frees_cons (event : Event) (past : List Event) :
    frees (event :: past) = frees past + if event.isFree then 1 else 0 := List.countP_cons ..

theorem ends_cons (event : Event) (past : List Event) :
    ends (event :: past) = ends past + if event.isEnd then 1 else 0 := List.countP_cons ..

theorem scheduledAs_cons {event : Event} {past : List Event} {entry : TimerEntry}
    (h : ∀ first, event ≠ .scheduled first) : ScheduledAs (event :: past) entry ↔ ScheduledAs past entry := by
  have hmem : ∀ first, .scheduled first ∈ event :: past ↔ .scheduled first ∈ past := by
    intro first
    rw [List.mem_cons]
    exact or_iff_right (h first).symm
  unfold ScheduledAs
  simp only [hmem]

/-- An event that is not counted. -/
def Event.Uncounted (event : Event) : Prop :=
  event.isCall = false ∧ event.isFree = false ∧ event.isEnd = false ∧ ∀ first, event ≠ .scheduled first

theorem Event.Uncounted.accounted_cons {event : Event} (h : event.Uncounted) {past : List Event}
    {life : Life} : Accounted (event :: past) life ↔ Accounted past life := by
  obtain ⟨hcall, hfree, hend, hfirst⟩ := h
  have hmem : ∀ first, .scheduled first ∈ event :: past ↔ .scheduled first ∈ past := by
    intro first
    rw [List.mem_cons]
    exact or_iff_right (hfirst first).symm
  have hcalls : calls (event :: past) = calls past := by simp [calls_cons, hcall]
  have hfrees : frees (event :: past) = frees past := by simp [frees_cons, hfree]
  have hends : ends (event :: past) = ends past := by simp [ends_cons, hend]
  cases life <;>
    simp only [Accounted, CalledAtMost, scheduledAs_cons hfirst, hmem, hcalls, hfrees, hends]

theorem accounted_cancel {past : List Event} {life : Life} :
    Accounted past life.cancel ↔ Accounted past life := by
  cases life <;> rfl

/-- The account when a timer comes to its end. -/
theorem accounted_atEnd {past : List Event} {entry : TimerEntry} (hfrees : frees past = 0)
    (hends : ends past = 1) (hsame : ScheduledAs past entry) (hcalls : CalledAtMost past entry 1) :
    Accounted past (.atEnd entry) := by
  unfold Life.atEnd
  split
  · next hsome => exact ⟨hfrees, hends, hsome, hsame, hcalls⟩
  · next hnone =>
      refine ⟨hends, fun first hfirst => ?_⟩
      obtain ⟨hinterval, hfree⟩ := hsame first hfirst
      refine ⟨?_, fun hzero => hcalls (hinterval ▸ hzero)⟩
      rw [hfree, if_neg hnone, hfrees]

theorem SameTimer.interval {entry entry' : TimerEntry} (h : SameTimer entry entry') :
    entry'.intervalMicros = entry.intervalMicros := by
  rw [h]

theorem SameTimer.freeCallback {entry entry' : TimerEntry} (h : SameTimer entry entry') :
    entry'.freeCallback = entry.freeCallback := by
  rw [h]

/-- **Every event keeps the account.** -/
theorem accounted_step {past : List Event} {event : Event} {before after : Life}
    (h : Accounted past before) (hmove : Moves before event after) : Accounted (event :: past) after := by
  cases hmove with
  | schedule entry cancelled =>
      obtain ⟨hcalls, hfrees, hends, hnone⟩ := h
      refine ⟨by simp [frees_cons, hfrees, Event.isFree], by simp [ends_cons, hends, Event.isEnd], ?_, ?_⟩
      · intro first hfirst
        rcases List.mem_cons.mp hfirst with heq | hmem
        · cases heq
          exact ⟨rfl, rfl⟩
        · exact absurd hmem (hnone first)
      · intro _
        simp [calls_cons, hcalls, Event.isCall]
  | take entry eventId now =>
      have huncounted : (Event.taken eventId now).Uncounted := ⟨rfl, rfl, rfl, fun _ h => by cases h⟩
      exact huncounted.accounted_cons.mpr h
  | drop entry eventId =>
      obtain ⟨hfrees, hends, hsame, hcalls⟩ := h
      apply accounted_atEnd
      · simp [frees_cons, hfrees, Event.isFree]
      · simp [ends_cons, hends, Event.isEnd]
      · exact (scheduledAs_cons fun _ h => by cases h).mpr hsame
      · intro hzero
        have hnone := hcalls hzero
        simp [calls_cons, Event.isCall]
        omega
  | call entry now cancelled =>
      obtain ⟨hfrees, hends, hsame, hcalls⟩ := h
      refine ⟨by simp [frees_cons, hfrees, Event.isFree], by simp [ends_cons, hends, Event.isEnd],
        (scheduledAs_cons fun _ h => by cases h).mpr hsame, fun hzero => ?_⟩
      have hnone := hcalls hzero
      simp [calls_cons, Event.isCall]
      omega
  | again entry entry' now hpos hsame =>
      obtain ⟨hfrees, hends, hscheduled, -⟩ := h
      have huncounted : (Event.again entry').Uncounted := ⟨rfl, rfl, rfl, fun _ h => by cases h⟩
      refine huncounted.accounted_cons.mpr ⟨hfrees, hends, ?_, ?_⟩
      · intro first hfirst
        rw [hsame.interval, hsame.freeCallback]
        exact hscheduled first hfirst
      · intro hzero
        rw [hsame.interval] at hzero
        omega
  | complete entry eventId now cancelled hdone =>
      obtain ⟨hfrees, hends, hsame, hcalls⟩ := h
      apply accounted_atEnd
      · simp [frees_cons, hfrees, Event.isFree]
      · simp [ends_cons, hends, Event.isEnd]
      · exact (scheduledAs_cons fun _ h => by cases h).mpr hsame
      · intro hzero
        simpa [calls_cons, Event.isCall] using hcalls hzero
  | free entry =>
      obtain ⟨hfrees, hends, hsome, hsame, hcalls⟩ := h
      refine ⟨by simp [ends_cons, hends, Event.isEnd], fun first hfirst => ?_⟩
      have hfirst' : .scheduled first ∈ past := by simpa using hfirst
      obtain ⟨hinterval, hfree⟩ := hsame first hfirst'
      refine ⟨?_, fun hzero => ?_⟩
      · rw [hfree, if_pos hsome, frees_cons, hfrees]
        rfl
      · simpa [calls_cons, Event.isCall] using hcalls (hinterval ▸ hzero)
  | cancel life eventId =>
      have huncounted : (Event.cancelled eventId).Uncounted := ⟨rfl, rfl, rfl, fun _ h => by cases h⟩
      exact accounted_cancel.mpr (huncounted.accounted_cons.mpr h)

theorem accounted {events : List Event} {life : Life}
    (h : lifeAfter (.unborn false) events = some life) : Accounted events life := by
  have hinit : Accounted [] (.unborn false) := ⟨rfl, rfl, rfl, by simp⟩
  exact lifeAfter_induction hinit (fun _ _ _ _ hacc hmove => accounted_step hacc hmove) events h

/-! ## After the free callback -/

/-- Nothing happens to a timer that is gone. -/
theorem lifeAfter_gone {events : List Event} {life : Life} (h : lifeAfter .gone events = some life) :
    life = .gone ∧ ∀ event ∈ events, event.usesContext = false := by
  refine lifeAfter_induction
    (motive := fun events life => life = .gone ∧ ∀ event ∈ events, event.usesContext = false)
    ⟨rfl, by simp⟩ ?_ events h
  rintro past event _ after ⟨rfl, hpast⟩ hmove
  cases hmove with
  | cancel _ eventId => exact ⟨rfl, by simpa [Event.usesContext] using hpast⟩

/-- The context of a timer is not used after it was freed. -/
theorem unused_after_free {newer older : List Event} {entry : TimerEntry} {life life' : Life}
    (h : lifeAfter life (newer ++ .freed entry :: older) = some life') :
    ∀ event ∈ newer, event.usesContext = false := by
  rw [lifeAfter_append] at h
  obtain ⟨middle, hmiddle, hnewer⟩ := Option.bind_eq_some_iff.mp h
  obtain ⟨before, -, hmove⟩ := Option.bind_eq_some_iff.mp hmiddle
  cases next_eq_some_iff.mp hmove with
  | free _ => exact (lifeAfter_gone hnewer).2

/-! ## After a cancellation -/

/-- A timer that will not be called any more. -/
def Life.Quiet : Life → Prop
  | .unborn cancelled => cancelled
  | .waiting _ cancelled => cancelled
  | .firing .. => False
  | .running _ _ cancelled => cancelled
  | .freeing _ => True
  | .gone => True

theorem quiet_atEnd (entry : TimerEntry) : (Life.atEnd entry).Quiet := by
  unfold Life.atEnd
  split <;> trivial

/-- A cancellation makes every timer quiet that is not just being fired. -/
theorem quiet_cancel {life : Life} (h : ∀ entry now cancelled, life ≠ .firing entry now cancelled) :
    life.cancel.Quiet := by
  cases life with
  | unborn _ => rfl
  | waiting _ _ => rfl
  | firing entry now cancelled => exact absurd rfl (h entry now cancelled)
  | running _ _ _ => rfl
  | freeing _ => trivial
  | gone => trivial

/-- **A quiet timer stays quiet and is not called.** -/
theorem run_quiet {life life' : Life} (hquiet : life.Quiet) {events : List Event}
    (h : lifeAfter life events = some life') : calls events = 0 := by
  have hall := lifeAfter_induction (motive := fun events life => life.Quiet ∧ calls events = 0)
    ⟨hquiet, rfl⟩ ?_ events h
  · exact hall.2
  rintro past event before after ⟨hbefore, hpast⟩ hmove
  have hcons : event.isCall = false → calls (event :: past) = 0 := by
    intro hcall
    rw [calls_cons, hpast, hcall]
    rfl
  cases hmove with
  | schedule entry cancelled => exact ⟨hbefore, hcons rfl⟩
  | take entry eventId now => cases hbefore
  | drop entry eventId => exact ⟨quiet_atEnd entry, hcons rfl⟩
  | call entry now cancelled => exact hbefore.elim
  | again entry entry' now hpos hsame => cases hbefore
  | complete entry eventId now cancelled hdone => exact ⟨quiet_atEnd entry, hcons rfl⟩
  | free entry => exact ⟨trivial, hcons rfl⟩
  | cancel life eventId =>
      refine ⟨quiet_cancel fun entry now cancelled heq => ?_, hcons rfl⟩
      rw [heq] at hbefore
      exact hbefore

end Emane.Timer
