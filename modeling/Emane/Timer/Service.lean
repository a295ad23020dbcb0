import Mathlib
import Emane.Lib.Run
import Emane.Timer.LifeCycle

set_option autoImplicit false

/-! # The timer service

A heap of timers, a set of cancelled numbers, and a thread that fires the timers. The thread gives up
the lock while it calls a callback or a free callback; timers are scheduled and cancelled whenever the
lock is free. A `Service` is the state under the lock with the place of the thread and, for the proofs, a
log of what happened. `step` is one section under the lock, or one call without it.

In every run the events of each timer are a word of the automaton in `LifeCycle` (`run_tracks`), and
`timer_lifecycle` is read off it.
-/

namespace Emane.Timer

open Emane.Lib

/-! ## The state -/

structure TimerState where
  /-- the heap, in the order in which it is popped -/
  timers : List TimerEntry
  cancelled : Finset ℕ
  nextEventId : ℕ
  shutdown : Bool

/-- The place of the timer thread: at the head of its loop, before the callback of a timer it has taken
off the heap, in this callback, before the free callback of a timer, or behind the loop. -/
inductive Thread
  | loop
  | fire (top : TimerEntry) (nowMicros : ℕ)
  | running (top : TimerEntry) (nowMicros : ℕ)
  | free (top : TimerEntry)
  | stopped

structure Service where
  state : TimerState
  thread : Thread
  /-- what happened, newest first -/
  log : List Event

/-- `get_timer_state` at the first call. -/
def Service.start : Service :=
  { state := { timers := [], cancelled := ∅, nextEventId := 1, shutdown := false }
    thread := .loop
    log := [] }

/-- The order of the heap: the earliest expiration first, then the smallest number. -/
def TimerEntry.Before (entry other : TimerEntry) : Prop :=
  entry.expireTimeMicros < other.expireTimeMicros ∨
    entry.expireTimeMicros = other.expireTimeMicros ∧ entry.eventId ≤ other.eventId

instance : DecidableRel TimerEntry.Before :=
  fun _ _ => inferInstanceAs (Decidable (_ ∨ _))

/-- `BinaryHeap::push` -/
def push (timers : List TimerEntry) (entry : TimerEntry) : List TimerEntry :=
  timers.orderedInsert TimerEntry.Before entry

/-! ## The steps -/

/-- The arguments of `emane_rs_timer_schedule`. -/
structure Request where
  expireMicros : ℕ
  intervalMicros : ℕ
  arg : ℕ
  pUser : ℕ
  callback : ℕ
  freeCallback : Option ℕ

/-- The entry that `emane_rs_timer_schedule` makes. -/
def Request.entry (request : Request) (eventId nowMicros : ℕ) : TimerEntry :=
  { eventId
    expireTimeMicros := request.expireMicros
    scheduleTimeMicros := nowMicros
    intervalMicros := request.intervalMicros
    arg := request.arg
    pUser := request.pUser
    callback := request.callback
    freeCallback := request.freeCallback }

/-- `emane_rs_timer_schedule` under the lock. The counter of the numbers must not overflow. -/
def Service.schedule (s : Service) (request : Request) (nowMicros : ℕ) : Option Service :=
  let entry := request.entry s.state.nextEventId nowMicros
  if s.state.nextEventId + 1 ≥ 2 ^ 64 then none
  else some { s with
    state := { s.state with
      nextEventId := s.state.nextEventId + 1
      timers := push s.state.timers entry }
    log := .scheduled entry :: s.log }

/-- `emane_rs_timer_cancel` -/
def Service.cancel (s : Service) (eventId : ℕ) : Service :=
  { s with
    state := { s.state with cancelled := insert eventId s.state.cancelled }
    log := .cancelled eventId :: s.log }

/-- Where the thread goes when it is done with a timer. -/
def afterEnd (top : TimerEntry) : Thread :=
  match top.freeCallback with
  | some _ => .free top
  | none => .loop

/-- One pass of the loop in `timer_thread`, up to where it gives up the lock. A thread that waits makes
a pass without effect. -/
def Service.pass (s : Service) (nowMicros : ℕ) : Service :=
  if s.state.shutdown then { s with thread := .stopped }
  else
    match s.state.timers with
    | [] => s
    | top :: rest =>
        if top.eventId ∈ s.state.cancelled then
          { state := { s.state with
              timers := rest
              cancelled := s.state.cancelled.erase top.eventId }
            thread := afterEnd top
            log := .dropped top.eventId :: s.log }
        else if top.expireTimeMicros ≤ nowMicros then
          { state := { s.state with timers := rest }
            thread := .fire top nowMicros
            log := .taken top.eventId nowMicros :: s.log }
        else s

/-- What the thread does under the lock after a callback has returned. The sum is a `u64`. -/
def Service.resume (s : Service) (top : TimerEntry) (nowMicros : ℕ) : Service :=
  if top.intervalMicros > 0 ∧ top.eventId ∉ s.state.cancelled then
    let top' := { top with
      scheduleTimeMicros := nowMicros
      expireTimeMicros := (nowMicros + top.intervalMicros) % 2 ^ 64 }
    { state := { s.state with timers := push s.state.timers top' }
      thread := .loop
      log := .again top' :: s.log }
  else
    { state := { s.state with cancelled := s.state.cancelled.erase top.eventId }
      thread := afterEnd top
      log := .completed top.eventId :: s.log }

/-- What the threads do. -/
inductive Action
  | schedule (request : Request) (nowMicros : ℕ)
  | cancel (eventId : ℕ)
  | pass (nowMicros : ℕ)
  | callback
  | resume
  | free

/-- One step of a thread; `none` if the timer thread is not at this place. -/
def Service.step (s : Service) : Action → Option Service
  | .schedule request now => s.schedule request now
  | .cancel eventId => some (s.cancel eventId)
  | .pass now =>
      match s.thread with
      | .loop => some (s.pass now)
      | _ => none
  | .callback =>
      match s.thread with
      | .fire top now => some { s with thread := .running top now, log := .called top now :: s.log }
      | _ => none
  | .resume =>
      match s.thread with
      | .running top now => some (s.resume top now)
      | _ => none
  | .free =>
      match s.thread with
      | .free top => some { s with thread := .loop, log := .freed top :: s.log }
      | _ => none

/-! ## Where each timer is -/

/-- The timer that the thread has taken off the heap. -/
def Thread.held : Thread → List TimerEntry
  | .fire top _ => [top]
  | .running top _ => [top]
  | .free top => [top]
  | _ => []

/-- The timers that are not gone. -/
def Service.live (s : Service) : List TimerEntry := s.thread.held ++ s.state.timers

/-- Numbers are given once. -/
structure Numbered (s : Service) : Prop where
  pos : 1 ≤ s.state.nextEventId
  given : ∀ entry ∈ s.live, 1 ≤ entry.eventId ∧ entry.eventId < s.state.nextEventId
  nodup : (s.live.map TimerEntry.eventId).Nodup

/-- No new numbers. -/
theorem Numbered.of_subperm {s s' : Service} (h : Numbered s)
    (hnext : s'.state.nextEventId = s.state.nextEventId)
    (hsub : (s'.live.map TimerEntry.eventId).Subperm (s.live.map TimerEntry.eventId)) : Numbered s' := by
  refine ⟨hnext ▸ h.pos, fun entry hentry => ?_, ?_⟩
  · obtain ⟨old, hold, heq⟩ := List.mem_map.mp (hsub.subset (List.mem_map_of_mem hentry))
    rw [hnext, ← heq]
    exact h.given old hold
  · obtain ⟨ids, hperm, hids⟩ := hsub
    exact hperm.nodup_iff.mp (h.nodup.sublist hids)

/-- The place of a timer in its life, by the state of the service. -/
def Service.LifeIs (s : Service) (eventId : ℕ) : Life → Prop
  | .unborn cancelled => (eventId = 0 ∨ s.state.nextEventId ≤ eventId) ∧
      cancelled = decide (eventId ∈ s.state.cancelled)
  | .waiting entry cancelled => entry ∈ s.state.timers ∧ entry.eventId = eventId ∧
      cancelled = decide (eventId ∈ s.state.cancelled)
  | .firing entry now cancelled => s.thread = .fire entry now ∧ entry.eventId = eventId ∧
      cancelled = decide (eventId ∈ s.state.cancelled)
  | .running entry now cancelled => s.thread = .running entry now ∧ entry.eventId = eventId ∧
      cancelled = decide (eventId ∈ s.state.cancelled)
  | .freeing entry => s.thread = .free entry ∧ entry.eventId = eventId
  | .gone => 1 ≤ eventId ∧ eventId < s.state.nextEventId ∧ ∀ entry ∈ s.live, entry.eventId ≠ eventId

/-- The log of each timer leads to the place where the timer is. -/
def Tracks (s : Service) : Prop :=
  ∀ eventId life, s.LifeIs eventId life →
    lifeAfter (.unborn false) (eventsOf eventId s.log) = some life

/-- Every timer is somewhere. -/
theorem exists_lifeIs (s : Service) (eventId : ℕ) : ∃ life, s.LifeIs eventId life := by
  by_cases hlive : ∃ entry ∈ s.live, entry.eventId = eventId
  · obtain ⟨entry, hmem, hid⟩ := hlive
    rcases List.mem_append.mp hmem with hheld | htimers
    · cases hthread : s.thread with
      | loop => simp [hthread, Thread.held] at hheld
      | stopped => simp [hthread, Thread.held] at hheld
      | fire top now =>
          obtain rfl : entry = top := by simpa [hthread, Thread.held] using hheld
          exact ⟨.firing entry now _, hthread, hid, rfl⟩
      | running top now =>
          obtain rfl : entry = top := by simpa [hthread, Thread.held] using hheld
          exact ⟨.running entry now _, hthread, hid, rfl⟩
      | free top =>
          obtain rfl : entry = top := by simpa [hthread, Thread.held] using hheld
          exact ⟨.freeing entry, hthread, hid⟩
    · exact ⟨.waiting entry _, htimers, hid, rfl⟩
  · by_cases hborn : eventId = 0 ∨ s.state.nextEventId ≤ eventId
    · exact ⟨.unborn _, hborn, rfl⟩
    · refine ⟨.gone, by omega, by omega, fun entry hmem hid => hlive ⟨entry, hmem, hid⟩⟩

theorem eventsOf_cons_self (event : Event) (log : List Event) :
    eventsOf event.eventId (event :: log) = event :: eventsOf event.eventId log := by
  simp [eventsOf]

theorem eventsOf_cons_of_ne {event : Event} {eventId : ℕ} (h : eventId ≠ event.eventId)
    (log : List Event) : eventsOf eventId (event :: log) = eventsOf eventId log := by
  simp [eventsOf, Ne.symm h]

/-- No timer is in two places. -/
theorem lifeIs_unique {s : Service} (h : Numbered s) {eventId : ℕ} {life life' : Life}
    (hlife : s.LifeIs eventId life) (hlife' : s.LifeIs eventId life') : life = life' := by
  obtain ⟨hpos, hgiven, hnodup⟩ := h
  have hheld : ∀ top ∈ s.thread.held, ∀ entry ∈ s.state.timers, top.eventId ≠ entry.eventId := by
    unfold Service.live at hnodup
    rw [List.map_append, List.nodup_append] at hnodup
    exact fun top htop entry hentry =>
      hnodup.2.2 _ (List.mem_map_of_mem htop) _ (List.mem_map_of_mem hentry)
  have htimers : ∀ entry ∈ s.state.timers, ∀ other ∈ s.state.timers,
      entry.eventId = other.eventId → entry = other := by
    unfold Service.live at hnodup
    rw [List.map_append, List.nodup_append] at hnodup
    exact fun entry hentry other hother => List.inj_on_of_nodup_map hnodup.2.1 hentry hother
  simp only [Service.live, List.mem_append] at hgiven
  cases life <;> cases life' <;> simp only [Service.LifeIs, Service.live, List.mem_append] at hlife hlife'
  all_goals grind [Thread.held]

theorem mem_push {timers : List TimerEntry} {entry other : TimerEntry} :
    other ∈ push timers entry ↔ other = entry ∨ other ∈ timers := List.mem_orderedInsert ..

theorem push_perm (timers : List TimerEntry) (entry : TimerEntry) :
    (push timers entry).Perm (entry :: timers) := List.perm_orderedInsert ..

/-- A timer is put on the heap. -/
theorem live_push_perm (s : Service) (entry : TimerEntry) :
    (s.thread.held ++ push s.state.timers entry).Perm (entry :: s.live) :=
  ((push_perm s.state.timers entry).append_left s.thread.held).trans List.perm_middle

/-! ## Every step follows the lives -/

structure Inv (s : Service) : Prop where
  numbered : Numbered s
  tracks : Tracks s

/-- An event is followed if it moves its own timer and leaves the others where they are. -/
theorem Inv.event {s s' : Service} {event : Event} {before after : Life} (hnumbered : Numbered s')
    (htracks : Tracks s) (hlog : s'.log = event :: s.log) (hmove : Moves before event after)
    (hbefore : s.LifeIs event.eventId before) (hafter : s'.LifeIs event.eventId after)
    (hother : ∀ eventId life, eventId ≠ event.eventId → s'.LifeIs eventId life →
      s.LifeIs eventId life) : Inv s' := by
  refine ⟨hnumbered, fun eventId life hlife => ?_⟩
  rw [hlog]
  by_cases hid : eventId = event.eventId
  · subst hid
    rw [eventsOf_cons_self, lifeAfter, htracks _ before hbefore, lifeIs_unique hnumbered hlife hafter]
    exact next_eq_some_iff.mpr hmove
  · rw [eventsOf_cons_of_ne hid]
    exact htracks eventId life (hother eventId life hid hlife)

theorem schedule_inv {s s' : Service} (h : Inv s) {request : Request} {now : ℕ}
    (hstep : s.schedule request now = some s') : Inv s' := by
  obtain ⟨⟨hpos, hgiven, hnodup⟩, htracks⟩ := h
  unfold Service.schedule at hstep
  split at hstep
  · cases hstep
  cases hstep
  have hid : (request.entry s.state.nextEventId now).eventId = s.state.nextEventId := rfl
  generalize request.entry s.state.nextEventId now = entry at hid
  refine Inv.event ⟨?_, ?_, ?_⟩ htracks rfl
    (.schedule _ (decide (s.state.nextEventId ∈ s.state.cancelled))) ?_ ?_ ?_
  · exact Nat.le_add_left ..
  · simp only [Service.live, List.mem_append, mem_push] at hgiven ⊢
    grind
  · refine ((live_push_perm s entry).map TimerEntry.eventId).nodup_iff.mpr ?_
    refine List.nodup_cons.mpr ⟨fun hmem => ?_, hnodup⟩
    obtain ⟨old, hold, heq⟩ := List.mem_map.mp hmem
    have := (hgiven old hold).2
    omega
  · exact ⟨.inr hid.ge, by rw [← hid]; rfl⟩
  · exact ⟨mem_push.mpr (.inl rfl), rfl, by rw [← hid]; rfl⟩
  · intro eventId life hne hlife
    simp only [Service.live, List.mem_append, Event.eventId] at hgiven hne
    cases life <;> simp only [Service.LifeIs, Service.live, List.mem_append, mem_push] at hlife ⊢
    all_goals grind

theorem cancel_inv {s : Service} (h : Inv s) (eventId : ℕ) : Inv (s.cancel eventId) := by
  obtain ⟨before, hbefore⟩ := exists_lifeIs s eventId
  refine Inv.event (h.numbered.of_subperm rfl (List.Subperm.refl _)) h.tracks rfl
    (.cancel before eventId) hbefore ?_ ?_
  · cases before <;> simp only [Service.LifeIs, Life.cancel, Service.cancel, Service.live, Event.eventId]
      at hbefore ⊢
    all_goals grind
  · intro other life hne hlife
    cases life <;> simp only [Service.LifeIs, Service.cancel, Service.live, Event.eventId] at hlife hne ⊢
    all_goals grind

/-- A thread that goes to the end of a timer holds it, or nothing. -/
theorem held_afterEnd (top : TimerEntry) : (afterEnd top).held.Sublist [top] := by
  unfold afterEnd
  split
  · exact List.Sublist.refl _
  · exact List.nil_sublist _

/-- A timer that is not on the heap any more is at its end. -/
theorem lifeIs_atEnd {s : Service} {top : TimerEntry} (hthread : s.thread = afterEnd top)
    (hborn : 1 ≤ top.eventId ∧ top.eventId < s.state.nextEventId)
    (htimers : ∀ entry ∈ s.state.timers, entry.eventId ≠ top.eventId) :
    s.LifeIs top.eventId (.atEnd top) := by
  unfold Life.atEnd
  split
  · next hsome =>
      obtain ⟨callback, hcallback⟩ := Option.isSome_iff_exists.mp hsome
      rw [afterEnd, hcallback] at hthread
      exact ⟨hthread, rfl⟩
  · next hnone =>
      rw [Option.not_isSome_iff_eq_none] at hnone
      rw [afterEnd, hnone] at hthread
      refine ⟨hborn.1, hborn.2, fun entry hentry => htimers entry ?_⟩
      simpa [Service.live, hthread, Thread.held] using hentry

/-- The first timer of the heap has a number of its own. -/
theorem Numbered.ne_of_mem_tail {s : Service} (h : Numbered s) {top : TimerEntry}
    {rest : List TimerEntry} (htimers : s.state.timers = top :: rest) :
    ∀ entry ∈ rest, entry.eventId ≠ top.eventId := by
  intro entry hentry heq
  have hnodup := h.nodup
  rw [Service.live, htimers, List.map_append, List.map_cons] at hnodup
  have htail := (List.nodup_append.mp hnodup).2.1
  exact (List.nodup_cons.mp htail).1 (heq ▸ List.mem_map_of_mem hentry)

theorem pass_inv {s : Service} (h : Inv s) (hthread : s.thread = .loop) (now : ℕ) :
    Inv (s.pass now) := by
  have hlive : s.live = s.state.timers := by simp [Service.live, hthread, Thread.held]
  unfold Service.pass
  split
  · -- the thread leaves its loop
    refine ⟨h.numbered.of_subperm rfl ?_, fun eventId life hlife => h.tracks eventId life ?_⟩
    · rw [hlive]
      exact List.Subperm.refl _
    · cases life <;> simp only [Service.LifeIs, hlive] at hlife ⊢
      all_goals grind [Service.live, Thread.held]
  split
  · exact h
  next top rest htimers =>
  have htop : top ∈ s.live := by rw [hlive, htimers]; exact List.mem_cons_self
  have hrest := h.numbered.ne_of_mem_tail htimers
  split
  · -- a cancelled timer is dropped
    next hcancelled =>
    refine Inv.event (h.numbered.of_subperm rfl ?_) h.tracks rfl (.drop top top.eventId) ?_
      (lifeIs_atEnd rfl (h.numbered.given top htop) hrest) ?_
    · rw [hlive, htimers]
      refine (List.Sublist.map _ ?_).subperm
      exact List.Sublist.append (held_afterEnd top) (List.Sublist.refl rest)
    · exact ⟨by rw [htimers]; exact List.mem_cons_self, rfl, (decide_eq_true hcancelled).symm⟩
    · intro eventId life hne hlife
      simp only [Event.eventId] at hne
      cases life <;> simp only [Service.LifeIs, hlive, htimers] at hlife ⊢
      all_goals grind [Service.live, Thread.held, afterEnd]
  split
  · -- a timer that has expired is taken off the heap
    next hcancelled hexpired =>
    refine Inv.event (h.numbered.of_subperm rfl ?_) h.tracks rfl (.take top top.eventId now) ?_ ?_ ?_
    · rw [hlive, htimers]
      exact List.Subperm.refl _
    · exact ⟨by rw [htimers]; exact List.mem_cons_self, rfl, (decide_eq_false hcancelled).symm⟩
    · exact ⟨rfl, rfl, (decide_eq_false hcancelled).symm⟩
    · intro eventId life hne hlife
      simp only [Event.eventId] at hne
      cases life <;> simp only [Service.LifeIs, hlive, htimers] at hlife ⊢
      all_goals grind [Service.live, Thread.held]
  · exact h

theorem callback_inv {s : Service} (h : Inv s) {top : TimerEntry} {now : ℕ}
    (hthread : s.thread = .fire top now) :
    Inv { s with thread := .running top now, log := .called top now :: s.log } := by
  have hlive : s.live = top :: s.state.timers := by simp [Service.live, hthread, Thread.held]
  refine Inv.event (h.numbered.of_subperm rfl ?_) h.tracks rfl
    (.call top now (decide (top.eventId ∈ s.state.cancelled))) ⟨hthread, rfl, rfl⟩ ⟨rfl, rfl, rfl⟩ ?_
  · rw [hlive]
    exact List.Subperm.refl _
  · intro eventId life hne hlife
    simp only [Event.eventId] at hne
    cases life <;> simp only [Service.LifeIs, hlive] at hlife ⊢
    all_goals grind [Service.live, Thread.held]

theorem free_inv {s : Service} (h : Inv s) {top : TimerEntry} (hthread : s.thread = .free top) :
    Inv { s with thread := .loop, log := .freed top :: s.log } := by
  have hlive : s.live = top :: s.state.timers := by simp [Service.live, hthread, Thread.held]
  have hborn := h.numbered.given top (by rw [hlive]; exact List.mem_cons_self)
  have hnodup := h.numbered.nodup
  rw [hlive, List.map_cons, List.nodup_cons] at hnodup
  refine Inv.event (h.numbered.of_subperm rfl ?_) h.tracks rfl (.free top) ⟨hthread, rfl⟩
    ⟨hborn.1, hborn.2, ?_⟩ ?_
  · rw [hlive]
    exact (List.sublist_cons_self ..).subperm
  · intro entry hentry heq
    have hmem : entry ∈ s.state.timers := by simpa [Service.live, Thread.held] using hentry
    have hid : entry.eventId = top.eventId := heq
    exact hnodup.1 (hid ▸ List.mem_map_of_mem hmem)
  · intro eventId life hne hlife
    simp only [Event.eventId] at hne
    cases life <;> simp only [Service.LifeIs, hlive] at hlife ⊢
    all_goals grind [Service.live, Thread.held]

theorem resume_inv {s : Service} (h : Inv s) {top : TimerEntry} {now : ℕ}
    (hthread : s.thread = .running top now) : Inv (s.resume top now) := by
  have hlive : s.live = top :: s.state.timers := by simp [Service.live, hthread, Thread.held]
  have hborn := h.numbered.given top (by rw [hlive]; exact List.mem_cons_self)
  have hnodup := h.numbered.nodup
  rw [hlive, List.map_cons, List.nodup_cons] at hnodup
  unfold Service.resume
  split
  · next hagain =>
    obtain ⟨hinterval, hcancelled⟩ := hagain
    generalize htop' : { top with
      scheduleTimeMicros := now
      expireTimeMicros := (now + top.intervalMicros) % 2 ^ 64 } = top'
    have hid : top'.eventId = top.eventId := by rw [← htop']
    have hsame : SameTimer top top' := by rw [← htop']; rfl
    refine Inv.event (h.numbered.of_subperm rfl ?_) h.tracks rfl (.again top top' now hinterval hsame) ?_
      ?_ ?_
    · have hperm := (push_perm s.state.timers top').map TimerEntry.eventId
      rw [List.map_cons, hid] at hperm
      rw [hlive]
      exact hperm.subperm
    · exact ⟨hthread, hid.symm, by simp [Event.eventId, hid, hcancelled]⟩
    · exact ⟨mem_push.mpr (.inl rfl), rfl, by simp [Event.eventId, hid, hcancelled]⟩
    · intro eventId life hne hlife
      simp only [Event.eventId] at hne
      cases life <;> simp only [Service.LifeIs, hlive] at hlife ⊢
      all_goals grind [Service.live, Thread.held, mem_push]
  · next hlast =>
    have hdone : top.intervalMicros = 0 ∨ decide (top.eventId ∈ s.state.cancelled) = true := by
      rw [decide_eq_true_iff]
      by_contra hnot
      exact hlast ⟨by omega, fun hmem => hnot (.inr hmem)⟩
    refine Inv.event (h.numbered.of_subperm rfl ?_) h.tracks rfl (.complete top top.eventId now _ hdone)
      ⟨hthread, rfl, rfl⟩ (lifeIs_atEnd rfl hborn ?_) ?_
    · rw [hlive]
      refine (List.Sublist.map _ ?_).subperm
      exact List.Sublist.append (held_afterEnd top) (List.Sublist.refl s.state.timers)
    · exact fun entry hentry heq => hnodup.1 (heq ▸ List.mem_map_of_mem hentry)
    · intro eventId life hne hlife
      simp only [Event.eventId] at hne
      cases life <;> simp only [Service.LifeIs, hlive] at hlife ⊢
      all_goals grind [Service.live, Thread.held, afterEnd]

/-- **Every step follows the lives of the timers.** -/
theorem step_inv {s s' : Service} (h : Inv s) {action : Action} (hstep : s.step action = some s') :
    Inv s' := by
  cases action with
  | schedule request now => exact schedule_inv h hstep
  | cancel eventId =>
      cases hstep
      exact cancel_inv h eventId
  | pass now =>
      cases hthread : s.thread <;> simp [Service.step, hthread] at hstep
      rw [← hstep]
      exact pass_inv h hthread now
  | callback =>
      cases hthread : s.thread <;> simp [Service.step, hthread] at hstep
      rw [← hstep]
      exact callback_inv h hthread
  | resume =>
      cases hthread : s.thread <;> simp [Service.step, hthread] at hstep
      rw [← hstep]
      exact resume_inv h hthread
  | free =>
      cases hthread : s.thread <;> simp [Service.step, hthread] at hstep
      rw [← hstep]
      exact free_inv h hthread

theorem start_inv : Inv .start := by
  refine ⟨⟨le_rfl, by simp [Service.live, Service.start, Thread.held],
    by simp [Service.live, Service.start, Thread.held]⟩, fun eventId life hlife => ?_⟩
  cases life <;> simp [Service.LifeIs, Service.start, Service.live, Thread.held] at hlife
  · rw [hlife.2]
    rfl
  · omega

/-- **A whole run follows the lives of the timers.** -/
theorem run_inv {s s' : Service} (h : Inv s) {actions : List Action}
    (hrun : runSteps Service.step s actions = some s') : Inv s' :=
  runSteps_keeps (fun _ _ _ hinv hstep => step_inv hinv hstep) h hrun

/-! ## The log -/

/-- The log only grows. -/
theorem step_log {s s' : Service} {action : Action} (hstep : s.step action = some s') :
    ∃ newer, s'.log = newer ++ s.log := by
  cases action with
  | schedule request now =>
      simp only [Service.step, Service.schedule] at hstep
      split at hstep
      · cases hstep
      · cases hstep
        exact ⟨[_], rfl⟩
  | cancel eventId =>
      cases hstep
      exact ⟨[_], rfl⟩
  | pass now =>
      cases hthread : s.thread <;> simp [Service.step, hthread] at hstep
      rw [← hstep]
      unfold Service.pass
      split
      · exact ⟨[], rfl⟩
      split
      · exact ⟨[], rfl⟩
      split
      · exact ⟨[_], rfl⟩
      split
      · exact ⟨[_], rfl⟩
      · exact ⟨[], rfl⟩
  | callback =>
      cases hthread : s.thread <;> simp [Service.step, hthread] at hstep
      rw [← hstep]
      exact ⟨[_], rfl⟩
  | resume =>
      cases hthread : s.thread <;> simp [Service.step, hthread] at hstep
      rw [← hstep]
      unfold Service.resume
      split
      · exact ⟨[_], rfl⟩
      · exact ⟨[_], rfl⟩
  | free =>
      cases hthread : s.thread <;> simp [Service.step, hthread] at hstep
      rw [← hstep]
      exact ⟨[_], rfl⟩

theorem run_log {s s' : Service} {actions : List Action}
    (hrun : runSteps Service.step s actions = some s') : ∃ newer, s'.log = newer ++ s.log := by
  refine runSteps_keeps (I := fun t => ∃ newer, t.log = newer ++ s.log) ?_ ⟨[], rfl⟩ hrun
  rintro before action after ⟨newer, hnewer⟩ hstep
  obtain ⟨new, hnew⟩ := step_log hstep
  exact ⟨new ++ newer, by rw [hnew, hnewer, List.append_assoc]⟩

theorem eventsOf_append (eventId : ℕ) (newer older : List Event) :
    eventsOf eventId (newer ++ older) = eventsOf eventId newer ++ eventsOf eventId older :=
  List.filter_append ..

/-! ## The results -/

/-- The thread is about to call the free callback of a timer. -/
def Service.AboutToFree (s : Service) (eventId : ℕ) : Prop :=
  ∃ top, s.thread = .free top ∧ top.eventId = eventId

/-- The thread is about to call the callback of a timer. -/
def Service.AboutToCall (s : Service) (eventId : ℕ) : Prop :=
  ∃ top now, s.thread = .fire top now ∧ top.eventId = eventId

/-- What a timer is owed: one call at most if it has no interval, one end at most (fired to completion,
or cancelled and popped), and its free callback exactly once when it has ended and the thread is not
still about to call it. -/
structure Service.Settles (s : Service) (timer : TimerEntry) : Prop where
  oneShot : timer.intervalMicros = 0 → calls (eventsOf timer.eventId s.log) ≤ 1
  ends_le : ends (eventsOf timer.eventId s.log) ≤ 1
  frees_le : frees (eventsOf timer.eventId s.log) ≤ 1
  freed_iff : frees (eventsOf timer.eventId s.log) = 1 ↔ timer.freeCallback.isSome ∧
    ends (eventsOf timer.eventId s.log) = 1 ∧ ¬ s.AboutToFree timer.eventId

theorem Inv.settles {s : Service} (h : Inv s) {timer : TimerEntry} (htimer : .scheduled timer ∈ s.log) :
    s.Settles timer := by
  obtain ⟨life, hlife⟩ := exists_lifeIs s timer.eventId
  have hmem : .scheduled timer ∈ eventsOf timer.eventId s.log :=
    List.mem_filter.mpr ⟨htimer, decide_eq_true rfl⟩
  have haccount := accounted (h.tracks timer.eventId life hlife)
  -- a timer that is not at its end has neither ended nor been freed
  have hopen : ∀ {n : ℕ} {entry : TimerEntry}, n ≤ 1 →
      frees (eventsOf timer.eventId s.log) = 0 ∧ ends (eventsOf timer.eventId s.log) = 0 ∧
        ScheduledAs (eventsOf timer.eventId s.log) entry ∧
        CalledAtMost (eventsOf timer.eventId s.log) entry n → s.Settles timer := by
    rintro n entry hn ⟨hfrees, hends, hsame, hcalls⟩
    refine ⟨fun hzero => (hcalls ?_).trans hn, by omega, by omega, by omega⟩
    rw [← (hsame timer hmem).1, hzero]
  cases life with
  | unborn cancelled => exact absurd hmem (haccount.2.2.2 timer)
  | waiting entry cancelled => exact hopen (Nat.zero_le 1) haccount
  | firing entry now cancelled => exact hopen (Nat.zero_le 1) haccount
  | running entry now cancelled => exact hopen le_rfl haccount
  | freeing entry =>
      obtain ⟨hfrees, hends, hsome, hsame, hcalls⟩ := haccount
      refine ⟨fun hzero => hcalls ?_, by omega, by omega, fun hone => by omega, fun hfreed => ?_⟩
      · rw [← (hsame timer hmem).1, hzero]
      · exact absurd ⟨entry, hlife⟩ hfreed.2.2
  | gone =>
      obtain ⟨hends, hfirst⟩ := haccount
      obtain ⟨hfrees, hcalls⟩ := hfirst timer hmem
      have hnot : ¬ s.AboutToFree timer.eventId := by
        rintro ⟨top, hthread, hid⟩
        refine hlife.2.2 top ?_ hid
        simp [Service.live, hthread, Thread.held]
      refine ⟨hcalls, by omega, by split at hfrees <;> omega, ?_⟩
      rw [hfrees]
      constructor
      · intro hone
        split at hone
        · next hsome => exact ⟨hsome, hends, hnot⟩
        · cases hone
      · exact fun hfreed => if_pos hfreed.1

/-- A cancellation stops every timer that the thread is not about to call. -/
theorem Inv.calls_after_cancel {s s' : Service} (h : Inv s) {eventId : ℕ}
    (hnot : ¬ s.AboutToCall eventId) {actions : List Action}
    (hrun : runSteps Service.step (s.cancel eventId) actions = some s') :
    calls (eventsOf eventId s'.log) = calls (eventsOf eventId s.log) := by
  obtain ⟨before, hbefore⟩ := exists_lifeIs s eventId
  have hpast := h.tracks eventId before hbefore
  have hquiet : before.cancel.Quiet := by
    apply quiet_cancel
    rintro entry now cancelled rfl
    exact hnot ⟨entry, now, hbefore.1, hbefore.2.1⟩
  obtain ⟨newer, hnewer⟩ := run_log hrun
  obtain ⟨after, hafter⟩ := exists_lifeIs s' eventId
  have hall := (run_inv (cancel_inv h eventId) hrun).tracks eventId after hafter
  have hevents : eventsOf eventId s'.log =
      eventsOf eventId newer ++ .cancelled eventId :: eventsOf eventId s.log := by
    rw [hnewer, eventsOf_append]
    congr 1
    exact eventsOf_cons_self (.cancelled eventId) s.log
  have hcancelled : lifeAfter (.unborn false) (.cancelled eventId :: eventsOf eventId s.log) =
      some before.cancel := by
    rw [lifeAfter, hpast]
    rfl
  rw [hevents, lifeAfter_append, hcancelled] at hall
  have hnone := run_quiet hquiet hall
  rw [hevents]
  unfold calls at hnone ⊢
  rw [List.countP_append, hnone, List.countP_cons]
  simp [Event.isCall]

/-- The context of a timer is not used after it was freed. -/
theorem Inv.unused {s : Service} (h : Inv s) {newer older : List Event} {entry : TimerEntry}
    (hlog : s.log = newer ++ .freed entry :: older) :
    ∀ event ∈ newer, event.eventId = entry.eventId → event.usesContext = false := by
  intro event hevent hid
  obtain ⟨life, hlife⟩ := exists_lifeIs s entry.eventId
  have hall := h.tracks entry.eventId life hlife
  have hself : eventsOf entry.eventId (.freed entry :: older) =
      .freed entry :: eventsOf entry.eventId older := eventsOf_cons_self (.freed entry) older
  rw [hlog, eventsOf_append, hself] at hall
  exact unused_after_free hall event (List.mem_filter.mpr ⟨hevent, decide_eq_true hid⟩)

/-- **The life of every timer**, in every state that a run reaches. A one-shot timer was called once at
most, and a timer was freed once if it has ended (`Settles`). After its free callback no callback of the
timer is called or returns. And a timer that is cancelled while the thread is not about to call it is not
called again, whatever happens next. -/
theorem timer_lifecycle {actions : List Action} {s : Service}
    (hrun : runSteps Service.step .start actions = some s) :
    (∀ timer, .scheduled timer ∈ s.log → s.Settles timer) ∧
    (∀ newer entry older, s.log = newer ++ .freed entry :: older →
      ∀ event ∈ newer, event.eventId = entry.eventId → event.usesContext = false) ∧
    (∀ eventId later s', ¬ s.AboutToCall eventId →
      runSteps Service.step (s.cancel eventId) later = some s' →
      calls (eventsOf eventId s'.log) = calls (eventsOf eventId s.log)) := by
  have hinv := run_inv start_inv hrun
  refine ⟨fun timer htimer => hinv.settles htimer, fun newer entry older hlog => hinv.unused hlog, ?_⟩
  intro eventId later s' hnot hlater
  exact hinv.calls_after_cancel hnot hlater

/-- An interval timer and a one-shot timer. The first is cancelled in its second callback, the second
before it expires. -/
def twoTimers : List Action :=
  [.schedule ⟨10, 5, 1, 2, 3, some 4⟩ 0, .schedule ⟨20, 0, 5, 6, 7, some 8⟩ 0, .pass 12, .callback,
    .resume, .pass 17, .callback, .cancel 1, .resume, .free, .cancel 2, .pass 18, .free]

theorem twoTimers_lifecycle :
    ∃ s, runSteps Service.step .start twoTimers = some s ∧
      s.Settles ⟨1, 10, 0, 5, 1, 2, 3, some 4⟩ ∧ calls (eventsOf 1 s.log) = 2 ∧
      frees (eventsOf 1 s.log) = 1 ∧ s.Settles ⟨2, 20, 0, 0, 5, 6, 7, some 8⟩ ∧
      calls (eventsOf 2 s.log) = 0 ∧ frees (eventsOf 2 s.log) = 1 ∧
      ∀ later s', runSteps Service.step (s.cancel 1) later = some s' → calls (eventsOf 1 s'.log) = 2 := by
  refine ⟨_, rfl, ?_⟩
  have hrun : runSteps Service.step .start twoTimers = some _ := rfl
  obtain ⟨hsettles, -, hcancel⟩ := timer_lifecycle hrun
  refine ⟨hsettles _ (by decide), by decide, by decide, hsettles _ (by decide), by decide, by decide, ?_⟩
  intro later s' hlater
  exact hcancel 1 later s' (by rintro ⟨top, now, hthread, -⟩; cases hthread) hlater

end Emane.Timer
