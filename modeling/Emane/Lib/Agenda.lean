import Mathlib

set_option autoImplicit false

/-! # Wakeups

A component keeps for each of its parts the time at which it wants to be woken (`due`) and asks a
timer service for a callback; `pending` are the callbacks the service has not delivered yet. A
callback is never taken back when an earlier one replaces it, so that callbacks that come out of date
are delivered too and have to be told apart by their time.

`Live` is what the component relies on: a wakeup in the table is a callback that will come.
-/

namespace Emane.Lib

structure Agenda (K T : Type*) where
  due : K → Option T
  pending : List (K × T)

namespace Agenda

variable {K T : Type*}

/-- Nothing is due. -/
def idle : Agenda K T := ⟨fun _ => none, []⟩

section

variable [DecidableEq K] [LinearOrder T]

/-- A wakeup of `k` at `t`, unless there is one that is not later. -/
def schedule (a : Agenda K T) (k : K) (t : T) : Agenda K T :=
  if (a.due k).any (· ≤ t) then a
  else ⟨Function.update a.due k (some t), a.pending ++ [(k, t)]⟩

/-- A callback is delivered; the result says whether it is the one that is due. -/
def fire (a : Agenda K T) (k : K) (t : T) : Agenda K T × Bool :=
  let pending := a.pending.erase (k, t)
  if a.due k = some t then (⟨Function.update a.due k none, pending⟩, true)
  else (⟨a.due, pending⟩, false)

/-- Every wakeup of the table is a callback that will come. -/
def Live (a : Agenda K T) : Prop := ∀ k t, a.due k = some t → (k, t) ∈ a.pending

variable {a : Agenda K T} {k : K} {t : T}

/-- What `schedule` does: it keeps a wakeup that is not later, or it enters the new one. -/
theorem schedule_cases (a : Agenda K T) (k : K) (t : T) :
    (a.schedule k t = a ∧ ∃ w ≤ t, a.due k = some w) ∨
      ((a.schedule k t).due = Function.update a.due k (some t) ∧
        (a.schedule k t).pending = a.pending ++ [(k, t)]) := by
  unfold schedule
  split
  case isTrue h =>
    obtain ⟨w, hw, hle⟩ := Option.any_eq_true _ _ |>.mp h
    exact .inl ⟨rfl, w, of_decide_eq_true hle, hw⟩
  case isFalse => exact .inr ⟨rfl, rfl⟩

/-- What is due after `schedule`: what was due before, or the new wakeup. -/
theorem due_schedule_cases {k' : K} {w : T} (h : (a.schedule k t).due k' = some w) :
    a.due k' = some w ∨ (k' = k ∧ w = t) := by
  obtain ⟨hsame, _⟩ | ⟨hdue, _⟩ := schedule_cases a k t
  · rw [hsame] at h
    exact .inl h
  · rw [hdue] at h
    by_cases hk : k' = k
    · subst hk
      rw [Function.update_self] at h
      exact .inr ⟨rfl, (Option.some.inj h).symm⟩
    · rw [Function.update_of_ne hk] at h
      exact .inl h

/-- After `schedule` there is a wakeup, and not a later one than asked for. -/
theorem exists_due_schedule (a : Agenda K T) (k : K) (t : T) :
    ∃ w ≤ t, (a.schedule k t).due k = some w := by
  obtain ⟨hsame, hw⟩ | ⟨hdue, _⟩ := schedule_cases a k t
  · rwa [hsame]
  · exact ⟨t, le_rfl, by rw [hdue, Function.update_self]⟩

/-- No wakeup is lost. -/
theorem due_schedule_ne_none {k' : K} (h : a.due k' ≠ none) : (a.schedule k t).due k' ≠ none := by
  by_cases hk : k' = k
  · obtain ⟨w, _, hw⟩ := exists_due_schedule a k t
    rw [hk, hw]
    exact Option.some_ne_none w
  · obtain ⟨hsame, _⟩ | ⟨hdue, _⟩ := schedule_cases a k t
    · rwa [hsame]
    · rwa [hdue, Function.update_of_ne hk]

theorem Live.schedule (h : a.Live) (k : K) (t : T) : (a.schedule k t).Live := by
  intro k' w hw
  obtain ⟨hsame, _⟩ | ⟨_, hpending⟩ := schedule_cases a k t
  · rw [hsame] at hw ⊢
    exact h k' w hw
  · rw [hpending]
    obtain hold | ⟨rfl, rfl⟩ := due_schedule_cases hw
    · exact List.mem_append_left _ (h k' w hold)
    · exact List.mem_append_right _ List.mem_cons_self

/-- A callback that is not the one due changes no wakeup. -/
theorem fire_of_ne (h : a.due k ≠ some t) : (a.fire k t).1.due = a.due ∧ (a.fire k t).2 = false := by
  simp [fire, h]

theorem fire_of_eq (h : a.due k = some t) :
    (a.fire k t).1.due = Function.update a.due k none ∧ (a.fire k t).2 = true := by
  simp [fire, h]

theorem due_fire_of_ne {k' : K} (h : k' ≠ k) : (a.fire k t).1.due k' = a.due k' := by
  unfold fire
  split
  · exact Function.update_of_ne h ..
  · rfl

/-- Only the wakeup that is due is taken from the table. -/
theorem due_of_due_fire {k' : K} {w : T} (h : (a.fire k t).1.due k' = some w) :
    a.due k' = some w ∧ (k', w) ≠ (k, t) := by
  by_cases hdue : a.due k = some t
  · rw [(fire_of_eq hdue).1] at h
    by_cases hk : k' = k
    · subst hk
      rw [Function.update_self] at h
      cases h
    · rw [Function.update_of_ne hk] at h
      exact ⟨h, fun heq => hk (Prod.mk.inj heq).1⟩
  · rw [(fire_of_ne hdue).1] at h
    refine ⟨h, fun heq => hdue ?_⟩
    obtain ⟨rfl, rfl⟩ := Prod.mk.inj heq
    exact h

theorem pending_fire (a : Agenda K T) (k : K) (t : T) :
    (a.fire k t).1.pending = a.pending.erase (k, t) := by
  unfold fire
  split <;> rfl

theorem Live.fire (h : a.Live) (k : K) (t : T) : (a.fire k t).1.Live := by
  intro k' w hw
  obtain ⟨hdue, hne⟩ := due_of_due_fire hw
  rw [pending_fire]
  exact (List.mem_erase_of_ne hne).mpr (h k' w hdue)

end

end Agenda

end Emane.Lib
