import Mathlib

set_option autoImplicit false

/-! # A single wakeup

A component keeps the time at which it wants to be woken in one variable, in which `0` says that there
is none, and asks a timer service for a callback that carries the time. An earlier wakeup replaces a
later one, whose callback is still delivered and told apart by its time. The service may refuse a
callback.

`Armed` is what the component relies on: the wakeup it waits for is a callback that will come.
-/

namespace Emane.Lib

structure Wakeup (T : Type*) where
  next : T
  /-- the callbacks that the service has not delivered yet -/
  pending : List T
  deriving DecidableEq

namespace Wakeup

variable {T : Type*} [LinearOrder T] [Zero T]

/-- There is no wakeup. -/
def idle : Wakeup T := ⟨0, []⟩

/-- A wakeup at `time` unless there is one that is not later; `accepted` says whether the service takes
the callback. -/
def schedule (w : Wakeup T) (time : T) (accepted : Bool) : Wakeup T :=
  if w.next ≠ 0 ∧ w.next ≤ time then w
  else ⟨time, if accepted then w.pending ++ [time] else w.pending⟩

/-- A callback is delivered. The result says whether it is the one that the component waits for. -/
def fire (w : Wakeup T) (time : T) : Wakeup T × Bool :=
  if w.next ≠ time then (⟨w.next, w.pending.erase time⟩, false)
  else (⟨0, w.pending.erase time⟩, true)

/-- The wakeup is a callback that will come. -/
def Armed (w : Wakeup T) : Prop := w.next ≠ 0 → w.next ∈ w.pending

omit [LinearOrder T] in
theorem idle_armed : (idle : Wakeup T).Armed := fun h => absurd rfl h

/-- No callback wakes who waits for none. -/
theorem idle_fire (time : T) : ((idle : Wakeup T).fire time).1 = idle := by
  unfold fire
  split <;> rfl

variable {w : Wakeup T} {time : T}

theorem Armed.schedule (h : w.Armed) (time : T) : (w.schedule time true).Armed := by
  unfold Wakeup.schedule
  split
  · exact h
  · intro _
    exact List.mem_append_right _ List.mem_cons_self

/-- After `schedule` there is a wakeup, and not a later one than asked for. -/
theorem schedule_next (w : Wakeup T) (htime : time ≠ 0) (accepted : Bool) :
    (w.schedule time accepted).next ≠ 0 ∧ (w.schedule time accepted).next ≤ time := by
  unfold schedule
  split
  case isTrue h => exact h
  case isFalse => exact ⟨htime, le_rfl⟩

/-- A callback that is out of date leaves the wakeup and its callback. -/
theorem fire_stale (h : (w.fire time).2 = false) :
    (w.fire time).1.next = w.next ∧ (w.Armed → (w.fire time).1.Armed) := by
  unfold fire at *
  split at h
  case isTrue hne =>
    rw [if_pos hne]
    exact ⟨rfl, fun harmed h0 => (List.mem_erase_of_ne hne).mpr (harmed h0)⟩
  case isFalse => cases h

/-- The callback that was waited for leaves no wakeup. -/
theorem fire_due (h : (w.fire time).2 = true) : (w.fire time).1.Armed := by
  unfold fire at *
  split at h
  case isTrue => cases h
  case isFalse hne =>
    rw [if_neg hne]
    exact fun h0 => absurd rfl h0

end Wakeup

end Emane.Lib
