import Mathlib
import Emane.Lib.Run

set_option autoImplicit false

/-! # Users of the event service

A component registers as a user under its build id and then for single events. An event goes to the users
that are registered for it, chosen by NEM and by sender. `EventServiceRegistry` is the state of the
service, `UserOp` what components do with it.

Who gets an event is read off the history alone (`userAfter`, `Subscribed`), and `called_iff` says that
the registry agrees with it after every history.
-/

namespace Emane.EventService

open Emane.Lib

/-! ## The registry -/

structure EventServiceUser where
  buildId : UInt16
  nemId : UInt16
  context : ℕ
  /-- the callback by its address, which users of the old interface do not have -/
  callback : Option ℕ
  deriving DecidableEq

structure EventServiceRegistry where
  users : UInt16 → Option EventServiceUser
  /-- the build ids that are registered for an event, the oldest registration first -/
  registrations : UInt16 → List UInt16

def EventServiceRegistry.empty : EventServiceRegistry := ⟨fun _ => none, fun _ => []⟩

/-- `emane_rs_event_service_register_user` without a callback, `register_native_user` with one. -/
def EventServiceRegistry.registerUser (reg : EventServiceRegistry) (user : EventServiceUser) :
    EventServiceRegistry :=
  { reg with users := Function.update reg.users user.buildId (some user) }

def EventServiceRegistry.unregisterUser (reg : EventServiceRegistry) (buildId : UInt16) :
    EventServiceRegistry :=
  { users := Function.update reg.users buildId none
    registrations := fun eventId => (reg.registrations eventId).filter (· ≠ buildId) }

/-- `emane_rs_event_service_register_event`. The result says whether the user is known. -/
def EventServiceRegistry.registerEvent (reg : EventServiceRegistry) (buildId eventId : UInt16) :
    EventServiceRegistry × Bool :=
  if (reg.users buildId).isSome then
    let buildIds := reg.registrations eventId
    let buildIds := if buildId ∈ buildIds then buildIds else buildIds ++ [buildId]
    ({ reg with registrations := Function.update reg.registrations eventId buildIds }, true)
  else (reg, false)

/-- The users whose callbacks are collected for an event, in the order of their registrations. -/
def EventServiceRegistry.called (reg : EventServiceRegistry) (eventId : UInt16)
    (accepts : UInt16 → EventServiceUser → Bool) : List EventServiceUser :=
  (reg.registrations eventId).filterMap fun buildId =>
    (reg.users buildId).filter fun user => accepts buildId user && user.callback.isSome

/-- The choice of `emane_rs_event_service_route_local_event`. -/
def acceptsLocal (sender nemId buildId : UInt16) (user : EventServiceUser) : Bool :=
  (sender = 0 || buildId ≠ sender) && (nemId = 0 || user.nemId = nemId)

/-- The choice of `emane_rs_event_service_process_event_message`. -/
def acceptsMessage (nemId ignoreNem _buildId : UInt16) (user : EventServiceUser) : Bool :=
  (ignoreNem = 0 || ignoreNem ≠ user.nemId) && (nemId = 0 || user.nemId = nemId)

def EventServiceRegistry.routeLocalEvent (reg : EventServiceRegistry) (sender nemId eventId : UInt16) :
    List EventServiceUser :=
  reg.called eventId (acceptsLocal sender nemId)

def EventServiceRegistry.processEventMessage (reg : EventServiceRegistry)
    (nemId eventId ignoreNem : UInt16) : List EventServiceUser :=
  reg.called eventId (acceptsMessage nemId ignoreNem)

/-! ## Histories -/

/-- What components do with the registry. -/
inductive UserOp
  | registerUser (user : EventServiceUser)
  | unregisterUser (buildId : UInt16)
  | registerEvent (buildId eventId : UInt16)
  deriving DecidableEq

def EventServiceRegistry.apply (reg : EventServiceRegistry) : UserOp → EventServiceRegistry
  | .registerUser user => reg.registerUser user
  | .unregisterUser buildId => reg.unregisterUser buildId
  | .registerEvent buildId eventId => (reg.registerEvent buildId eventId).1

/-- The registry after these operations, in this order. -/
def EventServiceRegistry.after (ops : List UserOp) : EventServiceRegistry :=
  ops.foldl EventServiceRegistry.apply .empty

/-- The user under a build id: the last one that was registered and not unregistered again. Histories
have the newest operation first. -/
def userAfter (buildId : UInt16) : List UserOp → Option EventServiceUser
  | [] => none
  | .registerUser user :: past => if user.buildId = buildId then some user else userAfter buildId past
  | .unregisterUser other :: past => if other = buildId then none else userAfter buildId past
  | .registerEvent .. :: past => userAfter buildId past

/-- The build id was registered for the event while it had a user, and it has not been unregistered
since then. A user that is registered again keeps the events. -/
def Subscribed (buildId eventId : UInt16) : List UserOp → Prop
  | [] => False
  | .registerUser _ :: past => Subscribed buildId eventId past
  | .unregisterUser other :: past => other ≠ buildId ∧ Subscribed buildId eventId past
  | .registerEvent other event :: past =>
      other = buildId ∧ event = eventId ∧ (userAfter buildId past).isSome ∨ Subscribed buildId eventId past

instance Subscribed.decidable (buildId eventId : UInt16) :
    (history : List UserOp) → Decidable (Subscribed buildId eventId history)
  | [] => inferInstanceAs (Decidable False)
  | .registerUser _ :: past => Subscribed.decidable buildId eventId past
  | .unregisterUser other :: past =>
      have := Subscribed.decidable buildId eventId past
      inferInstanceAs (Decidable (other ≠ buildId ∧ Subscribed buildId eventId past))
  | .registerEvent other event :: past =>
      have := Subscribed.decidable buildId eventId past
      inferInstanceAs (Decidable (other = buildId ∧ event = eventId ∧ (userAfter buildId past).isSome ∨
        Subscribed buildId eventId past))

/-- The registry is what the history says. -/
structure EventServiceRegistry.Follows (reg : EventServiceRegistry) (history : List UserOp) : Prop where
  users : ∀ buildId, reg.users buildId = userAfter buildId history
  keyed : ∀ buildId user, reg.users buildId = some user → user.buildId = buildId
  registered : ∀ buildId eventId,
    buildId ∈ reg.registrations eventId ↔ Subscribed buildId eventId history
  /-- only users are registered -/
  known : ∀ buildId eventId, buildId ∈ reg.registrations eventId → (reg.users buildId).isSome
  nodup : ∀ eventId, (reg.registrations eventId).Nodup

theorem follows_empty : EventServiceRegistry.empty.Follows [] where
  users _ := rfl
  keyed _ _ h := by cases h
  registered _ _ := iff_of_false List.not_mem_nil (fun h => h)
  known _ _ h := absurd h List.not_mem_nil
  nodup _ := List.nodup_nil

namespace EventServiceRegistry.Follows

variable {reg : EventServiceRegistry} {history : List UserOp}

theorem registerUser (h : reg.Follows history) (user : EventServiceUser) :
    (reg.registerUser user).Follows (.registerUser user :: history) where
  users buildId := by
    show Function.update reg.users user.buildId (some user) buildId = _
    rw [Function.update_apply, userAfter, h.users]
    simp only [eq_comm]
  keyed buildId other hother := by
    change Function.update reg.users user.buildId (some user) buildId = some other at hother
    rw [Function.update_apply] at hother
    split at hother
    case isTrue heq =>
      cases hother
      exact heq.symm
    case isFalse => exact h.keyed buildId other hother
  registered := h.registered
  known buildId eventId hmem := by
    show (Function.update reg.users user.buildId (some user) buildId).isSome
    rw [Function.update_apply]
    split
    · rfl
    · exact h.known buildId eventId hmem
  nodup := h.nodup

theorem unregisterUser (h : reg.Follows history) (other : UInt16) :
    (reg.unregisterUser other).Follows (.unregisterUser other :: history) where
  users buildId := by
    show Function.update reg.users other none buildId = _
    rw [Function.update_apply, userAfter, h.users]
    simp only [eq_comm]
  keyed buildId user huser := by
    change Function.update reg.users other none buildId = some user at huser
    rw [Function.update_apply] at huser
    split at huser
    · cases huser
    · exact h.keyed buildId user huser
  registered buildId eventId := by
    show buildId ∈ (reg.registrations eventId).filter (· ≠ other) ↔ _ ∧ _
    rw [List.mem_filter, h.registered, decide_eq_true_eq, and_comm, ne_comm]
  known buildId eventId hmem := by
    change buildId ∈ (reg.registrations eventId).filter (· ≠ other) at hmem
    obtain ⟨hmem, hne⟩ := List.mem_filter.mp hmem
    show (Function.update reg.users other none buildId).isSome
    rw [Function.update_of_ne (of_decide_eq_true hne)]
    exact h.known buildId eventId hmem
  nodup eventId := (h.nodup eventId).filter _

theorem registerEvent (h : reg.Follows history) (other event : UInt16) :
    (reg.registerEvent other event).1.Follows (.registerEvent other event :: history) := by
  unfold EventServiceRegistry.registerEvent
  split
  case isFalse hunknown =>
    refine ⟨h.users, h.keyed, fun buildId eventId => ?_, h.known, h.nodup⟩
    show _ ↔ _ ∧ _ ∧ _ ∨ _
    rw [h.registered, or_iff_right]
    rintro ⟨rfl, -, hsome⟩
    exact hunknown (h.users other ▸ hsome)
  case isTrue hknown =>
    -- the new build id is in the list of its event, the other lists are as before
    have hmem : ∀ buildId eventId,
        buildId ∈ Function.update reg.registrations event
          (if other ∈ reg.registrations event then reg.registrations event
            else reg.registrations event ++ [other]) eventId ↔
        other = buildId ∧ event = eventId ∨ buildId ∈ reg.registrations eventId := by
      intro buildId eventId
      rw [Function.update_apply]
      by_cases heq : eventId = event
      · subst heq
        rw [if_pos rfl]
        split <;> grind
      · simp [heq, Ne.symm heq]
    refine ⟨h.users, h.keyed, fun buildId eventId => ?_, fun buildId eventId hreg => ?_, fun eventId => ?_⟩
    · show _ ↔ _ ∧ _ ∧ _ ∨ _
      rw [hmem, h.registered]
      refine or_congr_left (and_congr_right fun heq => ?_)
      subst heq
      rw [← h.users, and_iff_left hknown]
    · rcases (hmem buildId eventId).mp hreg with ⟨rfl, -⟩ | hold
      · exact hknown
      · exact h.known buildId eventId hold
    · show (Function.update reg.registrations event _ eventId).Nodup
      rw [Function.update_apply]
      split
      case isTrue heq =>
        split
        case isTrue => exact h.nodup event
        case isFalse hfresh => exact (h.nodup event).append (List.nodup_singleton other) (by simpa using hfresh)
      case isFalse => exact h.nodup eventId

theorem apply (h : reg.Follows history) (op : UserOp) : (reg.apply op).Follows (op :: history) := by
  cases op with
  | registerUser user => exact h.registerUser user
  | unregisterUser buildId => exact h.unregisterUser buildId
  | registerEvent buildId eventId => exact h.registerEvent buildId eventId

/-- Who is called, by the history. -/
theorem mem_called (h : reg.Follows history) {eventId : UInt16} {accepts : UInt16 → EventServiceUser → Bool}
    {user : EventServiceUser} :
    user ∈ reg.called eventId accepts ↔ Subscribed user.buildId eventId history ∧
      userAfter user.buildId history = some user ∧ accepts user.buildId user ∧ user.callback.isSome := by
  rw [EventServiceRegistry.called, List.mem_filterMap]
  constructor
  · rintro ⟨buildId, hmem, hfilter⟩
    obtain ⟨huser, haccepts⟩ := Option.filter_eq_some_iff.mp hfilter
    obtain rfl := h.keyed buildId user huser
    rw [Bool.and_eq_true] at haccepts
    exact ⟨(h.registered _ _).mp hmem, h.users _ ▸ huser, haccepts⟩
  · rintro ⟨hsubscribed, huser, haccepts⟩
    refine ⟨user.buildId, (h.registered _ _).mpr hsubscribed, Option.filter_eq_some_iff.mpr ⟨?_, ?_⟩⟩
    · rw [h.users, huser]
    · rwa [Bool.and_eq_true]

/-- Nobody is called twice. -/
theorem nodup_called (h : reg.Follows history) (eventId : UInt16)
    (accepts : UInt16 → EventServiceUser → Bool) :
    ((reg.called eventId accepts).map EventServiceUser.buildId).Nodup := by
  have hsub : ∀ buildIds : List UInt16, ((buildIds.filterMap fun buildId =>
      (reg.users buildId).filter fun user => accepts buildId user && user.callback.isSome).map
        EventServiceUser.buildId).Sublist buildIds := by
    intro buildIds
    induction buildIds with
    | nil => exact List.Sublist.refl _
    | cons buildId buildIds ih =>
        cases hfilter : (reg.users buildId).filter fun user =>
            accepts buildId user && user.callback.isSome with
        | none =>
            simp only [List.filterMap_cons, hfilter]
            exact ih.cons buildId
        | some user =>
            obtain ⟨huser, -⟩ := Option.filter_eq_some_iff.mp hfilter
            simp only [List.filterMap_cons, hfilter, List.map_cons, h.keyed buildId user huser]
            exact ih.cons_cons buildId
  exact (h.nodup eventId).sublist (hsub _)

end EventServiceRegistry.Follows

/-- The registry follows every history. -/
theorem follows_after (ops : List UserOp) : (EventServiceRegistry.after ops).Follows ops.reverse := by
  have hstep : ∀ (ops : List UserOp) (reg : EventServiceRegistry) (past : List UserOp), reg.Follows past →
      (ops.foldl EventServiceRegistry.apply reg).Follows (ops.reverse ++ past) := by
    intro ops
    induction ops with
    | nil => exact fun _ _ h => h
    | cons op ops ih =>
        intro reg past h
        rw [List.foldl_cons, List.reverse_cons, List.append_assoc, List.singleton_append]
        exact ih _ _ (h.apply op)
  simpa [EventServiceRegistry.after] using hstep ops _ _ follows_empty

/-- **Who is called for an event**, after any history of the registry: those users with a callback that
were registered for it while they were known and have not been unregistered since, each once. -/
theorem called_iff (ops : List UserOp) (eventId : UInt16) (accepts : UInt16 → EventServiceUser → Bool) :
    (((EventServiceRegistry.after ops).called eventId accepts).map EventServiceUser.buildId).Nodup ∧
      ∀ user, user ∈ (EventServiceRegistry.after ops).called eventId accepts ↔
        Subscribed user.buildId eventId ops.reverse ∧ userAfter user.buildId ops.reverse = some user ∧
          accepts user.buildId user ∧ user.callback.isSome := by
  have hfollows := follows_after ops
  exact ⟨hfollows.nodup_called eventId accepts, fun _ => hfollows.mem_called⟩

/-- A user that is registered again keeps its events, and loses them when it is unregistered. -/
example :
    let user : EventServiceUser := ⟨7, 3, 1, some 2⟩
    let again : EventServiceUser := ⟨7, 3, 9, some 2⟩
    let ops : List UserOp := [.registerUser user, .registerEvent 7 100, .registerUser again]
    (EventServiceRegistry.after ops).routeLocalEvent 0 3 100 = [again] ∧
      (EventServiceRegistry.after (ops ++ [.unregisterUser 7, .registerUser user])).routeLocalEvent 0 3 100 =
        [] := by
  decide

end Emane.EventService
