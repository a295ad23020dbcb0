import Mathlib
import Emane.Configuration.Registry
import Emane.Lib.Run

set_option autoImplicit false

/-! # Registering components

`register` stores the new entry with `insert` and learns from its result that there was one before. By
then the old entry is gone, with its values, its handler and its update lock, and the error comes too
late. Updates that are on their way hold the old lock, so they no longer keep out those that find the
new entry.

So a registration that returns an error never leaves the registry as it was, and in every run in which
each registration finds its build id free, of an entry and of updates on their way, all calls reach the
component registered first and the updates of a build id are executed one at a time
(`registration_intact`).
-/

namespace Emane.Registration

open Emane.Lib Std

open Emane.Configuration (ConfigurationValue ConfigurationUpdate ComponentConfiguration Values)

/-! ## Entries -/

section

variable (infer : String → ConfigurationValue)
variable (parseAs : ConfigurationValue → String → Option ConfigurationValue)

/-- What a component is registered with: the arguments of `register` and `register_with_defaults`. -/
inductive Arguments
  | register (initial : List (String × List String))
  | registerWithDefaults (defaults : ConfigurationUpdate) (initial : List (String × List String))
      (modifiable : List String)

/-- The values of a parameter that was supplied, of the type of its default if it can be read so. -/
def parse (values : Values) (name : String) (supplied : List String) : List ConfigurationValue :=
  match values[name]?.bind List.head? with
  | some prototype => supplied.map fun value => (parseAs prototype value).getD (infer value)
  | none => supplied.map infer

def Arguments.configuration : Arguments → ComponentConfiguration
  | .register initial => {
      values := ExtTreeMap.ofList (initial.map fun (name, values) => (name, values.map infer))
      modifiable := (initial.map Prod.fst).toFinset }
  | .registerWithDefaults defaults initial modifiable => {
      values := initial.foldl
        (fun values (name, supplied) => values.insert name (parse infer parseAs values name supplied))
        (ExtTreeMap.ofList defaults)
      modifiable := modifiable.toFinset }

end

/-- `ComponentConfiguration`, with the component its handler calls and the number of its update lock. -/
structure Entry where
  configuration : ComponentConfiguration
  handler : ℕ
  updateLock : ℕ

/-! ## Calls -/

/-- How far a call of `update` is; from the lookup on it has the lock of the entry it found. -/
inductive Phase
  | called
  | waiting (lock : ℕ)
  | locked (lock : ℕ)
  | checked (lock : ℕ) (handler : ℕ) (rollback : ConfigurationUpdate)
  | rejected (lock : ℕ) (handler : ℕ) (rollback : ConfigurationUpdate) (error : String)
  | applied (lock : ℕ)
  | returned (result : Except String Unit)

/-- The lock of a call on its way. -/
def Phase.lock : Phase → Option ℕ
  | .waiting lock => some lock
  | .locked lock => some lock
  | .checked lock _ _ => some lock
  | .rejected lock _ _ _ => some lock
  | .applied lock => some lock
  | _ => none

/-- The lock that the call has taken. -/
def Phase.held : Phase → Option ℕ
  | .locked lock => some lock
  | .checked lock _ _ => some lock
  | .rejected lock _ _ _ => some lock
  | .applied lock => some lock
  | _ => none

structure Call where
  buildId : UInt16
  updates : ConfigurationUpdate
  phase : Phase

/-- The registry, the holders of the update locks, the number for the next lock, and the calls. -/
structure State where
  registry : UInt16 → Option Entry
  holders : ℕ → Option ℕ
  nextLock : ℕ
  calls : ℕ → Option Call

def State.empty : State := ⟨fun _ => none, fun _ => none, 0, fun _ => none⟩

/-- The steps of a call. What the handler returns is left open. -/
inductive Move
  | lookup
  | lock
  | check
  | handler (outcome : Except String Unit)
  | rollback (outcome : Except String Unit)
  | commit

inductive Action
  | register (buildId : UInt16) (arguments : Arguments) (handler : ℕ)
  | unregister (buildId : UInt16)
  | query (buildId : UInt16) (names : List String)
  /-- a caller calls `update` -/
  | update (caller : ℕ) (buildId : UInt16) (updates : ConfigurationUpdate)
  | move (caller : ℕ) (move : Move)

def unknown (buildId : UInt16) : String := "unknown configuration build id " ++ toString buildId

def State.setPhase (s : State) (caller : ℕ) (call : Call) (phase : Phase) : State :=
  { s with calls := Function.update s.calls caller (some { call with phase }) }

/-- A call that has the lock returns and gives it up. -/
def State.return (s : State) (caller : ℕ) (call : Call) (lock : ℕ) (result : Except String Unit) :
    State :=
  State.setPhase { s with holders := Function.update s.holders lock none } caller call (.returned result)

/-- One step of a call, `none` if it cannot be taken. -/
def State.move (s : State) (caller : ℕ) (call : Call) (move : Move) : Option State :=
  match move, call.phase with
  | .lookup, .called =>
      match s.registry call.buildId with
      | none => some (s.setPhase caller call (.returned (.error (unknown call.buildId))))
      | some entry => some (s.setPhase caller call (.waiting entry.updateLock))
  | .lock, .waiting lock =>
      if (s.holders lock).isSome then none
      else some (State.setPhase { s with holders := Function.update s.holders lock (some caller) } caller
        call (.locked lock))
  | .check, .locked lock =>
      match s.registry call.buildId with
      | none => some (s.return caller call lock (.error (unknown call.buildId)))
      | some entry =>
          match Configuration.check entry.configuration call.updates with
          | .error error => some (s.return caller call lock (.error error))
          | .ok rollback => some (s.setPhase caller call (.checked lock entry.handler rollback))
  | .handler outcome, .checked lock handler rollback =>
      match outcome with
      | .ok _ => some (s.setPhase caller call (.applied lock))
      | .error error => some (s.setPhase caller call (.rejected lock handler rollback error))
  | .rollback outcome, .rejected lock _ _ error =>
      match outcome with
      | .ok _ => some (s.return caller call lock (.error error))
      | .error rollbackError => some (s.return caller call lock
          (.error (error ++ "; failed to restore the previous configuration: " ++ rollbackError)))
  | .commit, .applied lock =>
      match s.registry call.buildId with
      | none => some (s.return caller call lock (.error
          ("configuration build id " ++ toString call.buildId ++ " was removed during update")))
      | some entry =>
          let values := entry.configuration.values.insertMany call.updates
          let entry := { entry with configuration := { entry.configuration with values } }
          some (State.return { s with registry := Function.update s.registry call.buildId (some entry) }
            caller call lock (.ok ()))
  | _, _ => none

section

variable (infer : String → ConfigurationValue)
variable (parseAs : ConfigurationValue → String → Option ConfigurationValue)

/-- `register` and `register_with_defaults`; each entry gets a lock of its own. -/
def State.register (s : State) (buildId : UInt16) (arguments : Arguments) (handler : ℕ) :
    State × Except String Unit :=
  let entry : Entry := ⟨arguments.configuration infer parseAs, handler, s.nextLock⟩
  ({ s with registry := Function.update s.registry buildId (some entry), nextLock := s.nextLock + 1 },
    -- what `insert` returns: the entry that was there
    if (s.registry buildId).isSome then
      .error ("configuration build id " ++ toString buildId ++ " is already registered")
    else .ok ())

/-- One step, `none` if it cannot be taken. -/
def State.step (s : State) : Action → Option State
  | .register buildId arguments handler => some (s.register infer parseAs buildId arguments handler).1
  | .unregister buildId => some { s with registry := Function.update s.registry buildId none }
  | .query _ _ => some s
  | .update caller buildId updates =>
      match s.calls caller with
      | none => some (s.setPhase caller ⟨buildId, updates, .called⟩ .called)
      | some _ => none
  | .move caller move =>
      match s.calls caller with
      | none => none
      | some call => s.move caller call move

/-- What an entry keeps from its registration: the component and the parameters that may be updated. -/
def Entry.identity (entry : Entry) : ℕ × Finset String := (entry.handler, entry.configuration.modifiable)

/-- The identities of the components that are registered, a component that is registered twice being the
first one. -/
def owners (before : UInt16 → Option (ℕ × Finset String)) : Action → UInt16 → Option (ℕ × Finset String)
  | .register buildId arguments handler =>
      Function.update before buildId
        ((before buildId).or (some (handler, (arguments.configuration infer parseAs).modifiable)))
  | .unregister buildId => Function.update before buildId none
  | _ => before

/-- The components registered first in the actions of a run. -/
def registeredFirst (actions : List Action) : UInt16 → Option (ℕ × Finset String) :=
  actions.foldl (owners infer parseAs) fun _ => none

end

/-- A registration that returns an error leaves every entry as it was. -/
def State.KeptOnError (before : State) (registered : State × Except String Unit) : Prop :=
  ∀ error, registered.2 = .error error → registered.1.registry = before.registry

/-- No two updates of a build id are executed at the same time. -/
def State.Serialized (s : State) : Prop :=
  ∀ caller₁ caller₂ call₁ call₂, s.calls caller₁ = some call₁ → s.calls caller₂ = some call₂ →
    call₁.buildId = call₂.buildId → call₁.phase.held.isSome → call₂.phase.held.isSome →
    caller₁ = caller₂

/-- A build id that is registered has no entry, and no update is on its way with the lock of an earlier
one. -/
def Action.FindsFree (s : State) : Action → Prop
  | .register buildId _ _ => s.registry buildId = none ∧
      ∀ caller call, s.calls caller = some call → call.buildId = buildId → call.phase.lock = none
  | _ => True

/-! ## What a step of a call can do -/

/-- A call goes on to `phase`: it may change the values of entries and the holders of its lock. -/
structure GoesOn (s : State) (caller : ℕ) (call : Call) (phase : Phase) (s' : State) : Prop where
  calls : s'.calls = Function.update s.calls caller (some { call with phase })
  nextLock : s'.nextLock = s.nextLock
  entry : ∀ buildId, (s'.registry buildId).map (fun entry => (entry.identity, entry.updateLock)) =
    (s.registry buildId).map fun entry => (entry.identity, entry.updateLock)
  lock : ∀ lock, phase.lock = some lock → call.phase.lock = some lock ∨
    ∃ entry, s.registry call.buildId = some entry ∧ entry.updateLock = lock
  held : ∀ lock, phase.held = some lock → s'.holders lock = some caller
  others : ∀ lock other, other ≠ caller → s.holders lock = some other → s'.holders lock = some other

theorem goesOn_return {s : State} {caller : ℕ} {call : Call} {lock : ℕ}
    {registry : UInt16 → Option Entry}
    (hregistry : ∀ buildId, (registry buildId).map (fun entry => (entry.identity, entry.updateLock)) =
      (s.registry buildId).map fun entry => (entry.identity, entry.updateLock))
    (hholder : s.holders lock = some caller) (result : Except String Unit) :
    GoesOn s caller call (.returned result)
      (State.return { s with registry } caller call lock result) where
  calls := rfl
  nextLock := rfl
  entry := hregistry
  lock := fun lock h => nomatch h
  held := fun lock h => nomatch h
  others := by
    intro lock' other hother hholds
    have hne : lock' ≠ lock := by
      rintro rfl
      rw [hholder, Option.some.injEq] at hholds
      exact hother hholds.symm
    show Function.update s.holders lock none lock' = some other
    rw [Function.update_of_ne hne, hholds]

theorem goesOn_setPhase {s : State} {caller : ℕ} {call : Call} {phase : Phase}
    (hlock : ∀ lock, phase.lock = some lock → call.phase.lock = some lock ∨
      ∃ entry, s.registry call.buildId = some entry ∧ entry.updateLock = lock)
    (hheld : ∀ lock, phase.held = some lock → s.holders lock = some caller) :
    GoesOn s caller call phase (s.setPhase caller call phase) :=
  ⟨rfl, rfl, fun _ => rfl, hlock, hheld, fun _ _ _ h => h⟩

/-- **The steps of a call**, which has the locks it holds. -/
theorem move_goesOn {s s' : State} {caller : ℕ} {call : Call} {move : Move}
    (hheld : ∀ lock, call.phase.held = some lock → s.holders lock = some caller)
    (h : s.move caller call move = some s') : ∃ phase, GoesOn s caller call phase s' := by
  have hreturn (lock : ℕ) (hlock : call.phase.held = some lock) (result : Except String Unit) :
      GoesOn s caller call (.returned result) (s.return caller call lock result) :=
    goesOn_return (fun _ => rfl) (hheld lock hlock) result
  have hstay (lock : ℕ) {phase : Phase} (hlock : call.phase.held = some lock)
      (hsame : call.phase.lock = some lock) (hphase : phase.lock = some lock)
      (hphase' : phase.held = some lock) : GoesOn s caller call phase (s.setPhase caller call phase) := by
    refine goesOn_setPhase (fun l hl => ?_) (fun l hl => ?_)
    · rw [← hl, hphase, hsame]
      exact Or.inl rfl
    · rw [hphase', Option.some.injEq] at hl
      exact hl ▸ hheld lock hlock
  unfold State.move at h
  split at h
  · next hphase =>
      split at h
      · cases h
        exact ⟨_, goesOn_setPhase (fun _ h => nomatch h) (fun _ h => nomatch h)⟩
      · next entry hentry =>
          cases h
          refine ⟨_, goesOn_setPhase (fun lock h => Or.inr ⟨entry, hentry, Option.some.inj h⟩)
            (fun _ h => nomatch h)⟩
  · next lock hphase =>
      split at h
      · cases h
      · next hfree =>
          cases h
          refine ⟨.locked lock, rfl, rfl, fun _ => rfl, fun l hl => ?_, fun l hl => ?_,
            fun l other _ hl => ?_⟩
          · rw [hphase]
            exact Or.inl hl
          · cases hl
            exact Function.update_self ..
          · have hne : l ≠ lock := by
              rintro rfl
              rw [hl] at hfree
              exact hfree rfl
            show Function.update s.holders lock (some caller) l = some other
            rw [Function.update_of_ne hne, hl]
  · next lock hphase =>
      split at h
      · cases h
        exact ⟨_, hreturn lock (by rw [hphase]; rfl) _⟩
      · next entry hentry =>
          split at h
          · cases h
            exact ⟨_, hreturn lock (by rw [hphase]; rfl) _⟩
          · cases h
            exact ⟨_, hstay lock (by rw [hphase]; rfl) (by rw [hphase]; rfl) rfl rfl⟩
  · next lock handler rollback hphase =>
      split at h
      all_goals
        cases h
        exact ⟨_, hstay lock (by rw [hphase]; rfl) (by rw [hphase]; rfl) rfl rfl⟩
  · next lock handler rollback error hphase =>
      split at h
      all_goals
        cases h
        exact ⟨_, hreturn lock (by rw [hphase]; rfl) _⟩
  · next lock hphase =>
      split at h
      · cases h
        exact ⟨_, hreturn lock (by rw [hphase]; rfl) _⟩
      · next entry hentry =>
          cases h
          refine ⟨_, goesOn_return (fun buildId => ?_) (hheld lock (by rw [hphase]; rfl)) _⟩
          by_cases hid : buildId = call.buildId
          · subst hid
            rw [Function.update_self, hentry]
            rfl
          · rw [Function.update_of_ne hid]
  · cases h

/-! ## The invariants -/

/-- The locks of the entries have been given out. -/
def State.Numbered (s : State) : Prop :=
  ∀ buildId entry, s.registry buildId = some entry → entry.updateLock < s.nextLock

/-- A call that is executed holds its lock. -/
def State.Locked (s : State) : Prop :=
  ∀ caller call lock, s.calls caller = some call → call.phase.held = some lock →
    s.holders lock = some caller

/-- The calls on their way with a build id have the lock of its entry, if it has one, and in any case the
same one. -/
structure State.Together (s : State) : Prop where
  entry : ∀ caller call lock entry, s.calls caller = some call → call.phase.lock = some lock →
    s.registry call.buildId = some entry → entry.updateLock = lock
  same : ∀ caller₁ caller₂ call₁ call₂ lock₁ lock₂, s.calls caller₁ = some call₁ →
    s.calls caller₂ = some call₂ → call₁.buildId = call₂.buildId → call₁.phase.lock = some lock₁ →
    call₂.phase.lock = some lock₂ → lock₁ = lock₂

/-- A lock that is held is the lock of the call. -/
theorem Phase.lock_of_held {phase : Phase} {lock : ℕ} (h : phase.held = some lock) :
    phase.lock = some lock := by
  cases phase with
  | called | waiting | returned => cases h
  | locked | checked | rejected | applied => exact h

theorem State.Together.serialized {s : State} (h : s.Together) (hlocked : s.Locked) : s.Serialized := by
  intro caller₁ caller₂ call₁ call₂ h₁ h₂ hid held₁ held₂
  obtain ⟨lock₁, hlock₁⟩ := Option.isSome_iff_exists.mp held₁
  obtain ⟨lock₂, hlock₂⟩ := Option.isSome_iff_exists.mp held₂
  have heq := h.same caller₁ caller₂ call₁ call₂ lock₁ lock₂ h₁ h₂ hid (Phase.lock_of_held hlock₁)
    (Phase.lock_of_held hlock₂)
  have hholder₁ := hlocked caller₁ call₁ lock₁ h₁ hlock₁
  have hholder₂ := hlocked caller₂ call₂ lock₂ h₂ hlock₂
  rw [heq, hholder₂, Option.some.injEq] at hholder₁
  exact hholder₁.symm

section

variable {s s' : State} {caller : ℕ} {call : Call} {phase : Phase}

/-- The calls after a step of one of them. -/
theorem GoesOn.call_cases (h : GoesOn s caller call phase s') {caller₁ : ℕ} {call₁ : Call}
    (h₁ : s'.calls caller₁ = some call₁) :
    caller₁ = caller ∧ call₁ = { call with phase } ∨ caller₁ ≠ caller ∧ s.calls caller₁ = some call₁ := by
  rw [h.calls] at h₁
  by_cases hid : caller₁ = caller
  · subst hid
    rw [Function.update_self, Option.some.injEq] at h₁
    exact Or.inl ⟨rfl, h₁.symm⟩
  · rw [Function.update_of_ne hid] at h₁
    exact Or.inr ⟨hid, h₁⟩

/-- The entries of a state that only differs in values. -/
theorem GoesOn.entry_lock (h : GoesOn s caller call phase s') {buildId : UInt16} {entry : Entry}
    (hentry : s'.registry buildId = some entry) :
    ∃ old, s.registry buildId = some old ∧ old.updateLock = entry.updateLock := by
  have heq := h.entry buildId
  rw [hentry] at heq
  cases hold : s.registry buildId with
  | none =>
      rw [hold] at heq
      cases heq
  | some old =>
      rw [hold, Option.map_some, Option.map_some, Option.some.injEq, Prod.mk.injEq] at heq
      exact ⟨old, rfl, heq.2.symm⟩

theorem GoesOn.numbered (h : GoesOn s caller call phase s') (hs : s.Numbered) : s'.Numbered := by
  intro buildId entry hentry
  obtain ⟨old, hold, hlock⟩ := h.entry_lock hentry
  rw [← hlock, h.nextLock]
  exact hs buildId old hold

theorem GoesOn.locked (h : GoesOn s caller call phase s') (hs : s.Locked) : s'.Locked := by
  intro caller₁ call₁ lock h₁ hheld
  rcases h.call_cases h₁ with ⟨rfl, rfl⟩ | ⟨hne, hold⟩
  · exact h.held lock hheld
  · exact h.others lock caller₁ hne (hs caller₁ call₁ lock hold hheld)

/-- **A step of a call** keeps the calls of its build id together. -/
theorem GoesOn.together (h : GoesOn s caller call phase s')
    (hcall : ∀ lock, call.phase.lock = some lock → s.calls caller = some call) (hs : s.Together) :
    s'.Together := by
  -- the lock of the call that goes on is the one of the entry and of the other calls
  have hentry (lock : ℕ) (hlock : phase.lock = some lock) (entry : Entry)
      (hentry : s.registry call.buildId = some entry) : entry.updateLock = lock := by
    rcases h.lock lock hlock with hold | ⟨entry', hentry', rfl⟩
    · exact hs.entry caller call lock entry (hcall lock hold) hold hentry
    · rw [hentry, Option.some.injEq] at hentry'
      rw [hentry']
  have hother (lock : ℕ) (hlock : phase.lock = some lock) (caller₁ : ℕ) (call₁ : Call) (lock₁ : ℕ)
      (h₁ : s.calls caller₁ = some call₁) (hid : call₁.buildId = call.buildId)
      (hlock₁ : call₁.phase.lock = some lock₁) : lock₁ = lock := by
    rcases h.lock lock hlock with hold | ⟨entry, hentry, rfl⟩
    · exact hs.same caller₁ caller call₁ call lock₁ lock h₁ (hcall lock hold) hid hlock₁ hold
    · exact (hs.entry caller₁ call₁ lock₁ entry h₁ hlock₁ (hid ▸ hentry)).symm
  refine ⟨?_, ?_⟩
  · intro caller₁ call₁ lock entry h₁ hlock hregistry
    obtain ⟨old, hold, hsame⟩ := h.entry_lock hregistry
    rw [← hsame]
    rcases h.call_cases h₁ with ⟨rfl, rfl⟩ | ⟨-, hcall₁⟩
    · exact hentry lock hlock old hold
    · exact hs.entry caller₁ call₁ lock old hcall₁ hlock hold
  · intro caller₁ caller₂ call₁ call₂ lock₁ lock₂ h₁ h₂ hid hlock₁ hlock₂
    rcases h.call_cases h₁ with ⟨rfl, rfl⟩ | ⟨-, hcall₁⟩ <;>
      rcases h.call_cases h₂ with ⟨rfl, rfl⟩ | ⟨-, hcall₂⟩
    · exact Option.some.inj (hlock₁.symm.trans hlock₂)
    · exact (hother lock₁ hlock₁ caller₂ call₂ lock₂ hcall₂ hid.symm hlock₂).symm
    · exact hother lock₂ hlock₂ caller₁ call₁ lock₁ hcall₁ hid hlock₁
    · exact hs.same caller₁ caller₂ call₁ call₂ lock₁ lock₂ hcall₁ hcall₂ hid hlock₁ hlock₂

end

/-! ## Whole runs -/

section

variable {infer : String → ConfigurationValue}
variable {parseAs : ConfigurationValue → String → Option ConfigurationValue} {s s' : State}

/-- What an action does: a call goes on, or the registry changes. -/
theorem step_cases {action : Action} (hlocked : s.Locked)
    (h : s.step infer parseAs action = some s') :
    (∃ buildId arguments handler, action = .register buildId arguments handler ∧
      s' = (s.register infer parseAs buildId arguments handler).1) ∨
    (∃ buildId, action = .unregister buildId ∧
      s' = { s with registry := Function.update s.registry buildId none }) ∨
    (fun first => owners infer parseAs first action) = id ∧ (s' = s ∨ ∃ caller call phase,
      GoesOn s caller call phase s' ∧
        ∀ lock, call.phase.lock = some lock → s.calls caller = some call) := by
  cases action with
  | register buildId arguments handler =>
      exact Or.inl ⟨buildId, arguments, handler, rfl, (Option.some.inj h).symm⟩
  | unregister buildId => exact Or.inr (Or.inl ⟨buildId, rfl, (Option.some.inj h).symm⟩)
  | query buildId names => exact Or.inr (Or.inr ⟨rfl, Or.inl (Option.some.inj h).symm⟩)
  | update caller buildId updates =>
      refine Or.inr (Or.inr ⟨rfl, Or.inr ⟨caller, ⟨buildId, updates, .called⟩, .called, ?_⟩⟩)
      simp only [State.step] at h
      split at h
      · cases h
        exact ⟨goesOn_setPhase (fun _ h => nomatch h) (fun _ h => nomatch h), fun _ h => nomatch h⟩
      · cases h
  | move caller move =>
      refine Or.inr (Or.inr ⟨rfl, Or.inr ?_⟩)
      simp only [State.step] at h
      split at h
      · cases h
      · next call hcall =>
          obtain ⟨phase, hgoesOn⟩ := move_goesOn (fun lock => hlocked caller call lock hcall) h
          exact ⟨caller, call, phase, hgoesOn, fun _ _ => hcall⟩

/-- What holds in every run: the locks are numbered, and a call that is executed holds its own. -/
theorem step_numbered {action : Action} (hs : s.Numbered ∧ s.Locked)
    (h : s.step infer parseAs action = some s') : s'.Numbered ∧ s'.Locked := by
  obtain ⟨hnumbered, hlocked⟩ := hs
  rcases step_cases hlocked h with ⟨buildId, arguments, handler, -, rfl⟩ | ⟨buildId, -, rfl⟩ |
    ⟨-, rfl | ⟨caller, call, phase, hgoesOn, -⟩⟩
  · refine ⟨fun id entry hentry => ?_, hlocked⟩
    show entry.updateLock < s.nextLock + 1
    change Function.update s.registry buildId _ id = some entry at hentry
    by_cases hid : id = buildId
    · subst hid
      rw [Function.update_self, Option.some.injEq] at hentry
      rw [← hentry]
      exact Nat.lt_succ_self _
    · rw [Function.update_of_ne hid] at hentry
      exact Nat.lt_succ_of_lt (hnumbered id entry hentry)
  · refine ⟨fun id entry hentry => ?_, hlocked⟩
    change Function.update s.registry buildId none id = some entry at hentry
    by_cases hid : id = buildId
    · subst hid
      rw [Function.update_self] at hentry
      cases hentry
    · rw [Function.update_of_ne hid] at hentry
      exact hnumbered id entry hentry
  · exact ⟨hnumbered, hlocked⟩
  · exact ⟨hgoesOn.numbered hnumbered, hgoesOn.locked hlocked⟩

/-- A registration that finds its build id free keeps the calls together. -/
theorem register_together (hs : s.Together) {buildId : UInt16}
    (hfree : ∀ caller call, s.calls caller = some call → call.buildId = buildId →
      call.phase.lock = none) (arguments : Arguments) (handler : ℕ) :
    (s.register infer parseAs buildId arguments handler).1.Together := by
  refine ⟨fun caller call lock entry hcall hlock hentry => ?_, hs.same⟩
  have hid : call.buildId ≠ buildId := by
    intro hid
    rw [hfree caller call hcall hid] at hlock
    cases hlock
  change Function.update s.registry buildId _ call.buildId = some entry at hentry
  rw [Function.update_of_ne hid] at hentry
  exact hs.entry caller call lock entry hcall hlock hentry

theorem unregister_together (hs : s.Together) (buildId : UInt16) :
    State.Together { s with registry := Function.update s.registry buildId none } := by
  refine ⟨fun caller call lock entry hcall hlock hentry => ?_, hs.same⟩
  change Function.update s.registry buildId none call.buildId = some entry at hentry
  by_cases hid : call.buildId = buildId
  · rw [hid, Function.update_self] at hentry
    cases hentry
  · rw [Function.update_of_ne hid] at hentry
    exact hs.entry caller call lock entry hcall hlock hentry

/-- The entries are those of the components in `first`. -/
def State.Reaches (s : State) (first : UInt16 → Option (ℕ × Finset String)) : Prop :=
  ∀ buildId, (s.registry buildId).map Entry.identity = first buildId

/-- **A step that finds its build id free**: the calls stay together, and the entries are those of the
components registered first. -/
theorem step_together {action : Action} {first : UInt16 → Option (ℕ × Finset String)}
    (hlocked : s.Locked) (hs : s.Together ∧ s.Reaches first) (hfree : action.FindsFree s)
    (h : s.step infer parseAs action = some s') :
    s'.Together ∧ s'.Reaches (owners infer parseAs first action) := by
  obtain ⟨htogether, hreaches⟩ := hs
  rcases step_cases hlocked h with ⟨buildId, arguments, handler, rfl, rfl⟩ | ⟨buildId, rfl, rfl⟩ |
    ⟨howners, hstep⟩
  · refine ⟨register_together htogether hfree.2 arguments handler, fun id => ?_⟩
    show (Function.update s.registry buildId _ id).map Entry.identity =
      Function.update first buildId _ id
    by_cases hid : id = buildId
    · subst hid
      have hnone : first id = none := by rw [← hreaches id, hfree.1, Option.map_none]
      rw [Function.update_self, Function.update_self, hnone]
      rfl
    · rw [Function.update_of_ne hid, Function.update_of_ne hid]
      exact hreaches id
  · refine ⟨unregister_together htogether buildId, fun id => ?_⟩
    show (Function.update s.registry buildId none id).map Entry.identity =
      Function.update first buildId none id
    by_cases hid : id = buildId
    · subst hid
      rw [Function.update_self, Function.update_self, Option.map_none]
    · rw [Function.update_of_ne hid, Function.update_of_ne hid]
      exact hreaches id
  · have howner : owners infer parseAs first action = first := congrFun howners first
    rw [howner]
    rcases hstep with rfl | ⟨caller, call, phase, hgoesOn, hcall⟩
    · exact ⟨htogether, hreaches⟩
    · refine ⟨hgoesOn.together hcall htogether, fun id => ?_⟩
      have hentry := congrArg (Option.map Prod.fst) (hgoesOn.entry id)
      rw [Option.map_map, Option.map_map] at hentry
      exact hentry.trans (hreaches id)

/-- **A registration that returns an error replaces the entry.** -/
theorem keptOnError_iff (hs : s.Numbered) (buildId : UInt16) (arguments : Arguments) (handler : ℕ) :
    s.KeptOnError (s.register infer parseAs buildId arguments handler) ↔ s.registry buildId = none := by
  constructor
  · intro hkept
    by_contra hne
    obtain ⟨entry, hentry⟩ := Option.ne_none_iff_exists'.mp hne
    have herror := hkept ("configuration build id " ++ toString buildId ++ " is already registered")
      (if_pos (by rw [hentry]; rfl))
    -- the new entry has a lock of its own
    have hnew := congrFun herror buildId
    change Function.update s.registry buildId _ buildId = _ at hnew
    rw [Function.update_self, hentry, Option.some.injEq] at hnew
    have hlt := hs buildId entry hentry
    rw [← hnew] at hlt
    exact lt_irrefl _ hlt
  · intro hnone error herror
    have hok : (s.register infer parseAs buildId arguments handler).2 = .ok () :=
      if_neg (by rw [hnone]; simp)
    rw [hok] at herror
    cases herror

end

/-- **Registration errors.** After any run, a further registration leaves the registry as it was on an
error exactly if its build id is not registered (and then there is no error). In every run in which each
registration finds its build id free, the entries are those of the components registered first, and no
two updates of a build id are executed at the same time. -/
theorem registration_intact (infer : String → ConfigurationValue)
    (parseAs : ConfigurationValue → String → Option ConfigurationValue) (actions : List Action)
    (s : State) (hrun : runSteps (State.step infer parseAs) State.empty actions = some s) :
    (∀ buildId arguments handler,
      s.KeptOnError (s.register infer parseAs buildId arguments handler) ↔ s.registry buildId = none) ∧
    (RunMeets (State.step infer parseAs) (fun s action => action.FindsFree s) State.empty actions →
      s.Reaches (registeredFirst infer parseAs actions) ∧ s.Serialized) := by
  have hempty : State.empty.Numbered ∧ State.empty.Locked :=
    ⟨fun _ _ h => (nomatch h), fun _ _ _ h => (nomatch h)⟩
  have hall := runSteps_keeps (fun _ _ _ hs hstep => step_numbered hs hstep) hempty hrun
  refine ⟨fun buildId arguments handler => keptOnError_iff hall.1 buildId arguments handler,
    fun hmeets => ?_⟩
  obtain ⟨-, htogether, hreaches⟩ := completed_run_invariant (fun _ => True)
    (I := fun past s => (s.Numbered ∧ s.Locked) ∧ s.Together ∧
      s.Reaches (registeredFirst infer parseAs past.reverse))
    (fun _ _ _ => trivial)
    (fun past action s s' _ hI hfree hstep => by
      refine ⟨step_numbered hI.1 hstep, ?_⟩
      rw [List.reverse_cons, registeredFirst, List.foldl_append, List.foldl_cons, List.foldl_nil]
      exact step_together hI.1.2 hI.2 hfree hstep)
    actions [] State.empty s trivial
    ⟨hempty, ⟨fun _ _ _ _ h => (nomatch h), fun _ _ _ _ _ _ h => (nomatch h)⟩, fun _ => rfl⟩ hmeets hrun
  rw [List.append_nil, List.reverse_reverse] at hreaches
  exact ⟨hreaches, htogether.serialized hall.2⟩

/-- Two components are registered, and an update of the first one is executed. -/
def plainRun : List Action :=
  [.register 1 (.register [("power", ["high"])]) 7, .register 2 (.register []) 8,
    .update 0 1 [("power", [.string "low"])], .move 0 .lookup, .move 0 .lock]

theorem registration_intact_plainRun :
    ∃ s, runSteps (State.step ConfigurationValue.string fun _ _ => none) State.empty plainRun = some s ∧
      s.Reaches (registeredFirst ConfigurationValue.string (fun _ _ => none) plainRun) ∧
      s.Serialized := by
  refine ⟨_, rfl, (registration_intact ConfigurationValue.string (fun _ _ => none) plainRun _ rfl).2 ?_⟩
  refine ⟨⟨rfl, fun _ _ h => (nomatch h)⟩, fun s₁ h₁ => ?_⟩
  cases h₁
  refine ⟨⟨rfl, fun _ _ h => (nomatch h)⟩, fun s₂ h₂ => ?_⟩
  exact ⟨trivial, fun _ _ => ⟨trivial, fun _ _ => ⟨trivial, fun _ _ => trivial⟩⟩⟩

/-- A second component is registered with the build id of the first one while an update of it is
executed, and then updated. -/
def collidingRun : List Action :=
  [.register 1 (.register [("power", ["high"])]) 7, .update 0 1 [("power", [.string "low"])],
    .move 0 .lookup, .move 0 .lock, .register 1 (.register []) 8, .update 1 1 [], .move 1 .lookup,
    .move 1 .lock]

/-- **The second registration returns an error** and takes the place of the first one; the updates of the
two are executed at the same time. -/
theorem registration_not_intact :
    ∃ s s', runSteps (State.step ConfigurationValue.string fun _ _ => none) State.empty
        (collidingRun.take 4) = some s ∧
      (s.registry 1).map Entry.handler = some 7 ∧
      (s.register ConfigurationValue.string (fun _ _ => none) 1 (.register []) 8).2 =
        .error "configuration build id 1 is already registered" ∧
      ¬ s.KeptOnError (s.register ConfigurationValue.string (fun _ _ => none) 1 (.register []) 8) ∧
      runSteps (State.step ConfigurationValue.string fun _ _ => none) State.empty collidingRun = some s' ∧
      (s'.registry 1).map Entry.handler = some 8 ∧ ¬ s'.Serialized := by
  refine ⟨_, _, rfl, rfl, by decide +kernel, ?_, rfl, rfl, ?_⟩
  · intro hkept
    have hentry := congrFun (hkept "configuration build id 1 is already registered" (by decide +kernel)) 1
    exact absurd (congrArg (Option.map Entry.handler) hentry) (by decide)
  · intro hserialized
    exact absurd (hserialized 0 1 _ _ rfl rfl rfl rfl rfl) (by decide)

end Emane.Registration
