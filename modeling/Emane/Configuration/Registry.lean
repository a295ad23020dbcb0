import Mathlib
import Emane.Lib.Run
import Emane.Lib.TreeMap

set_option autoImplicit false

/-! # The configuration registry

The registry keeps the parameters of each component; the component keeps its own. An update is checked
against the registry, handed to the component, and then entered in the registry. If the component rejects
it after applying a part of it, the component gets the values of the registry back.

Updates and queries of many callers run at the same time. The steps of an update are what it does under
one of the locks (`Action`); a lock for each component is held from before the check to the end. In every
run the two copies are equal whenever no update holds the lock of the component, and an update changes
both or neither (`registry_agrees`).
-/

namespace Emane.Configuration

open Emane.Lib Std

/-! ## Values -/

/-- `ConfigurationValue`; floating point numbers are their bits. -/
inductive ConfigurationValue
  | int8 (value : Int8)
  | uint8 (value : UInt8)
  | int16 (value : Int16)
  | uint16 (value : UInt16)
  | int32 (value : Int32)
  | uint32 (value : UInt32)
  | int64 (value : Int64)
  | uint64 (value : UInt64)
  | float (bits : UInt32)
  | double (bits : UInt64)
  | string (value : String)
  | boolean (value : Bool)
  | inetAddr (value : String)
  deriving DecidableEq

/-- `any_type` -/
def ConfigurationValue.anyType : ConfigurationValue → ℕ
  | .int8 _ => 1
  | .uint8 _ => 2
  | .int16 _ => 3
  | .uint16 _ => 4
  | .int32 _ => 5
  | .uint32 _ => 6
  | .int64 _ => 7
  | .uint64 _ => 8
  | .float _ => 9
  | .double _ => 10
  | .string _ => 11
  | .boolean _ => 12
  | .inetAddr _ => 13

abbrev ConfigurationUpdate := List (String × List ConfigurationValue)

abbrev Values := ExtTreeMap String (List ConfigurationValue)

/-- The type of the first value. -/
def typeOf (values : List ConfigurationValue) : Option ℕ := values.head?.map ConfigurationValue.anyType

/-! ## Components -/

/-- What the registry has of a component. -/
structure ComponentConfiguration where
  values : Values
  modifiable : Finset String

/-- A component behind its update handler: its values, and the values it has accepted. -/
structure Component where
  values : Values
  accepted : ConfigurationUpdate

/-- The update handler. It applies the parameters one by one and may stop after any number of them with
an error, but not if it has accepted all the values before. `none` if it cannot behave like that. -/
def Component.update (component : Component) (updates : ConfigurationUpdate) :
    Option (ℕ × String) → Option (Component × Except String Unit)
  | none => some ({
      values := component.values.insertMany updates
      accepted := updates ++ component.accepted }, .ok ())
  | some (count, error) =>
      if ∀ update ∈ updates, update ∈ component.accepted then none
      else some ({ component with values := component.values.insertMany (updates.take count) },
        .error error)

/-- A component with its entry in the registry and the call that holds its update lock. -/
structure Registered where
  registry : ComponentConfiguration
  component : Component
  holder : Option ℕ

/-- The values of a component in the registry and in the component. -/
structure Snapshot where
  registry : Values
  component : Values

def Registered.snapshot (r : Registered) : Snapshot := ⟨r.registry.values, r.component.values⟩

/-! ## The check -/

/-- The loop body of the check in `update`, with the names seen and the values for a rollback. -/
def checkParameter (component : ComponentConfiguration) (checked : List String × ConfigurationUpdate)
    (update : String × List ConfigurationValue) : Except String (List String × ConfigurationUpdate) :=
  let (seen, rollback) := checked
  let (name, values) := update
  if name ∈ seen then .error ("duplicate configuration parameter " ++ name)
  else if name ∉ component.modifiable then
    .error ("configuration parameter " ++ name ++ " is not modifiable")
  else
    match component.values[name]? with
    | none => .error ("unknown configuration parameter " ++ name)
    | some current =>
        let expectedType := (typeOf current).or (typeOf values)
        if values = [] ∨ expectedType.any fun expected => values.any (·.anyType ≠ expected) then
          .error ("invalid value type or count for parameter " ++ name)
        else .ok (name :: seen, rollback ++ [(name, current)])

/-- The check in `update`, with the values for a rollback. -/
def check (component : ComponentConfiguration) (updates : ConfigurationUpdate) :
    Except String ConfigurationUpdate := do
  let (_, rollback) ← updates.foldlM (checkParameter component) ([], [])
  .ok rollback

/-! ## Calls -/

/-- How far a call of `update` is. The snapshots are those of the component when the call got the lock
and when it returned. -/
inductive Phase
  | called
  | waiting
  | locked (before : Snapshot)
  | checked (before : Snapshot) (rollback : ConfigurationUpdate)
  | rejected (before : Snapshot) (rollback : ConfigurationUpdate) (error : String)
  | applied (before : Snapshot)
  | returned (result : Except String Unit) (around : Option (Snapshot × Snapshot))

structure Call where
  buildId : UInt16
  updates : ConfigurationUpdate
  phase : Phase

structure State where
  components : UInt16 → Option Registered
  calls : ℕ → Option Call

/-- The steps of a call behind the lookup. What the handler does is left open. -/
inductive Move
  /-- the update lock is taken -/
  | lock
  | check
  | handler (outcome : Option (ℕ × String))
  | rollback (outcome : Option (ℕ × String))
  | commit

inductive Action
  /-- a caller calls `update` -/
  | call (caller : ℕ) (buildId : UInt16) (updates : ConfigurationUpdate)
  /-- the component is looked up -/
  | lookup (caller : ℕ)
  | move (caller : ℕ) (move : Move)
  | query (buildId : UInt16) (names : List String)

/-- `query` -/
def State.query (s : State) (buildId : UInt16) (names : List String) : Except String ConfigurationUpdate :=
  match s.components buildId with
  | none => .error ("unknown configuration build id " ++ toString buildId)
  | some r =>
      if names = [] then .ok r.registry.values.toList
      else names.mapM fun name =>
        match r.registry.values[name]? with
        | none => .error ("unknown configuration parameter " ++ name)
        | some values => .ok (name, values)

/-- A call goes on. -/
def State.setPhase (s : State) (caller : ℕ) (call : Call) (phase : Phase) : State :=
  { s with calls := Function.update s.calls caller (some { call with phase }) }

def State.setComponent (s : State) (buildId : UInt16) (r : Registered) : State :=
  { s with components := Function.update s.components buildId (some r) }

/-- A call returns and gives up the update lock. -/
def State.return (s : State) (caller : ℕ) (call : Call) (before : Snapshot) (r : Registered)
    (result : Except String Unit) : State :=
  (s.setComponent call.buildId { r with holder := none }).setPhase caller call
    (.returned result (some (before, r.snapshot)))

/-- One step of a call whose component is registered; `none` if it cannot be taken. -/
def State.move (s : State) (caller : ℕ) (call : Call) (r : Registered) (move : Move) : Option State :=
  match move, call.phase with
  | .lock, .waiting =>
      if r.holder.isSome then none
      else some ((s.setComponent call.buildId { r with holder := some caller }).setPhase caller call
        (.locked r.snapshot))
  | .check, .locked before =>
      match Configuration.check r.registry call.updates with
      | .error error => some (s.return caller call before r (.error error))
      | .ok rollback => some (s.setPhase caller call (.checked before rollback))
  | .handler outcome, .checked before rollback =>
      match r.component.update call.updates outcome with
      | none => none
      | some (component, .ok _) =>
          some ((s.setComponent call.buildId { r with component }).setPhase caller call (.applied before))
      | some (component, .error error) =>
          some ((s.setComponent call.buildId { r with component }).setPhase caller call
            (.rejected before rollback error))
  | .rollback outcome, .rejected before rollback error =>
      match r.component.update rollback outcome with
      | none => none
      | some (component, .ok _) =>
          some (s.return caller call before { r with component } (.error error))
      | some (component, .error rollbackError) =>
          some (s.return caller call before { r with component }
            (.error (error ++ "; failed to restore the previous configuration: " ++ rollbackError)))
  | .commit, .applied before =>
      let registry := { r.registry with values := r.registry.values.insertMany call.updates }
      some (s.return caller call before { r with registry } (.ok ()))
  | _, _ => none

/-- One step, `none` if it cannot be taken. Components stay registered. -/
def State.step (s : State) : Action → Option State
  | .call caller buildId updates =>
      match s.calls caller with
      | none => some (s.setPhase caller ⟨buildId, updates, .called⟩ .called)
      | some _ => none
  | .lookup caller =>
      match s.calls caller with
      | some ⟨buildId, updates, .called⟩ =>
          match s.components buildId with
          | none => some (s.setPhase caller ⟨buildId, updates, .called⟩
              (.returned (.error ("unknown configuration build id " ++ toString buildId)) none))
          | some _ => some (s.setPhase caller ⟨buildId, updates, .called⟩ .waiting)
      | _ => none
  | .move caller move =>
      match s.calls caller with
      | none => none
      | some call =>
          match s.components call.buildId with
          | none => none
          | some r => s.move caller call r move
  | .query _ _ => some s

/-! ## What the check ensures -/

/-- An update that the check accepts for a parameter. -/
def Fits (values : Values) (update : String × List ConfigurationValue) : Prop :=
  update.2 ≠ [] ∧ ∃ current, values[update.1]? = some current ∧
    ∀ type, (typeOf current).or (typeOf update.2) = some type → ∀ value ∈ update.2, value.anyType = type

structure Checked (values : Values) (updates rollback : ConfigurationUpdate) : Prop where
  nodup : (updates.map Prod.fst).Nodup
  fits : ∀ update ∈ updates, Fits values update
  names : rollback.map Prod.fst = updates.map Prod.fst
  current : ∀ entry ∈ rollback, values[entry.1]? = some entry.2

theorem checkParameter_ok {component : ComponentConfiguration} {seen seen' : List String}
    {rollback rollback' : ConfigurationUpdate} {update : String × List ConfigurationValue}
    (h : checkParameter component (seen, rollback) update = .ok (seen', rollback')) :
    update.1 ∉ seen ∧ seen' = update.1 :: seen ∧ Fits component.values update ∧
      ∃ current, component.values[update.1]? = some current ∧
        rollback' = rollback ++ [(update.1, current)] := by
  obtain ⟨name, values⟩ := update
  simp only [checkParameter, guard_eq_ok_iff] at h
  obtain ⟨hseen, -, h⟩ := h
  cases hcurrent : component.values[name]? with
  | none => simp [hcurrent] at h
  | some current =>
      simp only [hcurrent, guard_eq_ok_iff, not_or, Except.ok.injEq, Prod.mk.injEq] at h
      obtain ⟨⟨hne, htype⟩, rfl, rfl⟩ := h
      refine ⟨hseen, rfl, ⟨hne, current, hcurrent, fun type htypeOf value hvalue => ?_⟩, current, rfl, rfl⟩
      by_contra hother
      apply htype
      rw [htypeOf]
      exact List.any_eq_true.mpr ⟨value, hvalue, decide_eq_true hother⟩

/-- **What the check ensures**: no parameter twice, each one known, with values of its type. -/
theorem check_ok {component : ComponentConfiguration} {updates rollback : ConfigurationUpdate}
    (h : check component updates = .ok rollback) : Checked component.values updates rollback := by
  obtain ⟨⟨seen, rollback'⟩, hloop, heq⟩ := exists_of_bind_eq_ok h
  cases heq
  have hall := foldlM_ok_induction (f := checkParameter component)
    (motive := fun updates checked => Checked component.values updates checked.2 ∧
      ∀ name, name ∈ checked.1 ↔ name ∈ updates.map Prod.fst)
    (s := ([], [])) ⟨⟨List.nodup_nil, by simp, rfl, by simp⟩, by simp⟩ ?_ updates _ hloop
  · exact hall.1
  rintro done update ⟨seen, rollback⟩ ⟨seen', rollback'⟩ ⟨hchecked, hseen⟩ hstep
  obtain ⟨hnew, rfl, hfits, current, hcurrent, rfl⟩ := checkParameter_ok hstep
  refine ⟨⟨?_, ?_, ?_, ?_⟩, ?_⟩
  · rw [List.map_append, List.map_singleton, List.nodup_append]
    refine ⟨hchecked.nodup, List.nodup_singleton _, ?_⟩
    rintro name hname other hother rfl
    rw [List.mem_singleton] at hother
    exact hnew (hother ▸ (hseen name).mpr hname)
  · intro other hother
    rcases List.mem_append.mp hother with hold | hlast
    · exact hchecked.fits other hold
    · rw [List.mem_singleton.mp hlast]
      exact hfits
  · rw [List.map_append, List.map_append, hchecked.names]
    rfl
  · intro entry hentry
    rcases List.mem_append.mp hentry with hold | hlast
    · exact hchecked.current entry hold
    · rw [List.mem_singleton.mp hlast]
      exact hcurrent
  · intro name
    rw [List.map_append, List.mem_append, ← hseen name, List.mem_cons, or_comm]
    simp

/-! ## The invariant -/

/-- What holds of a component while a call has its lock. -/
def Held (r : Registered) (updates : ConfigurationUpdate) : Phase → Prop
  | .locked before => before = ⟨r.registry.values, r.registry.values⟩ ∧
      r.component.values = r.registry.values
  | .checked before rollback => before = ⟨r.registry.values, r.registry.values⟩ ∧
      r.component.values = r.registry.values ∧ Checked r.registry.values updates rollback
  | .rejected before rollback _ => before = ⟨r.registry.values, r.registry.values⟩ ∧
      Checked r.registry.values updates rollback ∧
      ∃ count, r.component.values = r.registry.values.insertMany (updates.take count)
  | .applied before => before = ⟨r.registry.values, r.registry.values⟩ ∧
      (∃ rollback, Checked r.registry.values updates rollback) ∧
      r.component.values = r.registry.values.insertMany updates ∧
      ∀ update ∈ updates, update ∈ r.component.accepted
  | _ => False

/-- The phases in which a call has the lock. -/
def Phase.holds : Phase → Bool
  | .locked _ => true
  | .checked _ _ => true
  | .rejected _ _ _ => true
  | .applied _ => true
  | _ => false

/-- What a call that has returned did: nothing, or it set the named parameters and nothing else, in the
registry and in the component. -/
def Outcome (updates : ConfigurationUpdate) (before after : Snapshot) : Except String Unit → Prop
  | .error _ => after = before
  | .ok _ =>
      (∀ name values, (name, values) ∈ updates →
        after.registry[name]? = some values ∧ after.component[name]? = some values) ∧
      (∀ name, name ∉ updates.map Prod.fst →
        after.registry[name]? = before.registry[name]? ∧ after.component[name]? = before.component[name]?)

structure Inv (s : State) : Prop where
  /-- a component has accepted the values in the registry -/
  accepted : ∀ {buildId r}, s.components buildId = some r →
    ∀ name values, r.registry.values[name]? = some values → (name, values) ∈ r.component.accepted
  /-- without an update the copies are equal -/
  free : ∀ {buildId r}, s.components buildId = some r → r.holder = none →
    r.component.values = r.registry.values
  held : ∀ {buildId r caller}, s.components buildId = some r → r.holder = some caller →
    ∃ call, s.calls caller = some call ∧ call.buildId = buildId ∧ Held r call.updates call.phase
  holds : ∀ {caller call}, s.calls caller = some call → call.phase.holds →
    ∃ r, s.components call.buildId = some r ∧ r.holder = some caller
  returned : ∀ {caller call result before after}, s.calls caller = some call →
    call.phase = .returned result (some (before, after)) → Outcome call.updates before after result

/-- A component whose lock is free or held by the caller, and that is left in order. -/
structure InOrder (r' : Registered) (caller : ℕ) (call' : Call) : Prop where
  accepted : ∀ name values, r'.registry.values[name]? = some values →
    (name, values) ∈ r'.component.accepted
  free : r'.holder = none → r'.component.values = r'.registry.values ∧ call'.phase.holds = false
  held : ∀ holder, r'.holder = some holder → holder = caller ∧ Held r' call'.updates call'.phase
  returned : ∀ result before after, call'.phase = .returned result (some (before, after)) →
    Outcome call'.updates before after result

theorem calls_setPhase {s : State} {caller caller₁ : ℕ} {call call₁ : Call} {phase : Phase}
    (h : (s.setPhase caller call phase).calls caller₁ = some call₁) :
    caller₁ = caller ∧ call₁ = { call with phase } ∨ caller₁ ≠ caller ∧ s.calls caller₁ = some call₁ := by
  by_cases hid : caller₁ = caller
  · subst hid
    refine .inl ⟨rfl, ?_⟩
    simpa [State.setPhase] using h.symm
  · exact .inr ⟨hid, by simpa [State.setPhase, hid] using h⟩

theorem components_setComponent {s : State} {buildId buildId₁ : UInt16} {r r₁ : Registered}
    (h : (s.setComponent buildId r).components buildId₁ = some r₁) :
    buildId₁ = buildId ∧ r₁ = r ∨ buildId₁ ≠ buildId ∧ s.components buildId₁ = some r₁ := by
  by_cases hid : buildId₁ = buildId
  · subst hid
    refine .inl ⟨rfl, ?_⟩
    simpa [State.setComponent] using h.symm
  · exact .inr ⟨hid, by simpa [State.setComponent, hid] using h⟩

/-- **A step of one call** with its component keeps the invariant for all others. -/
theorem Inv.move {s : State} (h : Inv s) {caller : ℕ} {call : Call} {r r' : Registered} {phase : Phase}
    (hcall : s.calls caller = some call) (hcomponent : s.components call.buildId = some r)
    (hlock : ∀ holder, r.holder = some holder → holder = caller)
    (hnew : InOrder r' caller { call with phase }) :
    Inv ((s.setComponent call.buildId r').setPhase caller call phase) := by
  refine ⟨?_, ?_, ?_, ?_, ?_⟩
  · intro buildId r₁ h₁
    rcases components_setComponent h₁ with ⟨-, rfl⟩ | ⟨-, hold⟩
    · exact hnew.accepted
    · exact h.accepted hold
  · intro buildId r₁ h₁ hholder
    rcases components_setComponent h₁ with ⟨-, rfl⟩ | ⟨-, hold⟩
    · exact (hnew.free hholder).1
    · exact h.free hold hholder
  · intro buildId r₁ caller₁ h₁ hholder
    rcases components_setComponent h₁ with ⟨rfl, rfl⟩ | ⟨hne, hold⟩
    · obtain ⟨rfl, hheld⟩ := hnew.held caller₁ hholder
      exact ⟨{ call with phase }, by simp [State.setPhase], rfl, hheld⟩
    · -- the holder of another lock is another caller
      obtain ⟨call₁, hcall₁, hid, hheld⟩ := h.held hold hholder
      refine ⟨call₁, ?_, hid, hheld⟩
      have hother : caller₁ ≠ caller := by
        rintro rfl
        rw [hcall] at hcall₁
        exact hne (by rw [Option.some.inj hcall₁, hid])
      simpa [State.setPhase, State.setComponent, hother] using hcall₁
  · intro caller₁ call₁ h₁ hholds
    rcases calls_setPhase h₁ with ⟨rfl, rfl⟩ | ⟨hne, hold⟩
    · refine ⟨r', by simp [State.setPhase, State.setComponent], ?_⟩
      cases hholder : r'.holder with
      | none => exact absurd hholds (by simp [(hnew.free hholder).2])
      | some holder => rw [(hnew.held holder hholder).1]
    · -- the lock of the caller's component is not held by another one
      obtain ⟨r₁, hr₁, hholder⟩ := h.holds hold hholds
      have hother : call₁.buildId ≠ call.buildId := by
        intro hid
        rw [hid, hcomponent] at hr₁
        exact hne (hlock caller₁ (by rw [Option.some.inj hr₁]; exact hholder))
      exact ⟨r₁, by simpa [State.setPhase, State.setComponent, hother] using hr₁, hholder⟩
  · intro caller₁ call₁ result before after h₁ hreturned
    rcases calls_setPhase h₁ with ⟨-, rfl⟩ | ⟨-, hold⟩
    · exact hnew.returned result before after hreturned
    · exact h.returned hold hreturned

/-- A step before the lock is taken changes no component. -/
theorem Inv.call {s : State} (h : Inv s) {caller : ℕ} {call : Call} {phase : Phase}
    (hcall : ∀ old, s.calls caller = some old → old.phase.holds = false) (hholds : phase.holds = false)
    (hreturned : ∀ result around, phase ≠ .returned result (some around)) :
    Inv (s.setPhase caller call phase) := by
  refine ⟨h.accepted, h.free, ?_, ?_, ?_⟩
  · intro buildId r caller₁ hr hholder
    obtain ⟨call₁, hcall₁, hid, hheld⟩ := h.held hr hholder
    refine ⟨call₁, ?_, hid, hheld⟩
    have hother : caller₁ ≠ caller := by
      rintro rfl
      have hno := hcall call₁ hcall₁
      cases hphase : call₁.phase <;> simp [hphase, Held, Phase.holds] at hheld hno
    simpa [State.setPhase, hother] using hcall₁
  · intro caller₁ call₁ h₁ hholds₁
    rcases calls_setPhase h₁ with ⟨-, rfl⟩ | ⟨-, hold⟩
    · exact absurd hholds₁ (by simp [hholds])
    · exact h.holds hold hholds₁
  · intro caller₁ call₁ result before after h₁ hphase
    rcases calls_setPhase h₁ with ⟨-, rfl⟩ | ⟨-, hold⟩
    · exact absurd hphase (hreturned result (before, after))
    · exact h.returned hold hphase

/-- The handler accepts what it has accepted before. -/
theorem update_cases {component : Component} {updates : ConfigurationUpdate}
    {outcome : Option (ℕ × String)} {result : Component × Except String Unit}
    (h : component.update updates outcome = some result) :
    result = (⟨component.values.insertMany updates, updates ++ component.accepted⟩, .ok ()) ∨
    (¬ ∀ update ∈ updates, update ∈ component.accepted) ∧ ∃ count error,
      result = ({ component with values := component.values.insertMany (updates.take count) },
        .error error) := by
  cases outcome with
  | none =>
      cases h
      exact .inl rfl
  | some rejection =>
      obtain ⟨count, error⟩ := rejection
      simp only [Component.update] at h
      split at h
      · cases h
      · next hnew =>
          cases h
          exact .inr ⟨hnew, count, error, rfl⟩

/-- The rollback gives the component the values of the registry back. -/
theorem rollback_restores {values : Values} {updates rollback : ConfigurationUpdate}
    (h : Checked values updates rollback) (count : ℕ) :
    (values.insertMany (updates.take count)).insertMany rollback = values := by
  refine insertMany_restore (h.names ▸ h.nodup) h.current fun entry hentry => ?_
  rw [h.names]
  exact List.mem_map_of_mem (List.mem_of_mem_take hentry)

/-- A committed update sets the named parameters and no others. -/
theorem outcome_commit {values : Values} {updates rollback : ConfigurationUpdate}
    (h : Checked values updates rollback) :
    Outcome updates ⟨values, values⟩ ⟨values.insertMany updates, values.insertMany updates⟩ (.ok ()) := by
  refine ⟨fun name vs hmem => ?_, fun name hnot => ?_⟩
  · exact ⟨getElem?_insertMany_of_mem h.nodup hmem, getElem?_insertMany_of_mem h.nodup hmem⟩
  · exact ⟨getElem?_insertMany_of_notMem hnot, getElem?_insertMany_of_notMem hnot⟩

/-- A call returns with the two copies equal. -/
theorem Inv.return {s : State} (h : Inv s) {caller : ℕ} {call : Call} {r r' : Registered}
    {before : Snapshot} {result : Except String Unit} (hcall : s.calls caller = some call)
    (hcomponent : s.components call.buildId = some r)
    (hlock : ∀ holder, r.holder = some holder → holder = caller)
    (haccepted : ∀ name values, r'.registry.values[name]? = some values →
      (name, values) ∈ r'.component.accepted)
    (hequal : r'.component.values = r'.registry.values)
    (houtcome : Outcome call.updates before ⟨r'.registry.values, r'.registry.values⟩ result) :
    Inv (s.return caller call before r' result) := by
  refine h.move hcall hcomponent hlock ⟨haccepted, fun _ => ⟨hequal, rfl⟩, by simp, ?_⟩
  rintro result₁ before₁ after₁ hphase
  cases hphase
  rw [Registered.snapshot, hequal]
  exact houtcome

theorem setComponent_self {s : State} {buildId : UInt16} {r : Registered}
    (h : s.components buildId = some r) : s.setComponent buildId r = s := by
  rw [State.setComponent, ← h, Function.update_eq_self]

/-! ## The moves of a call -/

section

variable {s : State} {caller : ℕ} {call : Call} {r : Registered}

/-- A call that has the lock is the holder, and the component is as its phase says. -/
theorem Inv.holding (h : Inv s) (hcall : s.calls caller = some call)
    (hcomponent : s.components call.buildId = some r) (hholds : call.phase.holds) :
    (∀ holder, r.holder = some holder → holder = caller) ∧ r.holder ≠ none ∧
      Held r call.updates call.phase := by
  obtain ⟨r₁, hr₁, hholder⟩ := h.holds hcall hholds
  obtain rfl : r₁ = r := Option.some.inj (hr₁.symm.trans hcomponent)
  obtain ⟨call₁, hcall₁, -, hphase⟩ := h.held hcomponent hholder
  obtain rfl : call₁ = call := Option.some.inj (hcall₁.symm.trans hcall)
  refine ⟨fun holder hholder₁ => ?_, by simp [hholder], hphase⟩
  exact Option.some.inj (hholder₁.symm.trans hholder)

theorem lock_inv (h : Inv s) (hcall : s.calls caller = some call)
    (hcomponent : s.components call.buildId = some r) (hfree : r.holder = none) :
    Inv ((s.setComponent call.buildId { r with holder := some caller }).setPhase caller call
      (.locked r.snapshot)) := by
  have hequal := h.free hcomponent hfree
  have haccepted := h.accepted hcomponent
  refine h.move hcall hcomponent (by simp [hfree]) ⟨haccepted, by simp, ?_, by simp⟩
  rintro holder hholder
  refine ⟨(Option.some.inj hholder).symm, ?_, hequal⟩
  rw [Registered.snapshot, hequal]

/-- A rejected update has changed nothing yet. -/
theorem check_error_inv (h : Inv s) (hcall : s.calls caller = some call)
    (hcomponent : s.components call.buildId = some r) {before : Snapshot}
    (hphase : call.phase = .locked before) (error : String) :
    Inv (s.return caller call before r (.error error)) := by
  obtain ⟨hlock, -, hheld⟩ := h.holding hcall hcomponent (by rw [hphase]; rfl)
  rw [hphase] at hheld
  obtain ⟨hbefore, hequal⟩ := hheld
  refine h.return hcall hcomponent hlock (h.accepted hcomponent) hequal ?_
  rw [hbefore]
  rfl

theorem check_ok_inv (h : Inv s) (hcall : s.calls caller = some call)
    (hcomponent : s.components call.buildId = some r) {before : Snapshot}
    (hphase : call.phase = .locked before) {rollback : ConfigurationUpdate}
    (hcheck : check r.registry call.updates = .ok rollback) :
    Inv (s.setPhase caller call (.checked before rollback)) := by
  obtain ⟨hlock, hholder, hheld⟩ := h.holding hcall hcomponent (by rw [hphase]; rfl)
  rw [hphase] at hheld
  obtain ⟨hbefore, hequal⟩ := hheld
  have hmove : Inv ((s.setComponent call.buildId r).setPhase caller call (.checked before rollback)) := by
    refine h.move hcall hcomponent hlock ⟨h.accepted hcomponent, by simp [hholder], ?_, by simp⟩
    rintro holder hholder₁
    exact ⟨hlock holder hholder₁, hbefore, hequal, check_ok hcheck⟩
  rwa [setComponent_self hcomponent] at hmove

theorem handler_ok_inv (h : Inv s) (hcall : s.calls caller = some call)
    (hcomponent : s.components call.buildId = some r) {before : Snapshot} {rollback : ConfigurationUpdate}
    (hphase : call.phase = .checked before rollback) :
    Inv ((s.setComponent call.buildId { r with component :=
        ⟨r.component.values.insertMany call.updates, call.updates ++ r.component.accepted⟩ }).setPhase
      caller call (.applied before)) := by
  obtain ⟨hlock, hholder, hheld⟩ := h.holding hcall hcomponent (by rw [hphase]; rfl)
  rw [hphase] at hheld
  obtain ⟨hbefore, hequal, hchecked⟩ := hheld
  refine h.move hcall hcomponent hlock ⟨?_, by simp [hholder], ?_, by simp⟩
  · intro name values hvalues
    exact List.mem_append_right _ (h.accepted hcomponent name values hvalues)
  · rintro holder hholder₁
    refine ⟨hlock holder hholder₁, hbefore, ⟨rollback, hchecked⟩, ?_, ?_⟩
    · rw [hequal]
    · exact fun update hupdate => List.mem_append_left _ hupdate

theorem handler_error_inv (h : Inv s) (hcall : s.calls caller = some call)
    (hcomponent : s.components call.buildId = some r) {before : Snapshot} {rollback : ConfigurationUpdate}
    (hphase : call.phase = .checked before rollback) (count : ℕ) (error : String) :
    Inv ((s.setComponent call.buildId { r with component := { r.component with
        values := r.component.values.insertMany (call.updates.take count) } }).setPhase caller call
      (.rejected before rollback error)) := by
  obtain ⟨hlock, hholder, hheld⟩ := h.holding hcall hcomponent (by rw [hphase]; rfl)
  rw [hphase] at hheld
  obtain ⟨hbefore, hequal, hchecked⟩ := hheld
  have haccepted := h.accepted hcomponent
  refine h.move hcall hcomponent hlock ⟨haccepted, by simp [hholder], ?_, by simp⟩
  rintro holder hholder₁
  exact ⟨hlock holder hholder₁, hbefore, hchecked, count, by rw [hequal]⟩

/-- The component accepts the rollback, and it has the values of the registry again. -/
theorem rollback_inv (h : Inv s) (hcall : s.calls caller = some call)
    (hcomponent : s.components call.buildId = some r) {before : Snapshot} {rollback : ConfigurationUpdate}
    {error : String} (hphase : call.phase = .rejected before rollback error) :
    (∀ entry ∈ rollback, entry ∈ r.component.accepted) ∧
      Inv (s.return caller call before { r with component :=
        ⟨r.component.values.insertMany rollback, rollback ++ r.component.accepted⟩ } (.error error)) := by
  obtain ⟨hlock, -, hheld⟩ := h.holding hcall hcomponent (by rw [hphase]; rfl)
  rw [hphase] at hheld
  obtain ⟨hbefore, hchecked, count, hpart⟩ := hheld
  refine ⟨fun entry hentry => ?_, h.return hcall hcomponent hlock ?_ ?_ (by rw [hbefore]; rfl)⟩
  · exact h.accepted hcomponent entry.1 entry.2 (hchecked.current entry hentry)
  · intro name values hvalues
    exact List.mem_append_right _ (h.accepted hcomponent name values hvalues)
  · show r.component.values.insertMany rollback = r.registry.values
    rw [hpart, rollback_restores hchecked]

theorem commit_inv (h : Inv s) (hcall : s.calls caller = some call)
    (hcomponent : s.components call.buildId = some r) {before : Snapshot}
    (hphase : call.phase = .applied before) :
    Inv (s.return caller call before { r with registry := { r.registry with
      values := r.registry.values.insertMany call.updates } } (.ok ())) := by
  obtain ⟨hlock, -, hheld⟩ := h.holding hcall hcomponent (by rw [hphase]; rfl)
  rw [hphase] at hheld
  obtain ⟨hbefore, ⟨rollback, hchecked⟩, happlied, hknown⟩ := hheld
  refine h.return hcall hcomponent hlock ?_ happlied ?_
  · intro name values hvalues
    by_cases hname : name ∈ call.updates.map Prod.fst
    · obtain ⟨⟨_, given⟩, hmem, rfl⟩ := List.mem_map.mp hname
      rw [getElem?_insertMany_of_mem hchecked.nodup hmem, Option.some.injEq] at hvalues
      exact hknown _ (hvalues ▸ hmem)
    · rw [getElem?_insertMany_of_notMem hname] at hvalues
      exact h.accepted hcomponent name values hvalues
  · rw [hbefore]
    exact outcome_commit hchecked

end

/-- **Every move of a call keeps the invariant.** -/
theorem move_inv {s s' : State} (h : Inv s) {caller : ℕ} {call : Call} {r : Registered} {move : Move}
    (hcall : s.calls caller = some call) (hcomponent : s.components call.buildId = some r)
    (hstep : s.move caller call r move = some s') : Inv s' := by
  unfold State.move at hstep
  split at hstep
  · next hphase =>
    split at hstep
    · cases hstep
    · next hfree =>
      cases hstep
      exact lock_inv h hcall hcomponent (Option.not_isSome_iff_eq_none.mp hfree)
  · next before hphase =>
    split at hstep
    · cases hstep
      exact check_error_inv h hcall hcomponent hphase _
    · next rollback hcheck =>
      cases hstep
      exact check_ok_inv h hcall hcomponent hphase hcheck
  · next outcome before rollback hphase =>
    split at hstep
    · cases hstep
    · next component _ hresult =>
      cases hstep
      rcases update_cases hresult with heq | ⟨-, _, _, heq⟩
      · cases heq
        exact handler_ok_inv h hcall hcomponent hphase
      · cases heq
    · next component error hresult =>
      cases hstep
      rcases update_cases hresult with heq | ⟨-, count, _, heq⟩
      · cases heq
      · cases heq
        exact handler_error_inv h hcall hcomponent hphase count error
  · next outcome before rollback error hphase =>
    obtain ⟨hknown, hinv⟩ := rollback_inv h hcall hcomponent hphase
    split at hstep
    · cases hstep
    · next component _ hresult =>
      cases hstep
      rcases update_cases hresult with heq | ⟨-, _, _, heq⟩
      · cases heq
        exact hinv
      · cases heq
    · next component rollbackError hresult =>
      rcases update_cases hresult with heq | ⟨hrejects, -⟩
      · cases heq
      · exact absurd hknown hrejects
  · next before hphase =>
    cases hstep
    exact commit_inv h hcall hcomponent hphase
  · cases hstep

/-- **Every step keeps the invariant.** -/
theorem step_inv {s s' : State} (h : Inv s) {action : Action} (hstep : s.step action = some s') :
    Inv s' := by
  cases action with
  | call caller buildId updates =>
      simp only [State.step] at hstep
      split at hstep
      · next hnone =>
        cases hstep
        exact h.call (by simp [hnone]) rfl (by simp)
      · cases hstep
  | lookup caller =>
      simp only [State.step] at hstep
      split at hstep
      · next buildId updates hcall =>
        have hidle : ∀ old, s.calls caller = some old → old.phase.holds = false := by
          intro old hold
          rw [← Option.some.inj (hcall.symm.trans hold)]
          rfl
        split at hstep
        · cases hstep
          exact h.call hidle rfl (by simp)
        · cases hstep
          exact h.call hidle rfl (by simp)
      · cases hstep
  | move caller move =>
      simp only [State.step] at hstep
      split at hstep
      · cases hstep
      next call hcall =>
      split at hstep
      · cases hstep
      · next r hcomponent => exact move_inv h hcall hcomponent hstep
  | query buildId names =>
      cases hstep
      exact h

/-! ## Types -/

/-- The registry of a component before and after a step: an update was committed, or nothing changed. -/
def Commits (r r' : Registered) : Prop :=
  r'.registry.values = r.registry.values ∨ ∃ updates rollback,
    Checked r.registry.values updates rollback ∧
      r'.registry.values = r.registry.values.insertMany updates

theorem commits_setComponent {s : State} {buildId : UInt16} {r r' : Registered}
    (hcomponent : s.components buildId = some r) (hcommits : Commits r r') {buildId₁ : UInt16}
    {r₁ : Registered} (h : s.components buildId₁ = some r₁) :
    ∃ r₁', (s.setComponent buildId r').components buildId₁ = some r₁' ∧ Commits r₁ r₁' := by
  by_cases hid : buildId₁ = buildId
  · subst hid
    obtain rfl : r₁ = r := Option.some.inj (h.symm.trans hcomponent)
    exact ⟨r', by simp [State.setComponent], hcommits⟩
  · exact ⟨r₁, by simpa [State.setComponent, hid] using h, .inl rfl⟩

/-- The registry changes by committed updates. -/
theorem step_commits {s s' : State} (hinv : Inv s) {action : Action} (hstep : s.step action = some s')
    {buildId : UInt16} {r : Registered} (h : s.components buildId = some r) :
    ∃ r', s'.components buildId = some r' ∧ Commits r r' := by
  cases action with
  | call caller buildId₁ updates =>
      simp only [State.step] at hstep
      split at hstep
      · cases hstep
        exact ⟨r, h, .inl rfl⟩
      · cases hstep
  | lookup caller =>
      simp only [State.step] at hstep
      split at hstep
      · split at hstep
        · cases hstep
          exact ⟨r, h, .inl rfl⟩
        · cases hstep
          exact ⟨r, h, .inl rfl⟩
      · cases hstep
  | query buildId names =>
      cases hstep
      exact ⟨r, h, .inl rfl⟩
  | move caller move =>
      simp only [State.step] at hstep
      split at hstep
      · cases hstep
      next call hcall =>
      split at hstep
      · cases hstep
      next r₁ hcomponent =>
      unfold State.move at hstep
      split at hstep
      · split at hstep
        · cases hstep
        · cases hstep
          exact commits_setComponent hcomponent (by exact .inl rfl) h
      · split at hstep
        · cases hstep
          exact commits_setComponent hcomponent (by exact .inl rfl) h
        · cases hstep
          exact ⟨r, h, .inl rfl⟩
      · split at hstep
        · cases hstep
        · cases hstep
          exact commits_setComponent hcomponent (by exact .inl rfl) h
        · cases hstep
          exact commits_setComponent hcomponent (by exact .inl rfl) h
      · split at hstep
        · cases hstep
        · cases hstep
          exact commits_setComponent hcomponent (by exact .inl rfl) h
        · cases hstep
          exact commits_setComponent hcomponent (by exact .inl rfl) h
      · next before hphase =>
        cases hstep
        obtain ⟨-, -, hheld⟩ := hinv.holding hcall hcomponent (by rw [hphase]; rfl)
        rw [hphase] at hheld
        obtain ⟨-, ⟨rollback, hchecked⟩, -⟩ := hheld
        exact commits_setComponent hcomponent (by exact .inr ⟨call.updates, rollback, hchecked, rfl⟩) h
      · cases hstep

/-- A property of value lists that values of the same type inherit. -/
def TypeProperty (P : List ConfigurationValue → Prop) : Prop :=
  ∀ current new, P current → new ≠ [] →
    (∀ type, (typeOf current).or (typeOf new) = some type → ∀ value ∈ new, value.anyType = type) → P new

/-- The type of the first value is inherited. -/
theorem typeProperty_first (type : ℕ) : TypeProperty fun values => typeOf values = some type := by
  intro current new hcurrent hne htypes
  cases new with
  | nil => exact absurd rfl hne
  | cons value values =>
      have hvalue := htypes type (by rw [hcurrent]; rfl) value List.mem_cons_self
      exact congrArg some hvalue

/-- Lists of values of one type are followed by lists of values of this type. -/
theorem typeProperty_all (type : ℕ) :
    TypeProperty fun values => values ≠ [] ∧ ∀ value ∈ values, value.anyType = type := by
  rintro current new ⟨hne', hall⟩ hne htypes
  refine ⟨hne, htypes type ?_⟩
  cases current with
  | nil => exact absurd rfl hne'
  | cons value values =>
      have hvalue := hall value List.mem_cons_self
      simp [typeOf, hvalue]

/-- A parameter of a component has values with a property. -/
def State.Has (s : State) (P : List ConfigurationValue → Prop) (buildId : UInt16) (name : String) : Prop :=
  ∃ r values, s.components buildId = some r ∧ r.registry.values[name]? = some values ∧ P values

theorem step_has {s s' : State} (hinv : Inv s) {action : Action} (hstep : s.step action = some s')
    {P : List ConfigurationValue → Prop} (hP : TypeProperty P) {buildId : UInt16} {name : String}
    (h : s.Has P buildId name) : s'.Has P buildId name := by
  obtain ⟨r, values, hcomponent, hvalues, hp⟩ := h
  obtain ⟨r', hcomponent', hcommits⟩ := step_commits hinv hstep hcomponent
  rcases hcommits with hsame | ⟨updates, rollback, hchecked, hnew⟩
  · exact ⟨r', values, hcomponent', hsame ▸ hvalues, hp⟩
  by_cases hname : name ∈ updates.map Prod.fst
  · -- the new values have the type of the old ones
    obtain ⟨⟨_, given⟩, hmem, rfl⟩ := List.mem_map.mp hname
    obtain ⟨hne, current, hcurrent, htypes⟩ := hchecked.fits _ hmem
    obtain rfl : current = values := Option.some.inj (hcurrent.symm.trans hvalues)
    refine ⟨r', given, hcomponent', ?_, hP current given hp hne htypes⟩
    rw [hnew, getElem?_insertMany_of_mem hchecked.nodup hmem]
  · refine ⟨r', values, hcomponent', ?_, hp⟩
    rw [hnew, getElem?_insertMany_of_notMem hname, hvalues]

/-! ## Agreement -/

/-- Components that have just been registered, with any values and modifiable parameters. -/
def State.registered (components : UInt16 → Option ComponentConfiguration) : State :=
  { components := fun buildId => (components buildId).map fun registry =>
      { registry
        component := { values := registry.values, accepted := registry.values.toList }
        holder := none }
    calls := fun _ => none }

theorem registered_inv (components : UInt16 → Option ComponentConfiguration) :
    Inv (.registered components) := by
  have hentry : ∀ {buildId r}, (State.registered components).components buildId = some r →
      r.holder = none ∧ r.component.values = r.registry.values ∧
        r.component.accepted = r.registry.values.toList := by
    intro buildId r h
    obtain ⟨registry, -, rfl⟩ := Option.map_eq_some_iff.mp h
    exact ⟨rfl, rfl, rfl⟩
  refine ⟨?_, ?_, ?_, by simp [State.registered], by simp [State.registered]⟩
  · intro buildId r h name values hvalues
    rw [(hentry h).2.2]
    exact ExtTreeMap.mem_toList_iff_getElem?_eq_some.mpr hvalues
  · intro buildId r h _
    exact (hentry h).2.1
  · intro buildId r caller h hholder
    cases (hentry h).1.symm.trans hholder

/-- **Registry and component agree**, in every state that the calls of any number of callers reach. A call
that returned an error left both copies as it found them when it got the lock, and a call that returned
`Ok` set the named parameters to the given values in both, and no others. Both copies are equal, and a
query returns them, whenever no call holds the lock of the component. And a parameter with a value keeps
a value of the type of its first one, and only such values if it had no others. -/
theorem registry_agrees {components : UInt16 → Option ComponentConfiguration} {actions : List Action}
    {s : State} (hrun : runSteps State.step (.registered components) actions = some s) :
    (∀ caller call result before after, s.calls caller = some call →
      call.phase = .returned result (some (before, after)) → Outcome call.updates before after result) ∧
    (∀ buildId r, s.components buildId = some r → r.holder = none →
      r.component.values = r.registry.values ∧ s.query buildId [] = .ok r.component.values.toList) ∧
    (∀ later s' buildId name type, runSteps State.step s later = some s' →
      (s.Has (typeOf · = some type) buildId name → s'.Has (typeOf · = some type) buildId name) ∧
      (s.Has (fun values => values ≠ [] ∧ ∀ value ∈ values, value.anyType = type) buildId name →
        s'.Has (fun values => values ≠ [] ∧ ∀ value ∈ values, value.anyType = type) buildId name)) := by
  have hinv : Inv s :=
    runSteps_keeps (fun _ _ _ h hstep => step_inv h hstep) (registered_inv components) hrun
  refine ⟨?_, ?_, ?_⟩
  · intro caller call result before after hcall hphase
    exact hinv.returned hcall hphase
  · intro buildId r hcomponent hholder
    have hequal := hinv.free hcomponent hholder
    refine ⟨hequal, ?_⟩
    rw [State.query, hcomponent, hequal]
    rfl
  · intro later s' buildId name type hlater
    have hkeeps : ∀ {P : List ConfigurationValue → Prop}, TypeProperty P → s.Has P buildId name →
        s'.Has P buildId name := by
      intro P hP hhas
      refine (runSteps_keeps (I := fun t => Inv t ∧ t.Has P buildId name) ?_ ⟨hinv, hhas⟩ hlater).2
      rintro t action t' ⟨hinv, hhas⟩ hstep
      exact ⟨step_inv hinv hstep, step_has hinv hstep hP hhas⟩
    exact ⟨hkeeps (typeProperty_first type), hkeeps (typeProperty_all type)⟩

/-- A component with two flags. -/
def twoFlags : UInt16 → Option ComponentConfiguration
  | 1 => some {
      values := (∅ : Values).insertMany [("first", [.boolean true]), ("second", [.boolean true])]
      modifiable := {"first", "second"} }
  | _ => none

/-- Two callers want to change the first flag. The first one also wants to change the second flag, which
the component rejects after it has changed the first one. -/
def twoCallers : List Action :=
  [.call 0 1 [("first", [.boolean false]), ("second", [.boolean false])],
    .call 1 1 [("first", [.boolean false])], .lookup 0, .lookup 1, .move 0 .lock, .move 0 .check,
    .move 0 (.handler (some (1, "second cannot be false"))), .move 0 (.rollback none), .move 1 .lock,
    .move 1 .check, .move 1 (.handler none), .move 1 .commit]

theorem registry_agrees_twoCallers :
    ∃ s, runSteps State.step (.registered twoFlags) twoCallers = some s ∧
      s.query 1 [] = .ok [("first", [.boolean false]), ("second", [.boolean true])] ∧
      (∀ r, s.components 1 = some r → r.holder = none → r.component.values = r.registry.values) ∧
      ∀ caller call result before after, s.calls caller = some call →
        call.phase = .returned result (some (before, after)) →
        Outcome call.updates before after result := by
  have hquery : (runSteps State.step (.registered twoFlags) twoCallers).map (State.query · 1 []) =
      some (.ok [("first", [.boolean false]), ("second", [.boolean true])]) := by decide +kernel
  obtain ⟨s, hrun, hresult⟩ := Option.map_eq_some_iff.mp hquery
  obtain ⟨hreturned, hequal, -⟩ := registry_agrees hrun
  exact ⟨s, hrun, hresult, fun r hr hholder => (hequal 1 r hr hholder).1, hreturned⟩

end Emane.Configuration
