import Mathlib
import Emane.Lib.Run
import Emane.PluginApi.Widening
import Emane.Eel.Loaders

set_option autoImplicit false

/-! # What the records enter

The changes of an accepted record, in their order, and what the changes say: the position, the orientation
and the velocity of a NEM, and the pathloss from a source to a receiver at a frequency. A pathloss without
a frequency stands at frequency zero. `expectedLocation` and `expectedPathlossDb` are the values that were
loaded last.
-/

namespace Emane.Eel

open Emane.Lib
open Emane.Phy (Position Orientation Velocity Location)
open Emane.PluginApi (F32 F64)

/-! ## What a change says -/

namespace Reading

def position? : Reading → Option Position
  | .position p => some p
  | _ => none

def orientation? : Reading → Option Orientation
  | .orientation o => some o
  | _ => none

def velocity? : Reading → Option Velocity
  | .velocity v => some v
  | _ => none

/-- The numbers are finite, the latitude and the longitude in range, and the speed is not negative. -/
def valid : Reading → Bool
  | .position p => p.valid
  | .orientation o => o.valid
  | .velocity v => v.valid

end Reading

/-- The value for a receiver and a source, of two that go in opposite directions. -/
def directed {α : Type} (dst src : UInt16) (forward reverse : α) (receiver source : UInt16) : Option α :=
  if src = receiver ∧ dst = source then some reverse
  else if dst = receiver ∧ src = source then some forward
  else none

theorem directed_map {α β : Type} (g : α → β) (dst src : UInt16) (forward reverse : α)
    (receiver source : UInt16) : (directed dst src forward reverse receiver source).map g =
      directed dst src (g forward) (g reverse) receiver source := by
  unfold directed
  split_ifs <;> rfl

inductive LoaderKind
  | location
  | pathloss
  | pathlossEx
  deriving DecidableEq

instance : Fintype LoaderKind := ⟨{.location, .pathloss, .pathlossEx}, fun kind => by cases kind <;> decide⟩

namespace Change

/-- The loader that the change is for. -/
def kind : Change → LoaderKind
  | .place .. => .location
  | .pathloss .. => .pathloss
  | .pathlossEx .. => .pathlossEx

def reading? : Change → UInt16 → Option Reading
  | .place nem reading, n => if nem = n then some reading else none
  | _, _ => none

def position? (change : Change) (n : UInt16) : Option Position := (change.reading? n).bind Reading.position?

def orientation? (change : Change) (n : UInt16) : Option Orientation :=
  (change.reading? n).bind Reading.orientation?

def velocity? (change : Change) (n : UInt16) : Option Velocity := (change.reading? n).bind Reading.velocity?

/-- The pathloss for a receiver, a source and a frequency. -/
def pathlossDb? : Change → UInt16 × UInt16 × UInt64 → Option F32
  | .place .., _ => none
  | .pathloss dst src forward reverse, (receiver, source, f) =>
      if f = 0 then directed dst src forward reverse receiver source else none
  | .pathlossEx dst src frequencyHz forward reverse, (receiver, source, f) =>
      if f = frequencyHz then directed dst src forward reverse receiver source else none

/-- The values are what the receivers take. -/
def Admissible : Change → Prop
  | .place _ reading => reading.valid = true
  | .pathloss _ _ forward reverse => forward.isFinite = true ∧ reverse.isFinite = true
  | .pathlossEx _ _ frequencyHz forward reverse =>
      frequencyHz ≠ 0 ∧ forward.isFinite = true ∧ reverse.isFinite = true

instance : (change : Change) → Decidable change.Admissible
  | .place _ reading => inferInstanceAs (Decidable (reading.valid = true))
  | .pathloss _ _ forward reverse =>
      inferInstanceAs (Decidable (forward.isFinite = true ∧ reverse.isFinite = true))
  | .pathlossEx _ _ frequencyHz forward reverse =>
      inferInstanceAs (Decidable (frequencyHz ≠ 0 ∧ forward.isFinite = true ∧ reverse.isFinite = true))

/-- A pathloss is between two NEMs; zero stands for all of them. -/
def Addressable : Change → Prop
  | .place .. => True
  | .pathloss dst src .. => dst ≠ 0 ∧ src ≠ 0
  | .pathlossEx dst src .. => dst ≠ 0 ∧ src ≠ 0

instance : (change : Change) → Decidable change.Addressable
  | .place .. => isTrue trivial
  | .pathloss dst src .. => inferInstanceAs (Decidable (dst ≠ 0 ∧ src ≠ 0))
  | .pathlossEx dst src .. => inferInstanceAs (Decidable (dst ≠ 0 ∧ src ≠ 0))

end Change

/-! ## What was loaded last -/

/-- The last position of a NEM, with its last velocity and orientation. -/
def expectedLocation (rs : List Change) (n : UInt16) : Option Location :=
  (latest Change.position? rs n).map fun position =>
    { latitudeDegrees := position.latitudeDegrees
      longitudeDegrees := position.longitudeDegrees
      altitudeMeters := position.altitudeMeters
      velocity := latest Change.velocity? rs n
      orientation := (latest Change.orientation? rs n).getD Orientation.default }

/-- The last pathloss of a receiver, for a source and a frequency. -/
def expectedPathlossDb (rs : List Change) (receiver source : UInt16) (f : UInt64) : Option F64 :=
  (latest Change.pathlossDb? rs (receiver, source, f)).map F32.toF64

/-- Each NEM that got an orientation or a velocity got a position, too. -/
def Placed (rs : List Change) : Prop :=
  ∀ n, (∃ r ∈ rs, (r.orientation? n).isSome ∨ (r.velocity? n).isSome) → ∃ r ∈ rs, (r.position? n).isSome

/-! ## The changes of a record -/

section

variable (c : Conversions)

/-- What an argument of the loader for frequencies enters. -/
def frequencyChanges (src : UInt16) (arg : String) : List Change :=
  match parts ',' arg with
  | [] => []
  | dest :: parameters => (readDestination c "LoaderPathlossEx" dest).toOption.elim [] fun dst =>
      parameters.flatMap fun parameter => (readFrequency c dst src parameter).toOption.toList

/-- What a record enters, if its loader accepts it. -/
def recordChanges (kind : LoaderKind) (moduleType : String) (moduleId : UInt16) (eventType : String)
    (args : List String) : List Change :=
  if moduleType ≠ "nem" then []
  else
    match kind with
    | .location => ((readLocation c eventType args).toOption.join.map (Change.place moduleId)).toList
    | .pathloss => args.flatMap fun arg => (readPathloss c moduleId arg).toOption.toList
    | .pathlossEx => args.flatMap (frequencyChanges c moduleId)

/-! ## The loaders side by side -/

structure Loaders where
  location : LocationLoader
  pathloss : PathlossLoader
  pathlossEx : PathlossExLoader

namespace Loaders

def new : Loaders := ⟨⟨∅, ∅⟩, ⟨∅, ∅⟩, ⟨∅, ∅⟩⟩

/-- A record is for one of the loaders; `none` stands for a record that is not accepted. -/
def load (loaders : Loaders) (kind : LoaderKind) (moduleType : String) (moduleId : UInt16)
    (eventType : String) (args : List String) : Option Loaders :=
  match kind with
  | .location => (loaders.location.load c moduleType moduleId eventType args).toOption.map fun loader =>
      { loaders with location := loader }
  | .pathloss => (loaders.pathloss.load c moduleType moduleId args).toOption.map fun loader =>
      { loaders with pathloss := loader }
  | .pathlossEx => (loaders.pathlossEx.load c moduleType moduleId args).toOption.map fun loader =>
      { loaders with pathlossEx := loader }

/-- Each loader takes the changes that are for it. -/
def enter (loaders : Loaders) (change : Change) : Loaders :=
  ⟨loaders.location.enter change, loaders.pathloss.enter change, loaders.pathlossEx.enter change⟩

end Loaders

variable {c : Conversions}

theorem LocationLoader.load_eq {loader loader' : LocationLoader} {moduleType eventType : String}
    {moduleId : UInt16} {args : List String}
    (h : loader.load c moduleType moduleId eventType args = .ok loader') :
    loader' =
      (recordChanges c .location moduleType moduleId eventType args).foldl LocationLoader.enter loader := by
  unfold load at h
  unfold recordChanges
  by_cases hmodule : moduleType ≠ "nem"
  · rw [if_pos hmodule, Except.ok.injEq] at h
    rw [if_pos hmodule, List.foldl_nil, h]
  · rw [if_neg hmodule, bind_eq_ok_iff] at h
    obtain ⟨reading, hread, h⟩ := h
    rw [if_neg hmodule, ← Except.ok.inj h]
    dsimp only
    rw [hread]
    cases reading <;> rfl

theorem readPathloss_kind {src : UInt16} {arg : String} {change : Change}
    (h : readPathloss c src arg = .ok change) : change.kind = .pathloss := by
  unfold readPathloss at h
  split at h
  · simp only [bind_eq_ok_iff, guard_eq_ok_iff] at h
    obtain ⟨dst, -, forward, -, reverse, -, -, h⟩ := h
    rw [← Except.ok.inj h]
    rfl
  · cases h

theorem readFrequency_kind {dst src : UInt16} {parameter : String} {change : Change}
    (h : readFrequency c dst src parameter = .ok change) : change.kind = .pathlossEx := by
  unfold readFrequency at h
  split at h
  · simp only [bind_eq_ok_iff, guard_eq_ok_iff] at h
    obtain ⟨-, f, -, forward, -, reverse, -, h⟩ := h
    rw [← Except.ok.inj h]
    rfl
  · cases h

theorem PathlossLoader.load_eq {loader loader' : PathlossLoader} {moduleType : String} {moduleId : UInt16}
    {args : List String} (h : loader.load c moduleType moduleId args = .ok loader') (eventType : String) :
    loader' =
      (recordChanges c .pathloss moduleType moduleId eventType args).foldl PathlossLoader.enter loader := by
  unfold load at h
  unfold recordChanges
  by_cases hmodule : moduleType ≠ "nem"
  · rw [if_pos hmodule, Except.ok.injEq] at h
    rw [if_pos hmodule, List.foldl_nil, h]
  · rw [if_neg hmodule, guard_eq_ok_iff] at h
    rw [if_neg hmodule]
    refine foldlM_ok_eq_foldl_flatMap ?_ h.2
    intro x arg y hstep
    obtain ⟨change, hread, hentered⟩ := exists_of_bind_eq_ok hstep
    rw [mapError_eq_ok_iff] at hread
    rw [hread, ← Except.ok.inj hentered]
    rfl

theorem PathlossExLoader.load_eq {loader loader' : PathlossExLoader} {moduleType : String}
    {moduleId : UInt16} {args : List String} (h : loader.load c moduleType moduleId args = .ok loader') (eventType : String) :
    loader' =
      (recordChanges c .pathlossEx moduleType moduleId eventType args).foldl PathlossExLoader.enter loader := by
  unfold load at h
  unfold recordChanges
  by_cases hmodule : moduleType ≠ "nem"
  · rw [if_pos hmodule, Except.ok.injEq] at h
    rw [if_pos hmodule, List.foldl_nil, h]
  · rw [if_neg hmodule, guard_eq_ok_iff] at h
    rw [if_neg hmodule]
    refine foldlM_ok_eq_foldl_flatMap ?_ h.2
    intro x arg y hstep
    unfold addArg at hstep
    unfold frequencyChanges
    cases hparts : parts ',' arg with
    | nil =>
        rw [hparts] at hstep
        cases hstep
    | cons dest parameters =>
        rw [hparts] at hstep
        obtain ⟨dst, hdst, hloop⟩ := exists_of_bind_eq_ok hstep
        rw [mapError_eq_ok_iff] at hdst
        dsimp only
        rw [hdst]
        refine foldlM_ok_eq_foldl_flatMap ?_ hloop
        intro x parameter y hstep
        obtain ⟨change, hread, hentered⟩ := exists_of_bind_eq_ok hstep
        rw [mapError_eq_ok_iff] at hread
        rw [hread, ← Except.ok.inj hentered]
        rfl

/-- A record is about what its loader is for. -/
theorem recordChanges_kind {kind : LoaderKind} {moduleType eventType : String} {moduleId : UInt16}
    {args : List String} {change : Change}
    (h : change ∈ recordChanges c kind moduleType moduleId eventType args) : change.kind = kind := by
  unfold recordChanges at h
  by_cases hmodule : moduleType ≠ "nem"
  · rw [if_pos hmodule] at h
    exact absurd h List.not_mem_nil
  rw [if_neg hmodule] at h
  cases kind with
  | location =>
      obtain ⟨reading, -, rfl⟩ := Option.map_eq_some_iff.mp (Option.mem_toList.mp h)
      rfl
  | pathloss =>
      obtain ⟨arg, -, hread⟩ := List.mem_flatMap.mp h
      exact readPathloss_kind (toOption_eq_some_iff.mp (Option.mem_toList.mp hread))
  | pathlossEx =>
      obtain ⟨arg, -, hread⟩ := List.mem_flatMap.mp h
      unfold frequencyChanges at hread
      cases hparts : parts ',' arg with
      | nil =>
          rw [hparts] at hread
          exact absurd hread List.not_mem_nil
      | cons dest parameters =>
          rw [hparts] at hread
          dsimp only at hread
          cases hdst : (readDestination c "LoaderPathlossEx" dest).toOption with
          | none =>
              rw [hdst] at hread
              exact absurd hread List.not_mem_nil
          | some dst =>
              rw [hdst] at hread
              obtain ⟨parameter, -, hread⟩ := List.mem_flatMap.mp hread
              exact readFrequency_kind (toOption_eq_some_iff.mp (Option.mem_toList.mp hread))

/-- Changes that one loader takes, and the others leave alone. -/
theorem Loaders.foldl_enter {α : Type} (put : α → Loaders) {enterOne : α → Change → α}
    {changes : List Change} (h : ∀ x, ∀ change ∈ changes, (put x).enter change = put (enterOne x change))
    (x : α) :
    changes.foldl enter (put x) = put (changes.foldl enterOne x) := by
  refine List.foldl_rel (r := fun loaders x => loaders = put x) rfl ?_
  rintro change hmem loaders x rfl
  exact h x change hmem

/-- **An accepted record** enters its changes, one after the other. -/
theorem Loaders.load_eq {loaders loaders' : Loaders} {kind : LoaderKind} {moduleType eventType : String}
    {moduleId : UInt16} {args : List String}
    (h : loaders.load c kind moduleType moduleId eventType args = some loaders') :
    loaders' = (recordChanges c kind moduleType moduleId eventType args).foldl enter loaders := by
  have hkind : ∀ change ∈ recordChanges c kind moduleType moduleId eventType args, change.kind = kind :=
    fun _ => recordChanges_kind
  cases kind with
  | location =>
      obtain ⟨loader, hload, rfl⟩ := exists_of_toOption_map h
      rw [LocationLoader.load_eq hload]
      refine (foldl_enter (fun loader => { loaders with location := loader }) ?_ loaders.location).symm
      intro x change hmem
      cases change with
      | place => rfl
      | _ => cases hkind _ hmem
  | pathloss =>
      obtain ⟨loader, hload, rfl⟩ := exists_of_toOption_map h
      rw [PathlossLoader.load_eq hload eventType]
      refine (foldl_enter (fun loader => { loaders with pathloss := loader }) ?_ loaders.pathloss).symm
      intro x change hmem
      cases change with
      | pathloss => rfl
      | _ => cases hkind _ hmem
  | pathlossEx =>
      obtain ⟨loader, hload, rfl⟩ := exists_of_toOption_map h
      rw [PathlossExLoader.load_eq hload eventType]
      refine (foldl_enter (fun loader => { loaders with pathlossEx := loader }) ?_ loaders.pathlossEx).symm
      intro x change hmem
      cases change with
      | pathlossEx => rfl
      | _ => cases hkind _ hmem

end

end Emane.Eel
