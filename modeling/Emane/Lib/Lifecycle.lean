import Mathlib
import Emane.Lib.Run

set_option autoImplicit false

/-! # Components that are started and stopped

A manager starts and stops a component and delivers callbacks to it. It starts only what is stopped and
stops only what is started; a start can fail. Callbacks may still come when the component is stopped.

`Component.Keeps` collects what a component has to do for a property of its stopped states and one of
its running states, and `Component.Keeps.run` is the rule: then both hold in every run, and no run fails.
-/

namespace Emane.Lib

variable {M C : Type*}

/-- What a component does when its manager calls it. A callback may fail. -/
structure Component (M C : Type*) where
  start : M → Bool → M
  stop : M → M
  callback : M → C → Option M

/-- A component as its manager keeps it. -/
structure Layer (M : Type*) where
  state : M
  started : Bool
  deriving DecidableEq

inductive LayerOp (C : Type*)
  | start (loaded : Bool)
  | stop
  | callback (callback : C)
  deriving DecidableEq

namespace Component

variable (component : Component M C)

/-- A step of the manager, `none` if a callback fails. -/
def step (layer : Layer M) : LayerOp C → Option (Layer M)
  | .start loaded =>
      if layer.started then some layer else some ⟨component.start layer.state loaded, loaded⟩
  | .stop => if layer.started then some ⟨component.stop layer.state, false⟩ else some layer
  | .callback callback =>
      (component.callback layer.state callback).map fun state => { layer with state }

/-- The component keeps `Stopped` while it is stopped and `Running` while it runs. -/
structure Keeps (Stopped Running : M → Prop) : Prop where
  failed : ∀ m, Stopped m → Stopped (component.start m false)
  start : ∀ m, Stopped m → Running (component.start m true)
  stop : ∀ m, Running m → Stopped (component.stop m)
  idle : ∀ m callback, Stopped m → ∃ m', component.callback m callback = some m' ∧ Stopped m'
  callback : ∀ m callback, Running m → ∃ m', component.callback m callback = some m' ∧ Running m'

variable {component} {Stopped Running : M → Prop}

/-- The property of the states of a layer. -/
structure Sound (Stopped Running : M → Prop) (layer : Layer M) : Prop where
  stopped : layer.started = false → Stopped layer.state
  running : layer.started = true → Running layer.state

theorem Keeps.step (h : component.Keeps Stopped Running) {layer : Layer M}
    (hlayer : Sound Stopped Running layer) (op : LayerOp C) :
    ∃ layer', component.step layer op = some layer' ∧ Sound Stopped Running layer' := by
  obtain ⟨state, started⟩ := layer
  cases started with
  | false =>
      have hstopped : Stopped state := hlayer.stopped rfl
      cases op with
      | start loaded =>
          refine ⟨_, rfl, ?_⟩
          cases loaded with
          | false => exact ⟨fun _ => h.failed state hstopped, nofun⟩
          | true => exact ⟨nofun, fun _ => h.start state hstopped⟩
      | stop => exact ⟨_, rfl, hlayer⟩
      | callback callback =>
          obtain ⟨state', hstate', hkept⟩ := h.idle state callback hstopped
          exact ⟨⟨state', false⟩, by rw [Component.step, hstate']; rfl, fun _ => hkept, nofun⟩
  | true =>
      have hrunning : Running state := hlayer.running rfl
      cases op with
      | start loaded => exact ⟨_, rfl, hlayer⟩
      | stop => exact ⟨_, rfl, fun _ => h.stop state hrunning, nofun⟩
      | callback callback =>
          obtain ⟨state', hstate', hkept⟩ := h.callback state callback hrunning
          exact ⟨⟨state', true⟩, by rw [Component.step, hstate']; rfl, nofun, fun _ => hkept⟩

/-- **The rule for components**, from a stopped state on. -/
theorem Keeps.run (h : component.Keeps Stopped Running) {m : M} (hm : Stopped m)
    (ops : List (LayerOp C)) :
    ∃ layer, runSteps component.step ⟨m, false⟩ ops = some layer ∧ Sound Stopped Running layer :=
  (RunMeets.of_forall (fun _ _ => trivial) _ _).completes (fun _ op _ hlayer _ => h.step hlayer op)
    ⟨fun _ => hm, nofun⟩

end Component

end Emane.Lib
