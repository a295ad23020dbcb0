import Mathlib

set_option autoImplicit false

/-! # Loops

The body of a loop is a function that ends each turn with `continue` or `break`. `loop` runs it for at
most so many turns; `loop_spec` is the rule for such loops: with an invariant, and a variant that every
further turn decreases, the loop breaks within the turns that the variant allows. -/

namespace Emane.Lib

/-- How a turn of a loop ends. -/
inductive Turn (σ : Type*)
  /-- `continue` -/
  | again (s : σ)
  /-- `break` -/
  | done (s : σ)

variable {σ : Type*}

/-- The loop with the body `turn`, `none` if it does not break within the turns. -/
def loop (turn : σ → Turn σ) : ℕ → σ → Option σ
  | 0, _ => none
  | turns + 1, s =>
      match turn s with
      | .again s' => loop turn turns s'
      | .done s' => some s'

/-- **The loop rule**: `I` is the invariant, `Q` what holds when the loop breaks. -/
theorem loop_spec (turn : σ → Turn σ) {I Q : σ → Prop} (variant : σ → ℕ)
    (hagain : ∀ s s', I s → turn s = .again s' → I s' ∧ variant s' < variant s)
    (hdone : ∀ s s', I s → turn s = .done s' → Q s') {s : σ} {turns : ℕ} (hI : I s)
    (hturns : variant s < turns) : ∃ s', loop turn turns s = some s' ∧ Q s' := by
  induction turns generalizing s with
  | zero => exact absurd hturns (Nat.not_lt_zero _)
  | succ turns ih =>
      rw [loop]
      cases hturn : turn s with
      | again s' =>
          obtain ⟨hI', hvariant⟩ := hagain s s' hI hturn
          exact ih hI' (by omega)
      | done s' => exact ⟨s', rfl, hdone s s' hI hturn⟩

end Emane.Lib
