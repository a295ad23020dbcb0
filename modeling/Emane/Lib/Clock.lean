import Mathlib
import Emane.Lib.Run

set_option autoImplicit false

/-! # Runs with a clock

The steps of a system read a clock that does not go back. A step begins and finishes at a time;
`Timed` says that the steps of a run follow each other, and `timed_invariant` is the rule for
invariants that speak about the clock; `timed_completes` is its form for a step that may fail.
-/

namespace Emane.Lib

section

variable {σ α : Type*} (begins finishes : α → ℤ)

/-- The steps of a run take place one after the other, from `clock` on. -/
def Timed : ℤ → List α → Prop
  | _, [] => True
  | clock, a :: as => clock ≤ begins a ∧ begins a ≤ finishes a ∧ Timed (finishes a) as

instance decidableTimed : ∀ clock as, Decidable (Timed begins finishes clock as)
  | _, [] => isTrue trivial
  | clock, a :: as =>
      have := decidableTimed (finishes a) as
      inferInstanceAs
        (Decidable (clock ≤ begins a ∧ begins a ≤ finishes a ∧ Timed begins finishes (finishes a) as))

variable {begins finishes} {step : σ → α → σ} {I : ℤ → σ → Prop}

/-- **The invariant rule for runs with a clock**: what every step carries on from the time before it
to the time after it holds at the end of a run. -/
theorem timed_invariant (legal : α → Prop)
    (hstep : ∀ clock s a, legal a → clock ≤ begins a → begins a ≤ finishes a → I clock s →
      I (finishes a) (step s a)) :
    ∀ (as : List α) (clock : ℤ) (s : σ), (∀ a ∈ as, legal a) → Timed begins finishes clock as →
      I clock s → ∃ clock', I clock' (as.foldl step s) := by
  intro as
  induction as with
  | nil =>
      intro clock s _ _ hI
      exact ⟨clock, hI⟩
  | cons a as ih =>
      intro clock s hlegal htimed hI
      obtain ⟨hbegins, hfinishes, hrest⟩ := htimed
      have ha := hstep clock s a (hlegal a List.mem_cons_self) hbegins hfinishes hI
      exact ih (finishes a) (step s a) (fun b hb => hlegal b (List.mem_cons_of_mem a hb)) hrest ha

/-- The rule for a step that may fail: a run with a clock does not fail. -/
theorem timed_completes {step : σ → α → Option σ} (legal : α → Prop)
    (hstep : ∀ clock s a, legal a → clock ≤ begins a → begins a ≤ finishes a → I clock s →
      ∃ s', step s a = some s' ∧ I (finishes a) s') :
    ∀ (as : List α) (clock : ℤ) (s : σ), (∀ a ∈ as, legal a) → Timed begins finishes clock as →
      I clock s → ∃ s' clock', runSteps step s as = some s' ∧ I clock' s' := by
  intro as
  induction as with
  | nil =>
      intro clock s _ _ hI
      exact ⟨s, clock, rfl, hI⟩
  | cons a as ih =>
      intro clock s hlegal htimed hI
      obtain ⟨hbegins, hfinishes, hrest⟩ := htimed
      obtain ⟨s₁, hs₁, hI₁⟩ := hstep clock s a (hlegal a List.mem_cons_self) hbegins hfinishes hI
      obtain ⟨s', clock', hs', hI'⟩ :=
        ih (finishes a) s₁ (fun b hb => hlegal b (List.mem_cons_of_mem a hb)) hrest hI₁
      refine ⟨s', clock', ?_, hI'⟩
      rw [runSteps_cons, hs₁]
      exact hs'

end

end Emane.Lib
