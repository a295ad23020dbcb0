import Mathlib

set_option autoImplicit false

/-! # Runs of a partial step function

A system is a step function `step : σ → α → Option σ` (`none` is a failed step). `runSteps` is a
whole run, `RunMeets step cond s as` says that every step of the run starts in a state that meets
`cond`. `run_invariant` is the rule the safety results use: an invariant over the past inputs
(newest first) that holds at the start and that every step meeting `cond` can take and keeps, holds
at the end of every such run, and the run does not fail. `completed_run_invariant` is its form for
runs that are known not to fail, `runSteps_keeps` the form without history and condition, and
`runSteps_rel` the rule for the runs of two systems side by side. `throughout_iff_of_keeps` is the
rule for a total step function and a property that it keeps under an exact condition.

`foldlM_ok_induction` is the rule for a loop that may stop with an error, and `Avoids` the rules for
computations that never end with a certain one.
-/

namespace Emane.Lib

section

variable {σ α : Type*}

/-- The run over the inputs `as`, in order. -/
def runSteps (step : σ → α → Option σ) (s : σ) (as : List α) : Option σ := as.foldlM step s

/-- Every step of the run starts in a state and with an input that meet `cond`. -/
def RunMeets (step : σ → α → Option σ) (cond : σ → α → Prop) : σ → List α → Prop
  | _, [] => True
  | s, a :: as => cond s a ∧ ∀ s', step s a = some s' → RunMeets step cond s' as

theorem runSteps_nil (step : σ → α → Option σ) (s : σ) : runSteps step s [] = some s := rfl

theorem runSteps_cons (step : σ → α → Option σ) (s : σ) (a : α) (as : List α) :
    runSteps step s (a :: as) = (step s a).bind (fun s' => runSteps step s' as) := rfl

/-- One run after another. -/
theorem runSteps_append {step : σ → α → Option σ} {s s₁ s₂ : σ} {as bs : List α}
    (h₁ : runSteps step s as = some s₁) (h₂ : runSteps step s₁ bs = some s₂) :
    runSteps step s (as ++ bs) = some s₂ := by
  unfold runSteps at *
  rw [List.foldlM_append, h₁]
  exact h₂

/-- The condition can be checked along a concrete run. -/
instance decidableRunMeets (step : σ → α → Option σ) (cond : σ → α → Prop)
    [∀ s a, Decidable (cond s a)] : ∀ s as, Decidable (RunMeets step cond s as)
  | _, [] => isTrue trivial
  | s, a :: as =>
      match h : step s a with
      | none => decidable_of_iff (cond s a) (by simp [RunMeets, h])
      | some s' =>
          have := decidableRunMeets step cond s' as
          decidable_of_iff (cond s a ∧ RunMeets step cond s' as) (by simp [RunMeets, h])

/-- A property that the tail of a history inherits is inherited by every older part of it. -/
theorem legal_of_append {legal : List α → Prop} (hlegal : ∀ a past, legal (a :: past) → legal past) :
    ∀ newer past : List α, legal (newer ++ past) → legal past
  | [], _, h => h
  | a :: newer, past, h => legal_of_append hlegal newer past (hlegal a (newer ++ past) h)

/-- **The invariant rule.** `I` relates the past inputs, newest first, to the state; `legal` is a
property of histories that every part of a legal history has. -/
theorem run_invariant {step : σ → α → Option σ} {cond : σ → α → Prop} (legal : List α → Prop)
    {I : List α → σ → Prop} (hlegal : ∀ a past, legal (a :: past) → legal past)
    (hstep : ∀ past a s, legal (a :: past) → I past s → cond s a →
      ∃ s', step s a = some s' ∧ I (a :: past) s') :
    ∀ (as past : List α) (s : σ), legal (as.reverse ++ past) → I past s →
      RunMeets step cond s as → ∃ s', runSteps step s as = some s' ∧ I (as.reverse ++ past) s' := by
  intro as
  induction as with
  | nil =>
      intro past s _ hI _
      exact ⟨s, rfl, hI⟩
  | cons a as ih =>
      intro past s hL hI hmeets
      obtain ⟨hcond, hrest⟩ := hmeets
      have hL' : legal (as.reverse ++ a :: past) := by simpa using hL
      obtain ⟨s₁, hs₁, hI₁⟩ := hstep past a s (legal_of_append hlegal _ _ hL') hI hcond
      obtain ⟨s', hs', hI'⟩ := ih (a :: past) s₁ hL' hI₁ (hrest s₁ hs₁)
      refine ⟨s', ?_, ?_⟩
      · rw [runSteps_cons, hs₁]
        exact hs'
      · simpa using hI'

/-- The rule for runs that are known to complete: the step may fail. -/
theorem completed_run_invariant {step : σ → α → Option σ} {cond : σ → α → Prop}
    (legal : List α → Prop) {I : List α → σ → Prop}
    (hlegal : ∀ a past, legal (a :: past) → legal past)
    (hstep : ∀ past a s s', legal (a :: past) → I past s → cond s a → step s a = some s' →
      I (a :: past) s') :
    ∀ (as past : List α) (s s' : σ), legal (as.reverse ++ past) → I past s →
      RunMeets step cond s as → runSteps step s as = some s' → I (as.reverse ++ past) s' := by
  intro as
  induction as with
  | nil =>
      intro past s s' _ hI _ hrun
      rw [runSteps_nil, Option.some.injEq] at hrun
      exact hrun ▸ hI
  | cons a as ih =>
      intro past s s' hL hI hmeets hrun
      obtain ⟨hcond, hrest⟩ := hmeets
      have hL' : legal (as.reverse ++ a :: past) := by simpa using hL
      rw [runSteps_cons] at hrun
      obtain ⟨s₁, hs₁, hrun'⟩ := Option.bind_eq_some_iff.mp hrun
      have hI₁ := hstep past a s s₁ (legal_of_append hlegal _ _ hL') hI hcond hs₁
      simpa using ih (a :: past) s₁ s' hL' hI₁ (hrest s₁ hs₁) hrun'

/-- What the steps with the inputs of a run keep holds after it. -/
theorem runSteps_keeps_of_mem {step : σ → α → Option σ} {I : σ → Prop} {as : List α}
    (hstep : ∀ s, ∀ a ∈ as, ∀ s', I s → step s a = some s' → I s') {s s' : σ} (h : I s)
    (hrun : runSteps step s as = some s') : I s' := by
  induction as generalizing s with
  | nil =>
      cases hrun
      exact h
  | cons a as ih =>
      rw [runSteps_cons] at hrun
      obtain ⟨s₁, hs₁, hrest⟩ := Option.bind_eq_some_iff.mp hrun
      exact ih (fun s b hb => hstep s b (List.mem_cons_of_mem a hb))
        (hstep s a List.mem_cons_self s₁ h hs₁) hrest

/-- What every step keeps holds after a run. -/
theorem runSteps_keeps {step : σ → α → Option σ} {I : σ → Prop}
    (hstep : ∀ s a s', I s → step s a = some s' → I s') {as : List α} {s s' : σ} (h : I s)
    (hrun : runSteps step s as = some s') : I s' :=
  runSteps_keeps_of_mem (fun s a _ s' => hstep s a s') h hrun

/-- A condition that always holds. -/
theorem RunMeets.of_forall {step : σ → α → Option σ} {cond : σ → α → Prop} (h : ∀ s a, cond s a) :
    ∀ (s : σ) (as : List α), RunMeets step cond s as
  | _, [] => trivial
  | s, a :: as => ⟨h s a, fun s' _ => RunMeets.of_forall h s' as⟩

/-- The rule without history: a run all of whose steps meet the condition does not fail. -/
theorem RunMeets.completes {step : σ → α → Option σ} {cond : σ → α → Prop} {I : σ → Prop} {s : σ}
    {as : List α} (hmeets : RunMeets step cond s as)
    (hstep : ∀ s, ∀ a ∈ as, I s → cond s a → ∃ s', step s a = some s' ∧ I s') (h : I s) :
    ∃ s', runSteps step s as = some s' ∧ I s' := by
  induction as generalizing s with
  | nil => exact ⟨s, rfl, h⟩
  | cons a as ih =>
      obtain ⟨hcond, hrest⟩ := hmeets
      obtain ⟨s₁, hs₁, h₁⟩ := hstep s a List.mem_cons_self h hcond
      obtain ⟨s', hs', h'⟩ := ih (hrest s₁ hs₁)
        (fun s b hb => hstep s b (List.mem_cons_of_mem a hb)) h₁
      refine ⟨s', ?_, h'⟩
      rw [runSteps_cons, hs₁]
      exact hs'

/-- The first part of a run meets the condition too. -/
theorem RunMeets.of_append {step : σ → α → Option σ} {cond : σ → α → Prop} {s : σ} {as bs : List α}
    (h : RunMeets step cond s (as ++ bs)) : RunMeets step cond s as := by
  induction as generalizing s with
  | nil => trivial
  | cons a as ih => exact ⟨h.1, fun s' hs' => ih (h.2 s' hs')⟩

/-- What every step that meets the condition keeps holds after a completed run of such steps. -/
theorem RunMeets.keeps {step : σ → α → Option σ} {cond : σ → α → Prop} {I : σ → Prop} {s s' : σ}
    {as : List α} (hmeets : RunMeets step cond s as)
    (hstep : ∀ s a s', I s → cond s a → step s a = some s' → I s') (h : I s)
    (hrun : runSteps step s as = some s') : I s' :=
  completed_run_invariant (fun _ => True) (I := fun _ => I) (fun _ _ _ => trivial)
    (fun _ a s s' _ => hstep s a s') as [] s s' trivial h hmeets hrun

/-- A completed run with a step that does not meet the condition, cut at that step. -/
theorem exists_of_not_runMeets {step : σ → α → Option σ} {cond : σ → α → Prop} {as : List α} {s s' : σ}
    (h : ¬ RunMeets step cond s as) (hrun : runSteps step s as = some s') :
    ∃ before a after s₁ s₂, as = before ++ a :: after ∧ runSteps step s before = some s₁ ∧
      ¬ cond s₁ a ∧ step s₁ a = some s₂ ∧ runSteps step s₂ after = some s' := by
  induction as generalizing s with
  | nil => exact absurd trivial h
  | cons a as ih =>
      rw [runSteps_cons] at hrun
      obtain ⟨s₂, hs₂, hrest⟩ := Option.bind_eq_some_iff.mp hrun
      by_cases hcond : cond s a
      · have hlater : ¬ RunMeets step cond s₂ as := by
          refine fun hlater => h ⟨hcond, fun s' hs' => ?_⟩
          rw [hs₂, Option.some.injEq] at hs'
          exact hs' ▸ hlater
        obtain ⟨before, b, after, s₃, s₄, rfl, h₁, h₂, h₃, h₄⟩ := ih hlater hrest
        refine ⟨a :: before, b, after, s₃, s₄, rfl, ?_, h₂, h₃, h₄⟩
        rw [runSteps_cons, hs₂]
        exact h₁
      · exact ⟨[], a, as, s, s₂, rfl, rfl, hcond, hs₂, hrest⟩

/-- Two systems whose steps keep a relation and fail together: their runs do. -/
theorem runSteps_rel {τ : Type*} {step : σ → α → Option σ} {step' : τ → α → Option τ}
    {R : σ → τ → Prop} (hstep : ∀ s t a, R s t → Option.Rel R (step s a) (step' t a)) (as : List α)
    {s : σ} {t : τ} (h : R s t) : Option.Rel R (runSteps step s as) (runSteps step' t as) := by
  induction as generalizing s t with
  | nil => exact .some h
  | cons a as ih =>
      rw [runSteps_cons, runSteps_cons]
      have hrel := hstep s t a h
      generalize step s a = x, step' t a = y at hrel
      cases hrel with
      | none => exact .none
      | some h₁ => exact ih h₁

/-! ## Runs of a total step function -/

/-- Every step of the run starts in a state and with an input that meet `cond`. -/
def StepsMeet (step : σ → α → σ) (cond : σ → α → Prop) : σ → List α → Prop
  | _, [] => True
  | s, a :: as => cond s a ∧ StepsMeet step cond (step s a) as

/-- `P` holds in every state of the run, the first and the last one included. -/
def Throughout (step : σ → α → σ) (P : σ → Prop) : σ → List α → Prop
  | s, [] => P s
  | s, a :: as => P s ∧ Throughout step P (step s a) as

theorem Throughout.first {step : σ → α → σ} {P : σ → Prop} {s : σ} {as : List α}
    (h : Throughout step P s as) : P s := by
  cases as with
  | nil => exact h
  | cons a as => exact h.1

instance StepsMeet.decidable (step : σ → α → σ) (cond : σ → α → Prop) [∀ s a, Decidable (cond s a)] :
    (s : σ) → (as : List α) → Decidable (StepsMeet step cond s as)
  | _, [] => isTrue trivial
  | s, a :: as =>
      have := StepsMeet.decidable step cond (step s a) as
      inferInstanceAs (Decidable (cond s a ∧ StepsMeet step cond (step s a) as))

instance Throughout.decidable (step : σ → α → σ) (P : σ → Prop) [DecidablePred P] :
    (s : σ) → (as : List α) → Decidable (Throughout step P s as)
  | s, [] => inferInstanceAs (Decidable (P s))
  | s, a :: as =>
      have := Throughout.decidable step P (step s a) as
      inferInstanceAs (Decidable (P s ∧ Throughout step P (step s a) as))

/-- What is kept by the steps that meet the condition holds throughout a run of such steps. -/
theorem StepsMeet.throughout {step : σ → α → σ} {cond : σ → α → Prop} {P : σ → Prop}
    (hstep : ∀ s a, P s → cond s a → P (step s a)) {s : σ} (h : P s) {as : List α}
    (hmeets : StepsMeet step cond s as) : Throughout step P s as := by
  induction as generalizing s with
  | nil => exact h
  | cons a as ih => exact ⟨h, ih (hstep s a h hmeets.1) hmeets.2⟩

theorem Throughout.imp {step : σ → α → σ} {P Q : σ → Prop} (hPQ : ∀ s, P s → Q s) {s : σ} {as : List α}
    (h : Throughout step P s as) : Throughout step Q s as := by
  induction as generalizing s with
  | nil => exact hPQ s h
  | cons a as ih => exact ⟨hPQ s h.1, ih h.2⟩

/-- **The rule for exact conditions.** The steps that meet `cond` keep `P`, and from a state with `P` no
other step leads to `Q`, which is weaker: then `Q` holds throughout a run exactly if all its steps meet
`cond`. -/
theorem throughout_iff_of_keeps {step : σ → α → σ} {cond : σ → α → Prop} {P Q : σ → Prop}
    (hPQ : ∀ s, P s → Q s) (hkeep : ∀ s a, P s → cond s a → P (step s a))
    (hback : ∀ s a, P s → Q (step s a) → cond s a) {s : σ} (h : P s) (as : List α) :
    Throughout step Q s as ↔ StepsMeet step cond s as := by
  refine ⟨fun hthroughout => ?_, fun hmeets => (hmeets.throughout hkeep h).imp hPQ⟩
  induction as generalizing s with
  | nil => trivial
  | cons a as ih =>
      have hcond := hback s a h hthroughout.2.first
      exact ⟨hcond, ih (hkeep s a h hcond) hthroughout.2⟩

/-- The rule with an invariant `J` of every step, where a step keeps `P` exactly if it meets `cond`. -/
theorem throughout_iff_stepsMeet {step : σ → α → σ} {cond : σ → α → Prop} {J P : σ → Prop}
    (hJ : ∀ s a, J s → J (step s a)) (hP : ∀ s a, J s → P s → (P (step s a) ↔ cond s a)) {s : σ}
    (hs : J s) (h : P s) (as : List α) : Throughout step P s as ↔ StepsMeet step cond s as :=
  throughout_iff_of_keeps (P := fun s => J s ∧ P s) (fun _ h => h.2)
    (fun s a h hcond => ⟨hJ s a h.1, (hP s a h.1 h.2).mpr hcond⟩)
    (fun s a h hstep => (hP s a h.1 h.2).mp hstep) ⟨hs, h⟩ as

/-! ## Loops that may stop with an error -/

theorem exists_of_bind_eq_ok.{u, v} {ε : Type u} {α β : Type v} {x : Except ε α} {g : α → Except ε β}
    {b : β} (h : x >>= g = .ok b) : ∃ a, x = .ok a ∧ g a = .ok b := by
  cases x with
  | error e => cases h
  | ok a => exact ⟨a, rfl, h⟩

theorem bind_eq_ok_iff.{u, v} {ε : Type u} {α β : Type v} {x : Except ε α} {g : α → Except ε β} {b : β} :
    x >>= g = .ok b ↔ ∃ a, x = .ok a ∧ g a = .ok b := by
  constructor
  · exact exists_of_bind_eq_ok
  · rintro ⟨a, rfl, hg⟩
    exact hg

theorem mapError_eq_ok_iff {ε ε' α : Type*} {g : ε → ε'} {x : Except ε α} {a : α} :
    x.mapError g = .ok a ↔ x = .ok a := by
  cases x with
  | error e => simp [Except.mapError]
  | ok b => simp [Except.mapError]

theorem toOption_eq_some_iff {ε α : Type*} {x : Except ε α} {a : α} : x.toOption = some a ↔ x = .ok a := by
  cases x with
  | error e => simp [Except.toOption]
  | ok b => simp [Except.toOption]

theorem exists_of_toOption_map {ε α β : Type*} {x : Except ε α} {g : α → β} {b : β}
    (h : x.toOption.map g = some b) : ∃ a, x = .ok a ∧ g a = b := by
  obtain ⟨a, ha, hb⟩ := Option.map_eq_some_iff.mp h
  exact ⟨a, toOption_eq_some_iff.mp ha, hb⟩

theorem guard_eq_ok_iff.{u, v} {ε : Type u} {α : Type v} {c : Prop} [Decidable c] {e : ε}
    {k : Except ε α} {a : α} : (if c then .error e else k) = .ok a ↔ ¬ c ∧ k = .ok a := by
  split
  · next hc => simp [hc]
  · next hc => simp [hc]

variable {ε : Type*} {f : σ → α → Except ε σ}

/-- What a loop that completes ensures, by induction over the inputs it has handled. -/
theorem foldlM_ok_induction {motive : List α → σ → Prop} {s : σ} (hinit : motive [] s)
    (hstep : ∀ as a x y, motive as x → f x a = .ok y → motive (as ++ [a]) y) :
    ∀ (as : List α) (s' : σ), as.foldlM f s = .ok s' → motive as s' := by
  intro as
  induction as using List.reverseRecOn with
  | nil =>
      intro s' hrun
      cases hrun
      exact hinit
  | append_singleton as a ih =>
      intro s' hrun
      rw [List.foldlM_append] at hrun
      obtain ⟨x, hx, hlast⟩ := exists_of_bind_eq_ok hrun
      obtain ⟨y, hy, hdone⟩ := exists_of_bind_eq_ok hlast
      cases hdone
      exact hstep as a x _ (ih x hx) hy

/-- Each step of a loop that completes has completed. -/
theorem exists_step_of_foldlM_ok {as : List α} {s s' : σ} (hrun : as.foldlM f s = .ok s') {a : α}
    (ha : a ∈ as) : ∃ x y, f x a = .ok y := by
  refine foldlM_ok_induction (motive := fun as _ => ∀ a ∈ as, ∃ x y, f x a = .ok y) ?_ ?_ as s' hrun a ha
  · exact fun a ha => absurd ha List.not_mem_nil
  · intro as b x y ih hstep a ha
    rcases List.mem_append.mp ha with ha | ha
    · exact ih a ha
    · exact ⟨x, y, List.mem_singleton.mp ha ▸ hstep⟩

/-- **A loop whose steps enter what they read** enters, if it completes, all that is read. -/
theorem foldlM_ok_eq_foldl_flatMap {ρ : Type*} {read : α → List ρ} {enter : σ → ρ → σ}
    (hstep : ∀ x a y, f x a = .ok y → y = (read a).foldl enter x) {as : List α} {s s' : σ}
    (hrun : as.foldlM f s = .ok s') : s' = (as.flatMap read).foldl enter s := by
  refine foldlM_ok_induction (motive := fun as x => x = (as.flatMap read).foldl enter s) rfl ?_ as s' hrun
  intro as a x y hx hy
  rw [List.flatMap_append, List.foldl_append, ← hx, List.flatMap_singleton]
  exact hstep x a y hy

/-- A computation that does not end with the error `e`, and whose result meets `Q`. -/
def Avoids (e : ε) (Q : α → Prop) : Except ε α → Prop
  | .error e' => e' ≠ e
  | .ok a => Q a

theorem Avoids.of_ok {e : ε} {Q : α → Prop} {x : Except ε α} (h : Avoids e Q x) {a : α}
    (hx : x = .ok a) : Q a := by
  subst hx
  exact h

theorem Avoids.ne_error {e : ε} {Q : α → Prop} {x : Except ε α} (h : Avoids e Q x) : x ≠ .error e := by
  rintro rfl
  exact h rfl

theorem Avoids.bind.{u, v} {ε : Type u} {α β : Type v} {e : ε} {Q : α → Prop} {R : β → Prop}
    {x : Except ε α} {g : α → Except ε β} (h : Avoids e Q x) (hg : ∀ a, Q a → Avoids e R (g a)) :
    Avoids e R (x >>= g) := by
  cases x with
  | error e' => exact h
  | ok a => exact hg a h

/-- A loop whose steps avoid an error and keep an invariant. -/
theorem Avoids.foldlM {e : ε} {I : σ → Prop} {as : List α}
    (hstep : ∀ x, ∀ a ∈ as, I x → Avoids e I (f x a)) {s : σ} (hinit : I s) :
    Avoids e I (as.foldlM f s) := by
  induction as generalizing s with
  | nil => exact hinit
  | cons a as ih =>
      rw [List.foldlM_cons]
      refine (hstep s a List.mem_cons_self hinit).bind fun y hy => ?_
      exact ih (fun x b hb => hstep x b (List.mem_cons_of_mem a hb)) hy

end

end Emane.Lib
