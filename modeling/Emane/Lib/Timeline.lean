import Mathlib

set_option autoImplicit false

/-! # Timelines

A log of items that come in the order of their times, with cuts: a cut at a time comes after all the items
of this time, and before those of later ones. `Timeline` is the invariant of a log that is written item by
item, with the time of the current items; only these may be without a cut behind them.

`foldlM_reads` is the rule for loops that read the items, and may stop early.
-/

namespace Emane.Lib

/-! ## Loops that read -/

section

variable {σ ε : Type} {α ρ : Type*}

/-- **A loop that reads from its inputs** and may stop early: `I` holds of what was read and the state while
it goes on, `J` when it has stopped. If a step stops, it has read a part of its input. -/
theorem foldlM_reads {f : σ → α → Except (ε × σ) σ} (read : α → List ρ) {I J : List ρ → σ → Prop}
    (hok : ∀ rs a s s', I rs s → f s a = .ok s' → I (rs ++ read a) s')
    (herror : ∀ rs a s e, I rs s → f s a = .error e → ∃ rs', rs' <+: rs ++ read a ∧ J rs' e.2)
    {rs : List ρ} {s : σ} (h : I rs s) (as : List α) :
    (∀ s', as.foldlM f s = .ok s' → I (rs ++ as.flatMap read) s') ∧
      ∀ e, as.foldlM f s = .error e → ∃ rs', rs' <+: rs ++ as.flatMap read ∧ J rs' e.2 := by
  induction as generalizing rs s with
  | nil =>
      refine ⟨fun s' hs' => ?_, fun e he => (by cases he)⟩
      cases hs'
      exact (List.append_nil rs).symm ▸ h
  | cons a as ih =>
      rw [List.foldlM_cons, List.flatMap_cons, ← List.append_assoc]
      cases hstep : f s a with
      | ok s₁ => exact ih (hok rs a s s₁ h hstep)
      | error e =>
          refine ⟨fun s' hs' => (by cases hs'), fun e' he' => ?_⟩
          obtain ⟨rs', hprefix, hJ⟩ := herror rs a s e h hstep
          exact ⟨rs', hprefix.trans (List.prefix_append _ _), Except.error.inj he' ▸ hJ⟩

end

/-! ## The order -/

section

variable {α τ : Type*} [LinearOrder τ] (time : α → τ) (cut : α → Prop)

/-- Of two entries of a log, the first is not later, and earlier if it is a cut. -/
def InOrder (a b : α) : Prop := time a ≤ time b ∧ (cut a → time a < time b)

/-- A log with the time of its current items. -/
structure Timeline (current : Option τ) (log : List α) : Prop where
  ordered : log.Pairwise (InOrder time cut)
  upTo : ∀ a ∈ log, ∃ t ∈ current, time a ≤ t ∧ (cut a → time a < t)
  covered : ∀ a ∈ log, (∃ b ∈ log, cut b ∧ time b = time a) ∨ time a ∈ current

variable {time cut} {current : Option τ} {log : List α}

theorem Timeline.nil : Timeline time cut current [] :=
  ⟨List.Pairwise.nil, fun _ ha => absurd ha List.not_mem_nil, fun _ ha => absurd ha List.not_mem_nil⟩

theorem Timeline.eq_nil (h : Timeline time cut none log) : log = [] := by
  refine List.eq_nil_iff_forall_not_mem.mpr fun a ha => ?_
  obtain ⟨t, ht, -⟩ := h.upTo a ha
  exact absurd ht (by simp)

/-- An item of the current time. -/
theorem Timeline.item {t : τ} (h : Timeline time cut (some t) log) {a : α} (htime : time a = t)
    (ha : ¬ cut a) : Timeline time cut (some t) (log ++ [a]) := by
  have hlast : ∀ b ∈ log, InOrder time cut b a := by
    intro b hb
    obtain ⟨t', ht', hle, hlt⟩ := h.upTo b hb
    obtain rfl := Option.some.inj ht'
    exact ⟨hle.trans_eq htime.symm, fun hcut => (hlt hcut).trans_eq htime.symm⟩
  refine ⟨List.pairwise_append.mpr ⟨h.ordered, List.pairwise_singleton _ _, ?_⟩, ?_, ?_⟩
  · intro b hb a' ha'
    exact List.mem_singleton.mp ha' ▸ hlast b hb
  · intro b hb
    rcases List.mem_append.mp hb with hb | hb
    · exact h.upTo b hb
    · obtain rfl := List.mem_singleton.mp hb
      exact ⟨t, rfl, htime.le, fun hcut => absurd hcut ha⟩
  · intro b hb
    rcases List.mem_append.mp hb with hb | hb
    · exact (h.covered b hb).imp_left fun ⟨c, hc, hcut⟩ => ⟨c, List.mem_append_left _ hc, hcut⟩
    · obtain rfl := List.mem_singleton.mp hb
      exact .inr (congrArg some htime.symm)

/-- A cut at the current time: all items have a cut behind them. -/
theorem Timeline.close {t : τ} (h : Timeline time cut (some t) log) {a : α} (htime : time a = t)
    (ha : cut a) : (log ++ [a]).Pairwise (InOrder time cut) ∧
      ∀ b ∈ log ++ [a], ∃ c ∈ log ++ [a], cut c ∧ time c = time b := by
  constructor
  · refine List.pairwise_append.mpr ⟨h.ordered, List.pairwise_singleton _ _, ?_⟩
    intro b hb a' ha'
    obtain rfl := List.mem_singleton.mp ha'
    obtain ⟨t', ht', hle, hlt⟩ := h.upTo b hb
    obtain rfl := Option.some.inj ht'
    exact ⟨hle.trans_eq htime.symm, fun hcut => (hlt hcut).trans_eq htime.symm⟩
  · intro b hb
    rcases List.mem_append.mp hb with hb | hb
    · rcases h.covered b hb with ⟨c, hc, hcut⟩ | hcurrent
      · exact ⟨c, List.mem_append_left _ hc, hcut⟩
      · exact ⟨a, by simp, ha, htime.trans (Option.some.inj hcurrent)⟩
    · obtain rfl := List.mem_singleton.mp hb
      exact ⟨b, by simp, ha, rfl⟩

/-- **A cut, and a later time** that items may have from then on. -/
theorem Timeline.advance {t t' : τ} (h : Timeline time cut (some t) log) {a : α} (htime : time a = t)
    (ha : cut a) (hlt : t < t') : Timeline time cut (some t') (log ++ [a]) := by
  obtain ⟨hordered, hcovered⟩ := h.close htime ha
  refine ⟨hordered, fun b hb => ⟨t', rfl, ?_⟩, fun b hb => .inl (hcovered b hb)⟩
  have hb' : time b < t' := by
    rcases List.mem_append.mp hb with hb | hb
    · obtain ⟨s, hs, hle, -⟩ := h.upTo b hb
      obtain rfl := Option.some.inj hs
      exact hle.trans_lt hlt
    · obtain rfl := List.mem_singleton.mp hb
      exact htime.trans_lt hlt
  exact ⟨hb'.le, fun _ => hb'⟩

/-- **What a cut divides**: the entries before it are not later, and those behind it are. -/
theorem Timeline.divides {before after : List α} {c : α}
    (h : (before ++ c :: after).Pairwise (InOrder time cut)) (hc : cut c) :
    (∀ a ∈ before, time a ≤ time c) ∧ ∀ a ∈ after, time c < time a := by
  obtain ⟨-, hrest, hbefore⟩ := List.pairwise_append.mp h
  constructor
  · exact fun a ha => (hbefore a ha c List.mem_cons_self).1
  · exact fun a ha => ((List.pairwise_cons.mp hrest).1 a ha).2 hc

end

end Emane.Lib
