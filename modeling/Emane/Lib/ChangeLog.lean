import Mathlib

set_option autoImplicit false

/-! # A list kept by its changes

A list can be kept as the places where its value changes, with the new value. The value at a place is
that of the last change up to there, or a default before all of them (`valueAt`). Values are compared by
a relation `same`, which need not be equality. `Logs` is the invariant of a loop that writes such a log:
a value that is the same as the last one may be left out (`Logs.keep`), any other is recorded
(`Logs.record`).
-/

namespace Emane.Lib

/-- From `index` on, the value is `value`. -/
structure Change (α : Type) where
  index : ℕ
  value : α
  deriving DecidableEq

section

variable {α : Type} (changes : List (Change α)) (default : α)

/-- The value of the last change. -/
def lastValue : α := (changes.getLast?.map Change.value).getD default

/-- The value at a place. -/
def valueAt (i : ℕ) : α := lastValue (changes.filter fun change => change.index ≤ i) default

variable {changes default} {i k : ℕ} {v : α}

@[simp] theorem lastValue_nil : lastValue [] default = default := rfl

@[simp] theorem lastValue_concat : lastValue (changes ++ [⟨k, v⟩]) default = v := by
  simp [lastValue]

/-- Behind all changes, the value stays the last one. -/
theorem valueAt_of_forall (h : ∀ change ∈ changes, change.index ≤ i) :
    valueAt changes default i = lastValue changes default := by
  rw [valueAt, List.filter_eq_self.mpr (by simpa using h)]

/-- A change is not seen before its place. -/
theorem valueAt_concat_of_lt (h : i < k) :
    valueAt (changes ++ [⟨k, v⟩]) default i = valueAt changes default i := by
  have hlater : [(⟨k, v⟩ : Change α)].filter (fun change => change.index ≤ i) = [] := by
    simpa using h
  rw [valueAt, valueAt, List.filter_append, hlater, List.append_nil]

/-- What is predicated of all values of a log, and of the default, holds of the value at a place. -/
theorem valueAt_of_all {P : α → Prop} (hdefault : P default) (h : ∀ change ∈ changes, P change.value) (i : ℕ) :
    P (valueAt changes default i) := by
  unfold valueAt lastValue
  cases hlast : (changes.filter fun change => change.index ≤ i).getLast? with
  | none => exact hdefault
  | some change => exact h change (List.mem_of_mem_filter (List.mem_of_getLast? hlast))

variable (same : α → α → Prop) (default) in
/-- The changes are a log of the values seen. -/
structure Logs (seen : List α) (changes : List (Change α)) : Prop where
  index_lt : ∀ change ∈ changes, change.index < seen.length
  value : ∀ i v, seen[i]? = some v → same (valueAt changes default i) v
  distinct : changes.IsChain fun first second => ¬ same first.value second.value

namespace Logs

variable {same : α → α → Prop} {seen : List α}

theorem nil : Logs default same [] [] where
  index_lt := by simp
  value := by simp
  distinct := List.IsChain.nil

/-- Without a change the last value holds on. -/
theorem keep (h : Logs default same seen changes) (hsame : same (lastValue changes default) v) :
    Logs default same (seen ++ [v]) changes where
  index_lt := by
    intro change hchange
    rw [List.length_append]
    exact Nat.lt_add_right _ (h.index_lt change hchange)
  value := by
    intro i w hw
    rcases Nat.lt_or_ge i seen.length with hlt | hge
    · rw [List.getElem?_append_left hlt] at hw
      exact h.value i w hw
    · rw [List.getElem?_append_right hge, List.getElem?_singleton] at hw
      split at hw
      · cases hw
        rwa [valueAt_of_forall fun change hchange => (h.index_lt change hchange).le.trans hge]
      · cases hw
  distinct := h.distinct

/-- A value that differs is recorded, or another one that is the same. -/
theorem record {w : α} (h : Logs default same seen changes) (hsame : same w v)
    (hdiffers : ¬ same (lastValue changes default) w) :
    Logs default same (seen ++ [v]) (changes ++ [⟨seen.length, w⟩]) where
  index_lt := by
    intro change hchange
    rw [List.length_append, List.length_singleton]
    rcases List.mem_append.mp hchange with hchange | hchange
    · exact Nat.lt_succ_of_lt (h.index_lt change hchange)
    · rw [List.mem_singleton.mp hchange]
      exact Nat.lt_succ_self _
  value := by
    intro i u hu
    rcases Nat.lt_or_ge i seen.length with hlt | hge
    · rw [List.getElem?_append_left hlt] at hu
      rw [valueAt_concat_of_lt hlt]
      exact h.value i u hu
    · rw [List.getElem?_append_right hge, List.getElem?_singleton] at hu
      split at hu
      · cases hu
        have hall : ∀ change ∈ changes ++ [(⟨seen.length, w⟩ : Change α)], change.index ≤ i := by
          intro change hchange
          rcases List.mem_append.mp hchange with hchange | hchange
          · exact (h.index_lt change hchange).le.trans hge
          · rw [List.mem_singleton.mp hchange]
            exact hge
        rwa [valueAt_of_forall hall, lastValue_concat]
      · cases hu
  distinct := by
    rw [List.isChain_append]
    refine ⟨h.distinct, List.IsChain.singleton _, ?_⟩
    intro first hfirst second hsecond
    cases Option.some.inj hsecond
    rw [lastValue, Option.mem_def.mp hfirst] at hdiffers
    exact hdiffers

/-- **The log gives the values back.** -/
theorem forall₂ (h : Logs default same seen changes) :
    List.Forall₂ same ((List.range seen.length).map (valueAt changes default)) seen := by
  rw [List.forall₂_iff_get]
  refine ⟨by simp, ?_⟩
  intro i hi hi'
  have hvalue := h.value i (seen[i]) (List.getElem?_eq_getElem hi')
  simpa using hvalue

end Logs

end

end Emane.Lib
