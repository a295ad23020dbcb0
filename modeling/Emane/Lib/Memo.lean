import Mathlib

set_option autoImplicit false

/-! # Memo tables

A fallible computation `compute` of a request is remembered under a `key` of the request, when it
succeeds. A table is `Sound` for the requests `past` when each entry is the result of one of them; a
lookup keeps this (`Sound.memo`). The result of a lookup is the one of the computation when every
past request of the same key `Agrees` with the new one (`Sound.memo_fst`): the key need not determine
the result of all requests, only of those that are made.
-/

namespace Emane.Lib

open Std

variable {ι κ β ε : Type} (key : ι → κ) (compute : ι → Except ε β)

/-- What the earlier request left behind is right for the later one. -/
def Agrees (earlier later : ι) : Prop :=
  key earlier = key later → ∀ v, compute earlier = .ok v → compute later = .ok v

variable [Ord κ] [TransOrd κ]

/-- A lookup with the flag that says whether the table had the result. -/
def memo (cache : ExtTreeMap κ β) (i : ι) : Except ε (β × Bool) × ExtTreeMap κ β :=
  match cache[key i]? with
  | some v => (.ok (v, true), cache)
  | none =>
      match compute i with
      | .ok v => (.ok (v, false), cache.insert (key i) v)
      | .error e => (.error e, cache)

/-- Every entry is the result of a past request. -/
def Sound (past : List ι) (cache : ExtTreeMap κ β) : Prop :=
  ∀ k v, cache[k]? = some v → ∃ e ∈ past, key e = k ∧ compute e = .ok v

variable {key compute}

theorem sound_empty : Sound key compute [] (∅ : ExtTreeMap κ β) := by
  intro k v h
  rw [ExtTreeMap.getElem?_empty] at h
  cases h

theorem Sound.cons {past : List ι} {cache : ExtTreeMap κ β} (h : Sound key compute past cache)
    (i : ι) : Sound key compute (i :: past) cache := by
  intro k v hkv
  obtain ⟨e, he, hkey, hval⟩ := h k v hkv
  exact ⟨e, List.mem_cons_of_mem i he, hkey, hval⟩

/-- **A lookup** leaves a sound table. -/
theorem Sound.memo [LawfulEqOrd κ] {past : List ι} {cache : ExtTreeMap κ β}
    (h : Sound key compute past cache) (i : ι) :
    Sound key compute (i :: past) (memo key compute cache i).2 := by
  unfold Emane.Lib.memo
  split
  · exact h.cons i
  · split
    · next v hv =>
        intro k w hkw
        rw [ExtTreeMap.getElem?_insert] at hkw
        split at hkw
        · next hk =>
            cases hkw
            exact ⟨i, List.mem_cons_self, LawfulEqOrd.compare_eq_iff_eq.mp hk, hv⟩
        · exact h.cons i k w hkw
    · exact h.cons i

/-- **A lookup** whose past agrees with it gives the result of the computation. -/
theorem Sound.memo_fst {past : List ι} {cache : ExtTreeMap κ β} (h : Sound key compute past cache)
    {i : ι} (hagrees : ∀ e ∈ past, Agrees key compute e i) :
    (Emane.Lib.memo key compute cache i).1.map (·.1) = compute i := by
  unfold Emane.Lib.memo
  split
  · next v hv =>
      obtain ⟨e, he, hkey, hval⟩ := h _ v hv
      exact (hagrees e he hkey v hval).symm
  · split
    · next v hv => exact hv.symm
    · next e he => exact he.symm

end Emane.Lib
