import Mathlib

set_option autoImplicit false

/-! # Keys of ordered maps

Facts about `Std.ExtTreeMap` with natural number keys that iterate over a map needs: the key list is
strictly increasing, so it is determined by the set of keys, and a key splits it into the smaller and
the larger ones. For a fallible fold, `foldlM_preserves` carries a reflexive and transitive relation
through it, and `foldlM_view_at` follows the one element with a given key when all others leave what
is viewed alone. The sections that follow are about the entries that a filter removes, about many
entries that are made at once, and undone, about loops over the entries of a map, and about maps of
maps.
-/

namespace Emane.Lib

open Std

section

variable {β γ : Type}

theorem keys_pairwise_lt (t : ExtTreeMap ℕ β) : t.keys.Pairwise (· < ·) := by
  refine t.ordered_keys.imp ?_
  intro a b h
  exact Nat.compare_eq_lt.mp h

/-- Maps with the same keys list them in the same order. -/
theorem keys_eq_of_mem_iff {t : ExtTreeMap ℕ β} {u : ExtTreeMap ℕ γ} (h : ∀ k, k ∈ t ↔ k ∈ u) :
    t.keys = u.keys := by
  have hperm : t.keys.Perm u.keys := by
    rw [List.perm_ext_iff_of_nodup t.nodup_keys u.nodup_keys]
    intro k
    rw [ExtTreeMap.mem_keys, ExtTreeMap.mem_keys, h]
  refine hperm.eq_of_pairwise ?_ (keys_pairwise_lt t) (keys_pairwise_lt u)
  intro a b _ _ hab hba
  omega

/-- A key splits the key list into the smaller and the larger keys. -/
theorem keys_split {t : ExtTreeMap ℕ β} {k : ℕ} (h : k ∈ t) :
    t.keys = t.keys.filter (· < k) ++ k :: t.keys.filter (k < ·) := by
  have hsplit : ∀ l : List ℕ, l.Pairwise (· < ·) → k ∈ l →
      l = l.filter (· < k) ++ k :: l.filter (k < ·) := by
    intro l
    induction l with
    | nil =>
        intro _ hk
        exact absurd hk (by simp)
    | cons a l ih =>
        intro hl hk
        obtain ⟨hal, hl'⟩ := List.pairwise_cons.mp hl
        rcases List.mem_cons.mp hk with rfl | hk'
        · have hlow : l.filter (· < k) = [] := by
            rw [List.filter_eq_nil_iff]
            intro b hb
            have := hal b hb
            simp only [decide_eq_true_eq]
            omega
          have hhigh : l.filter (k < ·) = l := by
            rw [List.filter_eq_self]
            intro b hb
            simpa using hal b hb
          simp [hlow, hhigh]
        · have hak : a < k := hal k hk'
          have hka : ¬ k < a := by omega
          rw [List.filter_cons, List.filter_cons]
          simp only [hak, hka, decide_true, decide_false, if_true, Bool.false_eq_true, if_false]
          rw [List.cons_append, ← ih hl' hk']
  exact hsplit t.keys (keys_pairwise_lt t) (ExtTreeMap.mem_keys.mpr h)

end

/-- A relation that every step keeps is kept by the whole fold. -/
theorem foldlM_preserves {σ α : Type*} {f : σ → α → Option σ} (R : σ → σ → Prop)
    (hrefl : ∀ s, R s s) (htrans : ∀ s₁ s₂ s₃, R s₁ s₂ → R s₂ s₃ → R s₁ s₃)
    (hstep : ∀ s a s', f s a = some s' → R s s') :
    ∀ (as : List α) (s s' : σ), as.foldlM f s = some s' → R s s' := by
  intro as
  induction as with
  | nil =>
      intro s s' h
      rw [List.foldlM_nil, Option.pure_def, Option.some.injEq] at h
      exact h ▸ hrefl s
  | cons a as ih =>
      intro s s' h
      rw [List.foldlM_cons] at h
      obtain ⟨s₁, h₁, h₂⟩ := Option.bind_eq_some_iff.mp h
      exact htrans s s₁ s' (hstep s a s₁ h₁) (ih s₁ s' h₂)

section

variable {σ α κ β : Type*} {f : σ → α → Option σ} (key : α → κ) (view : σ → β) {i : κ}

/-- Elements with other keys leave the view alone. -/
theorem foldlM_view_other (h : ∀ s a s', key a ≠ i → f s a = some s' → view s' = view s) :
    ∀ (as : List α) (s s' : σ), (∀ a ∈ as, key a ≠ i) → as.foldlM f s = some s' →
      view s' = view s := by
  intro as
  induction as with
  | nil =>
      intro s s' _ hrun
      rw [List.foldlM_nil, Option.pure_def, Option.some.injEq] at hrun
      rw [hrun]
  | cons a as ih =>
      intro s s' hne hrun
      rw [List.foldlM_cons] at hrun
      obtain ⟨s₁, h₁, hrun⟩ := Option.bind_eq_some_iff.mp hrun
      rw [ih s₁ s' (fun b hb => hne b (by simp [hb])) hrun, h s a s₁ (hne a (by simp)) h₁]

/-- **The one element with key `i`** decides the view. -/
theorem foldlM_view_at (h : ∀ s a s', key a ≠ i → f s a = some s' → view s' = view s)
    {as : List α} (hnodup : (as.map key).Nodup) {a : α} (ha : a ∈ as) (hkey : key a = i)
    {s s' : σ} (hrun : as.foldlM f s = some s') :
    ∃ s₁ s₂, view s₁ = view s ∧ f s₁ a = some s₂ ∧ view s' = view s₂ := by
  obtain ⟨before, after, rfl⟩ := List.append_of_mem ha
  rw [List.map_append, List.map_cons, List.nodup_append, List.nodup_cons] at hnodup
  obtain ⟨-, ⟨hafter, -⟩, hbefore⟩ := hnodup
  rw [List.foldlM_append] at hrun
  obtain ⟨s₁, h₁, hrun⟩ := Option.bind_eq_some_iff.mp hrun
  rw [List.foldlM_cons] at hrun
  obtain ⟨s₂, h₂, h₃⟩ := Option.bind_eq_some_iff.mp hrun
  refine ⟨s₁, s₂, ?_, h₂, ?_⟩
  · refine foldlM_view_other key view h before s s₁ ?_ h₁
    intro b hb hbi
    exact hbefore (key b) (List.mem_map.mpr ⟨b, hb, rfl⟩) (key a) (by simp) (hbi.trans hkey.symm)
  · refine foldlM_view_other key view h after s₂ s' ?_ h₃
    intro b hb hbi
    exact hafter (List.mem_map.mpr ⟨b, hb, hbi.trans hkey.symm⟩)

end

/-! ## A map as a function of its keys -/

section

variable {α β : Type} [Ord α] [TransOrd α] [LawfulEqOrd α] [DecidableEq α] (t : ExtTreeMap α β) (k : α)

theorem getElem?_insert_eq_update (v : β) :
    (fun a => (t.insert k v)[a]?) = Function.update (fun a => t[a]?) k (some v) := by
  funext a
  rw [ExtTreeMap.getElem?_insert, Function.update_apply]
  simp only [LawfulEqOrd.compare_eq_iff_eq, @eq_comm _ a k]

theorem getElem?_erase_eq_update :
    (fun a => (t.erase k)[a]?) = Function.update (fun a => t[a]?) k none := by
  funext a
  rw [ExtTreeMap.getElem?_erase, Function.update_apply]
  simp only [LawfulEqOrd.compare_eq_iff_eq, @eq_comm _ a k]

end

/-! ## The entries that go -/

section

variable {α β : Type} [Ord α] [TransOrd α] [LawfulEqOrd α] {t : ExtTreeMap α β} {p : α → β → Bool}

/-- The entries of `t` whose keys `u` has not. -/
def removed (t u : ExtTreeMap α β) : ExtTreeMap α β := t.filter fun k _ => !u.contains k

theorem removed_self : removed t t = ∅ := by
  apply ExtTreeMap.ext_getElem?
  intro k
  rw [removed, ExtTreeMap.getElem?_filter', ExtTreeMap.getElem?_empty, Option.filter_eq_none_iff]
  intro v hv
  simp [ExtTreeMap.contains_eq_isSome_getElem?, hv]

/-- What a filter removes is what does not pass it. -/
theorem removed_filter : removed t (t.filter p) = t.filter fun k v => !p k v := by
  apply ExtTreeMap.ext_getElem?
  intro k
  simp only [removed, ExtTreeMap.getElem?_filter', ExtTreeMap.contains_eq_isSome_getElem?]
  cases t[k]? with
  | none => rfl
  | some v => cases hp : p k v <;> simp [Option.filter, hp]

/-- An entry stays or goes. -/
theorem size_filter_add_size_removed : (t.filter p).size + (removed t (t.filter p)).size = t.size := by
  rw [removed_filter]
  simp only [← ExtTreeMap.length_toList, ExtTreeMap.toList_filter]
  exact (List.length_eq_length_filter_add _).symm

end

/-! ## Many entries at once -/

section

variable {α β : Type} [Ord α] [TransOrd α] [LawfulEqOrd α] [DecidableEq α] {t : ExtTreeMap α β}
  {entries : List (α × β)} {k : α}

theorem getElem?_insertMany_of_mem (hnodup : (entries.map Prod.fst).Nodup) {v : β}
    (h : (k, v) ∈ entries) : (t.insertMany entries)[k]? = some v := by
  refine ExtTreeMap.getElem?_insertMany_list_of_mem ReflOrd.compare_self ?_ h
  refine (List.pairwise_map.mp hnodup).imp ?_
  intro a b hne heq
  exact hne (LawfulEqOrd.compare_eq_iff_eq.mp heq)

theorem getElem?_insertMany_of_notMem (h : k ∉ entries.map Prod.fst) :
    (t.insertMany entries)[k]? = t[k]? :=
  ExtTreeMap.getElem?_insertMany_list_of_contains_eq_false (by simpa using h)

/-- Entries that are put back undo what was entered for their keys. -/
theorem insertMany_restore {saved : List (α × β)} (hnodup : (saved.map Prod.fst).Nodup)
    (hsaved : ∀ entry ∈ saved, t[entry.1]? = some entry.2)
    (hcover : ∀ entry ∈ entries, entry.1 ∈ saved.map Prod.fst) :
    (t.insertMany entries).insertMany saved = t := by
  apply ExtTreeMap.ext_getElem?
  intro k
  by_cases hk : k ∈ saved.map Prod.fst
  · obtain ⟨⟨key, v⟩, hmem, rfl⟩ := List.mem_map.mp hk
    rw [getElem?_insertMany_of_mem hnodup hmem, hsaved _ hmem]
  · rw [getElem?_insertMany_of_notMem hk, getElem?_insertMany_of_notMem]
    intro hentered
    obtain ⟨entry, hmem, rfl⟩ := List.mem_map.mp hentered
    exact hk (hcover entry hmem)

end

/-! ## Going through the entries -/

section

variable {α β σ ω : Type} {entries : List (α × β)} (view : σ → α → ω) (f : β → ω → ω) (step : σ → α × β → σ)

/-- Entries with other keys leave what is viewed alone. -/
theorem view_foldl_of_notMem [DecidableEq α]
    (hstep : ∀ s, ∀ e ∈ entries, ∀ a, view (step s e) a = if e.1 = a then f e.2 (view s a) else view s a)
    (s : σ) {a : α} (ha : a ∉ entries.map Prod.fst) : view (entries.foldl step s) a = view s a := by
  induction entries generalizing s with
  | nil => rfl
  | cons e entries ih =>
      rw [List.map_cons, List.mem_cons, not_or] at ha
      rw [List.foldl_cons, ih (fun s e' he' => hstep s e' (List.mem_cons_of_mem _ he')) _ ha.2,
        hstep s e List.mem_cons_self, if_neg (Ne.symm ha.1)]

/-- The entry with the key is the one that counts. -/
theorem view_foldl_of_mem [DecidableEq α]
    (hstep : ∀ s, ∀ e ∈ entries, ∀ a, view (step s e) a = if e.1 = a then f e.2 (view s a) else view s a)
    (hnodup : (entries.map Prod.fst).Nodup) (s : σ) {a : α} {b : β} (hmem : (a, b) ∈ entries) :
    view (entries.foldl step s) a = f b (view s a) := by
  induction entries generalizing s with
  | nil => exact absurd hmem List.not_mem_nil
  | cons e entries ih =>
      obtain ⟨hnotMem, hnodup⟩ := List.nodup_cons.mp hnodup
      have hrest := fun s e' (he' : e' ∈ entries) => hstep s e' (List.mem_cons_of_mem _ he')
      have he := hstep s e List.mem_cons_self a
      rw [List.foldl_cons]
      rcases List.mem_cons.mp hmem with rfl | hmem
      · rw [view_foldl_of_notMem view f step hrest _ hnotMem, he, if_pos rfl]
      · have hne : e.1 ≠ a := fun heq => hnotMem (List.mem_map.mpr ⟨(a, b), hmem, heq.symm⟩)
        rw [ih hrest hnodup _ hmem, he, if_neg hne]

/-- **A loop over the entries of a map**, each of which changes what is viewed at its key. -/
theorem view_foldl_toList [Ord α] [TransOrd α] [LawfulEqOrd α] [DecidableEq α] (t : ExtTreeMap α β)
    (hstep : ∀ s, ∀ e ∈ t.toList, ∀ a, view (step s e) a = if e.1 = a then f e.2 (view s a) else view s a)
    (s : σ) (a : α) : view (t.toList.foldl step s) a = (t[a]?).elim (view s a) fun b => f b (view s a) := by
  cases hget : t[a]? with
  | none =>
      rw [Option.elim_none]
      refine view_foldl_of_notMem view f step hstep s ?_
      rw [ExtTreeMap.map_fst_toList_eq_keys, ExtTreeMap.mem_keys, ExtTreeMap.mem_iff_isSome_getElem?, hget]
      simp
  | some b =>
      rw [Option.elim_some]
      refine view_foldl_of_mem view f step hstep ?_ s (ExtTreeMap.mem_toList_iff_getElem?_eq_some.mpr hget)
      rw [ExtTreeMap.map_fst_toList_eq_keys]
      exact t.nodup_keys

end

/-! ## Maps of maps -/

section

variable {α β γ δ : Type} [Ord α] [TransOrd α] [LawfulEqOrd α] [Ord β] [TransOrd β] [LawfulEqOrd β]

/-- The value for a pair of keys. -/
def getAt? (t : ExtTreeMap α (ExtTreeMap β γ)) (a : α) (b : β) : Option γ := (t[a]?).bind fun u => u[b]?

/-- A value is entered for a pair of keys. -/
def insertAt (t : ExtTreeMap α (ExtTreeMap β γ)) (a : α) (b : β) (c : γ) : ExtTreeMap α (ExtTreeMap β γ) :=
  t.insert a ((t[a]?.getD ∅).insert b c)

theorem getAt?_insertAt [DecidableEq α] [DecidableEq β] (t : ExtTreeMap α (ExtTreeMap β γ)) (a : α) (b : β)
    (c : γ) (a' : α) (b' : β) :
    getAt? (insertAt t a b c) a' b' = if a = a' ∧ b = b' then some c else getAt? t a' b' := by
  unfold getAt? insertAt
  rw [ExtTreeMap.getElem?_insert]
  simp only [LawfulEqOrd.compare_eq_iff_eq]
  by_cases ha : a = a'
  · subst ha
    rw [if_pos rfl, Option.bind_some, ExtTreeMap.getElem?_insert]
    simp only [LawfulEqOrd.compare_eq_iff_eq, true_and]
    cases t[a]? <;> simp
  · rw [if_neg ha, if_neg fun h => ha h.1]

end

end Emane.Lib
