import Mathlib
import Emane.Lib.Collector
import Emane.Lib.Fragments

set_option autoImplicit false

/-! # Cutting queued items into parts

A sender keeps numbered items in queues, hands out parts of them and forgets an item when it is
dropped or all of it was handed out. `Cutting` says how a part is made, `CutTo k i o ps` that the
parts `ps` are the successive cuts of item `i` with key `k` up to offset `o`.

`Inv` is the invariant of the queues and of their history: the parts of each item are such cuts, and
an entry still queued continues where they end. `Inv.add`, `Inv.drop` and `Inv.cut` are the three
things a sender may do. From the invariant, `exists_plan` completes the cuts of every item, which
makes the items the messages of a collector.
-/

namespace Emane.Lib

/-- How items of type `I` with keys of type `K` are cut into parts of type `P`. A part is made from
the item, an offset, an index and a size; `clip` is the index of the `n`-th part, and `place` is
where a receiver puts a part. -/
structure Cutting (K I P γ β : Type*) where
  bytes : I → List β
  piece : K → I → (offset index size : ℕ) → P
  clip : ℕ → ℕ
  owner : P → K
  place : P → ℕ × γ
  data : γ → List β
  owner_piece : ∀ k i o n s, owner (piece k i o n s) = k
  place_piece : ∀ k i o n s, (place (piece k i o n s)).1 = o
  data_piece : ∀ k i o n s, data (place (piece k i o n s)).2 = (bytes i).extract o (o + s)

namespace Cutting

section

variable {K I P γ β : Type*} (c : Cutting K I P γ β)

/-- The parts `ps` are the successive cuts of an item up to `offset`. Only the single part of an
empty item is empty. -/
inductive CutTo (k : K) (i : I) : ℕ → List P → Prop
  | start : CutTo k i 0 []
  | cut {offset : ℕ} {ps : List P} (size : ℕ) : CutTo k i offset ps →
      0 < size ∨ c.bytes i = [] ∧ ps = [] → offset + size ≤ (c.bytes i).length →
      CutTo k i (offset + size) (ps ++ [c.piece k i offset (c.clip ps.length) size])

variable {c}

namespace CutTo

variable {k : K} {i : I} {offset : ℕ} {ps : List P}

theorem offset_le (h : c.CutTo k i offset ps) : offset ≤ (c.bytes i).length := by
  cases h with
  | start => exact Nat.zero_le _
  | cut size _ _ hle => exact hle

/-- The parts, joined, are the item up to `offset`. -/
theorem joined_eq (h : c.CutTo k i offset ps) :
    joined c.data (ps.map c.place) = (c.bytes i).take offset := by
  induction h with
  | start => simp [joined]
  | @cut offset ps size hcut hsize hle ih =>
      rw [List.map_append, joined_append, ih]
      simp only [joined, List.map_cons, List.map_nil, List.flatMap_cons, List.flatMap_nil,
        List.append_nil, c.data_piece, List.extract_eq_take_drop, Nat.add_sub_cancel_left]
      exact List.take_add.symm

theorem length_joined (h : c.CutTo k i offset ps) :
    (joined c.data (ps.map c.place)).length = offset := by
  rw [h.joined_eq, List.length_take]
  exact Nat.min_eq_left h.offset_le

/-- The offset is determined by the parts. -/
theorem offset_eq {offset' : ℕ} (h : c.CutTo k i offset ps) (h' : c.CutTo k i offset' ps) :
    offset = offset' := h.length_joined.symm.trans h'.length_joined

/-- The parts of an item that is not empty tile it. -/
theorem tiles (h : c.CutTo k i offset ps) (hne : c.bytes i ≠ []) :
    Tiles c.data 0 (ps.map c.place) := by
  induction h with
  | start => trivial
  | @cut offset ps size hcut hsize hle ih =>
      have hpos : 0 < size := hsize.resolve_right fun hempty => hne hempty.1
      rw [List.map_append, tiles_append, hcut.length_joined]
      refine ⟨ih, ?_, ?_, trivial⟩
      · rw [c.place_piece, Nat.zero_add]
      · rw [c.data_piece, ← List.length_pos_iff, List.extract_eq_take_drop, List.length_take,
          List.length_drop]
        omega

/-- Each part of an item that is not empty takes an element at least. -/
theorem length_le (h : c.CutTo k i offset ps) (hne : c.bytes i ≠ []) : ps.length ≤ offset := by
  induction h with
  | start => exact le_rfl
  | cut size _ hsize _ ih =>
      have hpos : 0 < size := hsize.resolve_right fun hempty => hne hempty.1
      rw [List.length_append, List.length_singleton]
      omega

/-- The part at position `n` is the one with index `clip n`; it ends before `offset`, or at it if it
is the last. -/
theorem of_getElem? (h : c.CutTo k i offset ps) : ∀ n p, ps[n]? = some p →
    ∃ o s, p = c.piece k i o (c.clip n) s ∧ o + s ≤ offset ∧ (o = 0 → n = 0) ∧
      (o + s = offset → n + 1 = ps.length) := by
  induction h with
  | start => simp
  | @cut offset ps size hcut hsize hle ih =>
      intro n p hp
      rw [List.length_append, List.length_singleton]
      rcases Nat.lt_or_ge n ps.length with hn | hn
      · rw [List.getElem?_append_left hn] at hp
        obtain ⟨o, s, rfl, hend, hfirst, hlast⟩ := ih n p hp
        refine ⟨o, s, rfl, by omega, hfirst, fun heq => ?_⟩
        -- an earlier part does not end where the new one does, for the new one is not empty
        have hne : ps ≠ [] := List.ne_nil_of_length_pos (by omega)
        have hpos : 0 < size := hsize.resolve_right fun hempty => hne hempty.2
        omega
      · rw [List.getElem?_append_right hn] at hp
        obtain rfl : n = ps.length := by
          by_contra hne
          rw [List.getElem?_eq_none (by simp; omega)] at hp
          cases hp
        simp only [Nat.sub_self, List.getElem?_cons_zero, Option.some.injEq] at hp
        refine ⟨offset, size, hp.symm, le_rfl, fun hzero => ?_, fun _ => rfl⟩
        rcases hsize with hpos | ⟨-, hnil⟩
        · have hne : c.bytes i ≠ [] := List.ne_nil_of_length_pos (by omega)
          exact Nat.le_zero.mp (hzero ▸ hcut.length_le hne)
        · rw [hnil, List.length_nil]

/-- Some part ends where the parts end. -/
theorem exists_last (h : c.CutTo k i offset ps) (hne : ps ≠ []) :
    ∃ o n s, c.piece k i o n s ∈ ps ∧ o + s = offset := by
  cases h with
  | start => exact absurd rfl hne
  | cut size _ _ _ => exact ⟨_, _, size, List.mem_append_right _ (List.mem_singleton_self _), rfl⟩

/-- A part that begins and ends with the parts is the only one. -/
theorem eq_singleton (h : c.CutTo k i offset ps) {p : P} (hp : p ∈ ps)
    (hwhole : ∀ o n s, p = c.piece k i o n s → o + s ≤ offset → o = 0 ∧ o + s = offset) :
    ps = [p] := by
  obtain ⟨n, hn⟩ := List.getElem?_of_mem hp
  obtain ⟨o, s, rfl, hle, hfirst, hlast⟩ := h.of_getElem? n p hn
  obtain ⟨hzero, hend⟩ := hwhole o _ s rfl hle
  obtain rfl := hfirst hzero
  obtain ⟨q, rfl⟩ := List.length_eq_one_iff.mp (hlast hend).symm
  rw [List.getElem?_cons_zero, Option.some.injEq] at hn
  rw [hn]

/-- No part occurs twice. -/
theorem nodup (h : c.CutTo k i offset ps) : ps.Nodup := by
  by_cases hempty : c.bytes i = []
  · cases h with
    | start => exact List.nodup_nil
    | @cut offset ps size _ hsize hle =>
        -- an empty item has one part
        have hnil : ps = [] := by
          rcases hsize with hpos | hempty
          · simp only [hempty, List.length_nil] at hle
            omega
          · exact hempty.2
        rw [hnil]
        exact List.nodup_singleton _
  · refine List.Nodup.of_map c.place ?_
    exact (h.tiles hempty).pairwise.imp fun hlt heq => by
      rw [heq] at hlt
      exact Nat.lt_irrefl _ hlt

/-- Something is left of an item: it can be cut to the end. -/
theorem finish (h : c.CutTo k i offset ps) (hrest : ps = [] ∨ offset < (c.bytes i).length) :
    c.CutTo k i (c.bytes i).length
      (ps ++ [c.piece k i offset (c.clip ps.length) ((c.bytes i).length - offset)]) := by
  have hle := h.offset_le
  have hsize : 0 < (c.bytes i).length - offset ∨ c.bytes i = [] ∧ ps = [] := by
    rcases Nat.eq_zero_or_pos ((c.bytes i).length - offset) with hzero | hpos
    · have hnil := hrest.resolve_right (by omega)
      subst hnil
      have hoffset : offset = 0 := h.length_joined.symm
      exact Or.inr ⟨List.eq_nil_of_length_eq_zero (by omega), rfl⟩
    · exact Or.inl hpos
  have hcut := h.cut _ hsize (by omega)
  rwa [Nat.add_sub_cancel' hle] at hcut

end CutTo

end

/-! ## The queues and their history -/

/-- What an entry of a queue says: which item it is, and where its next part starts. -/
structure Entry (K I : Type*) where
  key : K
  item : I
  offset : ℕ
  index : ℕ

section

variable {K I P γ β : Type*} [DecidableEq K] (c : Cutting K I P γ β)

/-- The item with key `k`. -/
def itemOf (made : List (K × I)) (k : K) : Option I := (made.find? fun e => e.1 = k).map Prod.snd

/-- The parts with key `k`. -/
def partsOf (ps : List P) (k : K) : List P := ps.filter fun p => c.owner p = k

variable {c}

theorem partsOf_append (ps qs : List P) (k : K) :
    c.partsOf (ps ++ qs) k = c.partsOf ps k ++ c.partsOf qs k :=
  List.filter_append ..

theorem mem_partsOf {ps : List P} {k : K} {p : P} : p ∈ c.partsOf ps k ↔ p ∈ ps ∧ c.owner p = k := by
  simp [partsOf]

theorem partsOf_eq_nil {ps : List P} {k : K} (h : ∀ p ∈ ps, c.owner p ≠ k) : c.partsOf ps k = [] := by
  simpa [partsOf, List.filter_eq_nil_iff] using h

theorem partsOf_concat_self (ps : List P) (k : K) (i : I) (o n s : ℕ) :
    c.partsOf (ps ++ [c.piece k i o n s]) k = c.partsOf ps k ++ [c.piece k i o n s] := by
  rw [partsOf_append]
  simp [partsOf, c.owner_piece]

theorem partsOf_concat_other (ps : List P) {k k' : K} (i : I) (o n s : ℕ) (h : k' ≠ k) :
    c.partsOf (ps ++ [c.piece k' i o n s]) k = c.partsOf ps k := by
  have hnil : c.partsOf [c.piece k' i o n s] k = [] :=
    partsOf_eq_nil (by simpa [c.owner_piece] using h)
  rw [partsOf_append, hnil, List.append_nil]

variable (c)

/-- An entry that continues where the parts of its item end; something is left of the item. -/
structure Pending (made : List (K × I)) (produced : List P) (e : Entry K I) : Prop where
  mem : (e.key, e.item) ∈ made
  cut : c.CutTo e.key e.item e.offset (c.partsOf produced e.key)
  index : e.index = c.clip (c.partsOf produced e.key).length
  rest : c.partsOf produced e.key = [] ∨ e.offset < (c.bytes e.item).length

variable {Q E : Type*}

/-- **The invariant of queues `queues` that were given the items `made` and have handed out the parts
`produced`.** The entries are read by `view`. -/
structure Inv (view : E → Entry K I) (queues : Q → List E) (made : List (K × I))
    (produced : List P) : Prop where
  nodup : (made.map Prod.fst).Nodup
  known : ∀ p ∈ produced, c.owner p ∈ made.map Prod.fst
  allCut : ∀ e ∈ made, ∃ o, c.CutTo e.1 e.2 o (c.partsOf produced e.1)
  pending : ∀ q, ∀ t ∈ queues q, c.Pending made produced (view t)
  distinct : ∀ q, (queues q).Pairwise fun t t' => (view t).key ≠ (view t').key
  disjoint : ∀ q q', q ≠ q' → ∀ t ∈ queues q, ∀ t' ∈ queues q', (view t).key ≠ (view t').key

variable {c}

theorem Pending.append_other {made : List (K × I)} {produced : List P} {e : Entry K I}
    (h : c.Pending made produced e) {k : K} (i : I) (o n s : ℕ) (hk : k ≠ e.key) :
    c.Pending made (produced ++ [c.piece k i o n s]) e := by
  have heq := partsOf_concat_other (c := c) produced i o n s hk
  constructor
  · exact h.mem
  · rw [heq]
    exact h.cut
  · rw [heq]
    exact h.index
  · rw [heq]
    exact h.rest

/-- An entry with nothing left is that of an empty item. -/
theorem Pending.bytes_eq_nil {made : List (K × I)} {produced : List P} {e : Entry K I}
    (h : c.Pending made produced e) (hend : (c.bytes e.item).length ≤ e.offset) :
    c.bytes e.item = [] := by
  have hnil := h.rest.resolve_right (not_lt.mpr hend)
  have hcut := h.cut
  rw [hnil] at hcut
  have hzero : e.offset = 0 := hcut.length_joined.symm
  exact List.eq_nil_of_length_eq_zero (by omega)

namespace Inv

variable {view : E → Entry K I} {queues : Q → List E} {made : List (K × I)} {produced : List P}

theorem empty : c.Inv view (fun _ : Q => []) [] [] where
  nodup := List.nodup_nil
  known := by simp
  allCut := by simp
  pending := by simp
  distinct := by simp
  disjoint := by simp

/-- The key of an item tells it from the others. -/
theorem inj (h : c.Inv view queues made produced) {e e' : K × I} (he : e ∈ made) (he' : e' ∈ made)
    (heq : e.1 = e'.1) : e = e' := List.inj_on_of_nodup_map h.nodup he he' heq

theorem itemOf_eq (h : c.Inv view queues made produced) {k : K} {i : I} (hi : (k, i) ∈ made) :
    itemOf made k = some i := by
  unfold itemOf
  cases hfind : made.find? fun e => e.1 = k with
  | none => exact absurd (List.find?_eq_none.mp hfind (k, i) hi) (by simp)
  | some e =>
      have hkey : e.1 = k := by simpa using List.find?_some hfind
      rw [h.inj (List.mem_of_find?_eq_some hfind) hi hkey]
      rfl

variable [DecidableEq Q]

/-- The parts of the invariant that speak about one queue and about two, after a change of queue `q`
to entries whose keys were in it. -/
theorem distinct_update (h : c.Inv view queues made produced) {q : Q} {queue : List E}
    (hsub : (queue.map fun t => (view t).key).Sublist ((queues q).map fun t => (view t).key)) :
    (∀ q', (Function.update queues q queue q').Pairwise fun t t' => (view t).key ≠ (view t').key) ∧
      ∀ q₁ q₂, q₁ ≠ q₂ → ∀ t ∈ Function.update queues q queue q₁,
        ∀ t' ∈ Function.update queues q queue q₂, (view t).key ≠ (view t').key := by
  have hmem : ∀ t ∈ queue, ∃ t₀ ∈ queues q, (view t₀).key = (view t).key := by
    intro t ht
    exact List.mem_map.mp (hsub.subset (List.mem_map_of_mem ht))
  constructor
  · intro q'
    by_cases hq : q' = q
    · subst hq
      rw [Function.update_self]
      exact List.pairwise_map.mp ((List.pairwise_map.mpr (h.distinct q')).sublist hsub)
    · rw [Function.update_of_ne hq]
      exact h.distinct q'
  · intro q₁ q₂ hne t ht t' ht'
    by_cases h₁ : q₁ = q
    · subst h₁
      rw [Function.update_self] at ht
      rw [Function.update_of_ne hne.symm] at ht'
      obtain ⟨t₀, ht₀, hkey⟩ := hmem t ht
      exact hkey ▸ h.disjoint q₁ q₂ hne t₀ ht₀ t' ht'
    · rw [Function.update_of_ne h₁] at ht
      by_cases h₂ : q₂ = q
      · subst h₂
        rw [Function.update_self] at ht'
        obtain ⟨t₀, ht₀, hkey⟩ := hmem t' ht'
        exact hkey ▸ h.disjoint q₁ q₂ hne t ht t₀ ht₀
      · rw [Function.update_of_ne h₂] at ht'
        exact h.disjoint q₁ q₂ hne t ht t' ht'

/-- **Entries may leave a queue.** -/
theorem drop (h : c.Inv view queues made produced) {q : Q} {queue : List E}
    (hsub : queue.Sublist (queues q)) :
    c.Inv view (Function.update queues q queue) made produced := by
  obtain ⟨hdistinct, hdisjoint⟩ := h.distinct_update (hsub.map fun t => (view t).key)
  refine ⟨h.nodup, h.known, h.allCut, ?_, hdistinct, hdisjoint⟩
  intro q' t ht
  by_cases hq : q' = q
  · subst hq
    rw [Function.update_self] at ht
    exact h.pending q' t (hsub.subset ht)
  · rw [Function.update_of_ne hq] at ht
    exact h.pending q' t ht

/-- **A new item joins a queue** under a key that no item has. -/
theorem add (h : c.Inv view queues made produced) {q : Q} {k : K} {i : I} {e : E}
    (hnew : k ∉ made.map Prod.fst) (hview : view e = ⟨k, i, 0, c.clip 0⟩) :
    c.Inv view (Function.update queues q (queues q ++ [e])) (made ++ [(k, i)]) produced := by
  have hunsent : c.partsOf produced k = [] :=
    partsOf_eq_nil fun p hp heq => hnew (heq ▸ h.known p hp)
  have hold : ∀ q', ∀ t ∈ queues q', c.Pending (made ++ [(k, i)]) produced (view t) := by
    intro q' t ht
    have ht := h.pending q' t ht
    exact ⟨List.mem_append_left _ ht.mem, ht.cut, ht.index, ht.rest⟩
  have hother : ∀ q', ∀ t ∈ queues q', (view t).key ≠ (view e).key := by
    intro q' t ht heq
    rw [hview] at heq
    refine hnew ?_
    change (view t).key = k at heq
    rw [← heq]
    exact List.mem_map_of_mem (h.pending q' t ht).mem
  have hmem : ∀ q' t, t ∈ Function.update queues q (queues q ++ [e]) q' →
      t ∈ queues q' ∨ q' = q ∧ t = e := by
    intro q' t ht
    by_cases hq : q' = q
    · subst hq
      rw [Function.update_self, List.mem_append, List.mem_singleton] at ht
      exact ht.imp id fun ht => ⟨rfl, ht⟩
    · rw [Function.update_of_ne hq] at ht
      exact Or.inl ht
  constructor
  · rw [List.map_append, List.nodup_append]
    refine ⟨h.nodup, List.nodup_singleton _, ?_⟩
    intro a ha b hb heq
    rw [List.map_singleton, List.mem_singleton] at hb
    rw [heq, hb] at ha
    exact hnew ha
  · intro p hp
    exact List.map_append ▸ List.mem_append_left _ (h.known p hp)
  · intro e' he'
    rcases List.mem_append.mp he' with he' | he'
    · exact h.allCut e' he'
    · rw [List.mem_singleton.mp he', hunsent]
      exact ⟨0, CutTo.start⟩
  · intro q' t ht
    rcases hmem q' t ht with ht | ⟨-, rfl⟩
    · exact hold q' t ht
    · rw [hview]
      refine ⟨List.mem_append_right _ (List.mem_singleton_self _), ?_, ?_, Or.inl hunsent⟩
      · rw [hunsent]
        exact CutTo.start
      · rw [hunsent]
        rfl
  · intro q'
    by_cases hq : q' = q
    · subst hq
      rw [Function.update_self, List.pairwise_append]
      refine ⟨h.distinct q', List.pairwise_singleton .., ?_⟩
      intro t ht t' ht'
      rw [List.mem_singleton.mp ht']
      exact hother q' t ht
    · rw [Function.update_of_ne hq]
      exact h.distinct q'
  · intro q₁ q₂ hne t ht t' ht'
    rcases hmem q₁ t ht with h₁ | ⟨h₁, rfl⟩ <;> rcases hmem q₂ t' ht' with h₂ | ⟨h₂, rfl⟩
    · exact h.disjoint q₁ q₂ hne t h₁ t' h₂
    · exact hother q₁ t h₁
    · exact (hother q₂ t' h₂).symm
    · exact absurd (h₁.trans h₂.symm) hne

/-- **The next part of an entry is handed out.** The entry leaves its queue, or stays (as the one
element of `stays`) and continues after the part. -/
theorem cut (h : c.Inv view queues made produced) {q : Q} {before after stays : List E} {e : E}
    (hqueue : queues q = before ++ e :: after) {size : ℕ}
    (hsize : 0 < size ∨ c.bytes (view e).item = [])
    (hle : (view e).offset + size ≤ (c.bytes (view e).item).length)
    (hlength : stays.length ≤ 1)
    (hstays : ∀ t ∈ stays, (view e).offset + size < (c.bytes (view e).item).length ∧
      view t = ⟨(view e).key, (view e).item, (view e).offset + size,
        c.clip ((c.partsOf produced (view e).key).length + 1)⟩) :
    c.Inv view (Function.update queues q (before ++ stays ++ after)) made
      (produced ++ [c.piece (view e).key (view e).item (view e).offset (view e).index size]) := by
  have he := h.pending q e (by simp [hqueue])
  -- the parts of the item, with the new one
  have hparts : c.partsOf (produced ++
        [c.piece (view e).key (view e).item (view e).offset (view e).index size]) (view e).key =
      c.partsOf produced (view e).key ++ [c.piece (view e).key (view e).item (view e).offset
        (c.clip (c.partsOf produced (view e).key).length) size] := by
    rw [partsOf_concat_self, he.index]
  have hcut : c.CutTo (view e).key (view e).item ((view e).offset + size)
      (c.partsOf (produced ++
        [c.piece (view e).key (view e).item (view e).offset (view e).index size]) (view e).key) := by
    rw [hparts]
    refine he.cut.cut size ?_ hle
    rcases hsize with hpos | hempty
    · exact Or.inl hpos
    · exact Or.inr ⟨hempty, he.rest.resolve_right (by simp [hempty])⟩
  have hkeys : ∀ t ∈ stays, (view t).key = (view e).key := fun t ht => by rw [(hstays t ht).2]
  have hsub : ((before ++ stays ++ after).map fun t => (view t).key).Sublist
      ((queues q).map fun t => (view t).key) := by
    rw [hqueue, List.append_assoc, List.map_append, List.map_append, List.map_append, List.map_cons]
    refine List.Sublist.append (List.Sublist.refl _) ?_
    match stays, hlength, hkeys with
    | [], _, _ => exact List.sublist_cons_self ..
    | [t], _, hkeys => simp [hkeys]
  obtain ⟨hdistinct, hdisjoint⟩ := h.distinct_update hsub
  refine ⟨h.nodup, ?_, ?_, ?_, hdistinct, hdisjoint⟩
  · intro p hp
    rcases List.mem_append.mp hp with hp | hp
    · exact h.known p hp
    · rw [List.mem_singleton.mp hp, c.owner_piece]
      exact List.mem_map_of_mem he.mem
  · intro e' he'
    by_cases hkey : (view e).key = e'.1
    · obtain rfl := h.inj he.mem he' hkey
      exact ⟨_, hcut⟩
    · rw [partsOf_concat_other _ _ _ _ _ hkey]
      exact h.allCut e' he'
  · -- the other entries of the queue, and of the other queues, have other keys
    have hpair := h.distinct q
    rw [hqueue, List.pairwise_append, List.pairwise_cons] at hpair
    obtain ⟨-, ⟨hafter, -⟩, hbefore⟩ := hpair
    intro q' t ht
    by_cases hq : q' = q
    · subst hq
      rw [Function.update_self, List.mem_append, List.mem_append] at ht
      rcases ht with (ht | ht) | ht
      · exact (h.pending q' t (by simp [hqueue, ht])).append_other _ _ _ _
          (hbefore t ht e List.mem_cons_self).symm
      · obtain ⟨hmore, hview⟩ := hstays t ht
        rw [hview]
        refine ⟨he.mem, hcut, ?_, Or.inr hmore⟩
        rw [hparts, List.length_append, List.length_singleton]
      · exact (h.pending q' t (by simp [hqueue, ht])).append_other _ _ _ _ (hafter t ht)
    · rw [Function.update_of_ne hq] at ht
      exact (h.pending q' t ht).append_other _ _ _ _
        (h.disjoint q q' (Ne.symm hq) e (by simp [hqueue]) t ht)

end Inv

/-! ## Complete cuts -/

variable (c)

/-- All of the item with key `k` was handed out. -/
def Finished (made : List (K × I)) (produced : List P) (k : K) : Prop :=
  ∃ i, (k, i) ∈ made ∧ c.partsOf produced k ≠ [] ∧
    c.CutTo k i (c.bytes i).length (c.partsOf produced k)

/-- A complete cut of every item, which continues the parts handed out so far. -/
structure Plan (made : List (K × I)) (produced : List P) (plan : K → List P) : Prop where
  cut : ∀ e ∈ made, c.CutTo e.1 e.2 (c.bytes e.2).length (plan e.1)
  ne_nil : ∀ e ∈ made, plan e.1 ≠ []
  begins : ∀ e ∈ made, c.partsOf produced e.1 <+: plan e.1
  done : ∀ k, c.Finished made produced k → plan k = c.partsOf produced k
  unknown : ∀ k, k ∉ made.map Prod.fst → plan k = []

variable {c} {view : E → Entry K I} {queues : Q → List E} {made : List (K × I)} {produced : List P}

/-- The parts of an item can be continued to a complete cut. -/
theorem Inv.exists_cut (h : c.Inv view queues made produced) {e : K × I} (he : e ∈ made) :
    ∃ ps, c.CutTo e.1 e.2 (c.bytes e.2).length ps ∧ ps ≠ [] ∧ c.partsOf produced e.1 <+: ps ∧
      (c.Finished made produced e.1 → ps = c.partsOf produced e.1) := by
  obtain ⟨o, ho⟩ := h.allCut e he
  by_cases hrest : c.partsOf produced e.1 = [] ∨ o < (c.bytes e.2).length
  · refine ⟨_, ho.finish hrest, by simp, List.prefix_append .., ?_⟩
    rintro ⟨i, hi, hne, hcut⟩
    -- a finished item has nothing left
    obtain rfl : i = e.2 := congrArg Prod.snd (h.inj hi he rfl)
    exact absurd (ho.offset_eq hcut) (hrest.resolve_left hne).ne
  · obtain ⟨hne, hge⟩ := not_or.mp hrest
    obtain rfl : o = (c.bytes e.2).length := le_antisymm ho.offset_le (not_lt.mp hge)
    exact ⟨_, ho, hne, List.prefix_refl _, fun _ => rfl⟩

theorem Inv.exists_plan (h : c.Inv view queues made produced) : ∃ plan, c.Plan made produced plan := by
  have hone : ∀ k, ∃ ps : List P,
      (∀ e ∈ made, e.1 = k → c.CutTo e.1 e.2 (c.bytes e.2).length ps ∧ ps ≠ [] ∧
        c.partsOf produced e.1 <+: ps ∧
        (c.Finished made produced e.1 → ps = c.partsOf produced e.1)) ∧
      (k ∉ made.map Prod.fst → ps = []) := by
    intro k
    by_cases hk : k ∈ made.map Prod.fst
    · obtain ⟨e, he, rfl⟩ := List.mem_map.mp hk
      obtain ⟨ps, hps⟩ := h.exists_cut he
      refine ⟨ps, fun e' he' heq => ?_, fun hnot => absurd hk hnot⟩
      rw [h.inj he' he heq]
      exact hps
    · exact ⟨[], fun e he heq => absurd (heq ▸ List.mem_map_of_mem he) hk, fun _ => rfl⟩
  choose plan hplan using hone
  refine ⟨plan, ?_, ?_, ?_, ?_, fun k hk => (hplan k).2 hk⟩
  · exact fun e he => ((hplan e.1).1 e he rfl).1
  · exact fun e he => ((hplan e.1).1 e he rfl).2.1
  · exact fun e he => ((hplan e.1).1 e he rfl).2.2.1
  · intro k hfinished
    obtain ⟨i, hi, -⟩ := id hfinished
    exact ((hplan k).1 (k, i) hi rfl).2.2.2 hfinished

namespace Plan

variable {plan : K → List P}

theorem owner_of_mem (h : c.Plan made produced plan) {k : K} {p : P} (hp : p ∈ plan k) :
    c.owner p = k := by
  by_cases hk : k ∈ made.map Prod.fst
  · obtain ⟨e, he, rfl⟩ := List.mem_map.mp hk
    obtain ⟨n, hn⟩ := List.getElem?_of_mem hp
    obtain ⟨o, s, rfl, -⟩ := (h.cut e he).of_getElem? n p hn
    exact c.owner_piece ..
  · rw [h.unknown k hk] at hp
    cases hp

/-- The collector whose messages are the items and whose parts are their cuts. -/
def collector [DecidableEq P] (h : c.Plan made produced plan) : Collector K P where
  owner := c.owner
  whole k := (plan k).toFinset
  owner_of_mem hp := h.owner_of_mem (List.mem_toFinset.mp hp)

/-- A part that was handed out is a part of an item. -/
theorem mem_plan (h : c.Plan made produced plan) (hinv : c.Inv view queues made produced) {p : P}
    (hp : p ∈ produced) : ∃ i, (c.owner p, i) ∈ made ∧ p ∈ plan (c.owner p) := by
  obtain ⟨e, he, hkey⟩ := List.mem_map.mp (hinv.known p hp)
  refine ⟨e.2, hkey ▸ he, ?_⟩
  rw [← hkey]
  exact (h.begins e he).subset (mem_partsOf.mpr ⟨hp, hkey.symm⟩)

end Plan

end

end Cutting

end Emane.Lib
