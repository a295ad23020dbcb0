import Mathlib

set_option autoImplicit false

/-! # Values that are reached by name and by handle

A registry keeps values that are reached in two ways: under a name in the store of an owner, and by a
handle, a number that the owner got. `Book` is how programs do it: the stores and the tables of the
handles, one for each kind, both refer to cells of a heap. `Shelf` is what it is for: the values stand in
the stores themselves.

Both are a `Backend`, and `Book.Sound` is the invariant under which the operations of a book are those of
the shelf that it shows (`Book.view`, `Book.Shows`). What it says is that no two entries share a handle or
a cell.
-/

namespace Emane.Lib.Handles

variable {κ N K π ν : Type*}

/-- What a store shows under a name. -/
structure Item (K π ν : Type*) where
  kind : K
  handle : ℕ
  info : π
  value : ν

def Item.mapValue (f : ν → ν) (item : Item K π ν) : Item K π ν := { item with value := f item.value }

/-- The operations of a registry. `add` needs a new handle and a new name, `touch` works by name, `change`
by handle. -/
structure Backend (σ κ N K π ν : Type*) where
  store : σ → κ → List (N × Item K π ν)
  held : σ → K → ℕ → Option ν
  add : σ → κ → N → K → ℕ → π → ν → σ
  change : σ → K → ℕ → (ν → ν) → σ
  touch : σ → κ → N → (ν → ν) → σ
  drop : σ → κ → σ

/-! ## Shelves -/

/-- The values by owner, each with its name. -/
structure Shelf (κ N K π ν : Type*) where
  store : κ → List (N × Item K π ν)

namespace Shelf

variable (s : Shelf κ N K π ν)

def empty : Shelf κ N K π ν := ⟨fun _ => []⟩

def add [DecidableEq κ] (k : κ) (n : N) (kind : K) (handle : ℕ) (info : π) (value : ν) : Shelf κ N K π ν :=
  ⟨Function.update s.store k (s.store k ++ [(n, ⟨kind, handle, info, value⟩)])⟩

def change [DecidableEq K] (kind : K) (handle : ℕ) (f : ν → ν) : Shelf κ N K π ν :=
  ⟨fun k => (s.store k).map fun entry =>
    if entry.2.kind = kind ∧ entry.2.handle = handle then (entry.1, entry.2.mapValue f) else entry⟩

def touch [DecidableEq κ] [DecidableEq N] (k : κ) (n : N) (f : ν → ν) : Shelf κ N K π ν :=
  ⟨fun k' => (s.store k').map fun entry =>
    if k' = k ∧ entry.1 = n then (entry.1, entry.2.mapValue f) else entry⟩

def drop [DecidableEq κ] (k : κ) : Shelf κ N K π ν := ⟨Function.update s.store k []⟩

/-- An item with this handle and this value stands somewhere. -/
def Has (kind : K) (handle : ℕ) (value : ν) : Prop :=
  ∃ k, ∃ entry ∈ s.store k, entry.2.kind = kind ∧ entry.2.handle = handle ∧ entry.2.value = value

open Classical in
/-- The value behind a handle. -/
noncomputable def held (kind : K) (handle : ℕ) : Option ν :=
  if h : ∃ value, s.Has kind handle value then some h.choose else none

/-- The shelves as a backend. -/
noncomputable def backend [DecidableEq κ] [DecidableEq N] [DecidableEq K] :
    Backend (Shelf κ N K π ν) κ N K π ν where
  store := Shelf.store
  held := Shelf.held
  add s := s.add
  change s := s.change
  touch s := s.touch
  drop s := s.drop

end Shelf

/-! ## Books -/

/-- What a store of a book has under a name: a handle and a cell. -/
structure Entry (K π : Type*) where
  kind : K
  handle : ℕ
  cell : ℕ
  info : π

structure Book (κ N K π ν : Type*) where
  stores : κ → List (N × Entry K π)
  handles : K → ℕ → Option ℕ
  heap : ℕ → ν
  /-- the next cell that is not used -/
  fresh : ℕ

namespace Book

variable (b : Book κ N K π ν)

/-- Nothing is registered. -/
def empty (value : ν) : Book κ N K π ν := ⟨fun _ => [], fun _ _ => none, fun _ => value, 0⟩

def item (e : Entry K π) : Item K π ν := ⟨e.kind, e.handle, e.info, b.heap e.cell⟩

/-- The store of an owner, with the values. -/
def store (k : κ) : List (N × Item K π ν) := (b.stores k).map fun entry => (entry.1, b.item entry.2)

/-- The shelf that the book shows. -/
def view : Shelf κ N K π ν := ⟨b.store⟩

def held (kind : K) (handle : ℕ) : Option ν := (b.handles kind handle).map b.heap

def add [DecidableEq κ] [DecidableEq K] (k : κ) (n : N) (kind : K) (handle : ℕ) (info : π) (value : ν) :
    Book κ N K π ν :=
  { stores := Function.update b.stores k (b.stores k ++ [(n, ⟨kind, handle, b.fresh, info⟩)])
    handles := Function.update b.handles kind (Function.update (b.handles kind) handle (some b.fresh))
    heap := Function.update b.heap b.fresh value
    fresh := b.fresh + 1 }

/-- The cell is written, through whatever it was reached. -/
def write (cell : ℕ) (f : ν → ν) : Book κ N K π ν :=
  { b with heap := Function.update b.heap cell (f (b.heap cell)) }

def change (kind : K) (handle : ℕ) (f : ν → ν) : Book κ N K π ν :=
  (b.handles kind handle).elim b fun cell => b.write cell f

def touch [DecidableEq N] (k : κ) (n : N) (f : ν → ν) : Book κ N K π ν :=
  ((b.stores k).find? fun entry => entry.1 = n).elim b fun entry => b.write entry.2.cell f

/-- The store of an owner is removed with the handles in it, each from all the tables that `covers` says. -/
def drop [DecidableEq κ] (covers : K → K → Bool) (k : κ) : Book κ N K π ν :=
  { b with
    stores := Function.update b.stores k []
    handles := fun kind handle =>
      if (b.stores k).any fun entry => entry.2.handle = handle && covers entry.2.kind kind then none
      else b.handles kind handle }

/-- No two entries share a handle or a cell, and the tables of the handles are those of the entries. -/
structure Sound : Prop where
  names : ∀ k, ((b.stores k).map Prod.fst).Nodup
  reached : ∀ kind handle cell, b.handles kind handle = some cell ↔
    ∃ k, ∃ entry ∈ b.stores k, entry.2.kind = kind ∧ entry.2.handle = handle ∧ entry.2.cell = cell
  single : ∀ k, ∀ entry ∈ b.stores k, ∀ k', ∀ entry' ∈ b.stores k',
    entry.2.handle = entry'.2.handle ∨ entry.2.cell = entry'.2.cell → k = k' ∧ entry = entry'
  allocated : ∀ k, ∀ entry ∈ b.stores k, entry.2.cell < b.fresh

theorem sound_empty (value : ν) : (empty value : Book κ N K π ν).Sound where
  names _ := List.nodup_nil
  reached _ _ _ := by simp [empty]
  single _ _ h := by simp [empty] at h
  allocated _ _ h := by simp [empty] at h

variable {b}

/-- A write does not touch the entries. -/
theorem Sound.write (h : b.Sound) (cell : ℕ) (f : ν → ν) : (b.write cell f).Sound :=
  ⟨h.names, h.reached, h.single, h.allocated⟩

/-- **A write through one way is seen through the other**, and nowhere else. -/
theorem Sound.item_write (h : b.Sound) {k k' : κ} {entry entry' : N × Entry K π} (hmem : entry ∈ b.stores k)
    (hmem' : entry' ∈ b.stores k') (f : ν → ν) :
    (b.write entry.2.cell f).item entry'.2 = (b.item entry'.2).mapValue f ∧ k' = k ∧ entry' = entry ∨
      (b.write entry.2.cell f).item entry'.2 = b.item entry'.2 ∧ ¬(k' = k ∧ entry' = entry) := by
  by_cases hcell : entry'.2.cell = entry.2.cell
  · obtain ⟨rfl, rfl⟩ := h.single k' entry' hmem' k entry hmem (.inr hcell)
    exact .inl ⟨by simp [item, Book.write, Item.mapValue], rfl, rfl⟩
  · exact .inr ⟨by simp [item, Book.write, Function.update_of_ne hcell], fun heq => hcell (by rw [heq.2])⟩

/-- A write to the cell of an entry, as it shows in a store. -/
theorem Sound.store_write (h : b.Sound) {k : κ} {entry : N × Entry K π} (hmem : entry ∈ b.stores k)
    (f : ν → ν) (hits : κ → N × Item K π ν → Prop) [∀ k entry, Decidable (hits k entry)]
    (hself : hits k (entry.1, b.item entry.2))
    (hother : ∀ k', ∀ entry' ∈ b.stores k', ¬(k' = k ∧ entry' = entry) → ¬ hits k' (entry'.1, b.item entry'.2))
    (k' : κ) :
    (b.write entry.2.cell f).store k' = (b.store k').map fun item =>
      if hits k' item then (item.1, item.2.mapValue f) else item := by
  show (b.stores k').map _ = ((b.stores k').map _).map _
  rw [List.map_map]
  refine List.map_congr_left fun entry' hmem' => ?_
  rcases h.item_write hmem hmem' f with ⟨hitem, rfl, rfl⟩ | ⟨hitem, hne⟩
  · rw [hitem, Function.comp_apply, if_pos hself]
  · rw [hitem, Function.comp_apply, if_neg (hother k' entry' hmem' hne)]

theorem Sound.change (h : b.Sound) (kind : K) (handle : ℕ) (f : ν → ν) : (b.change kind handle f).Sound := by
  unfold Book.change
  cases b.handles kind handle with
  | none => exact h
  | some cell => exact h.write cell f

/-- Nothing is hit. -/
theorem store_eq_map (b : Book κ N K π ν) (k : κ) (f : ν → ν) (hits : N × Item K π ν → Prop)
    [∀ entry, Decidable (hits entry)]
    (hnone : ∀ entry ∈ b.stores k, ¬ hits (entry.1, b.item entry.2)) :
    b.store k = (b.store k).map fun item => if hits item then (item.1, item.2.mapValue f) else item := by
  show (b.stores k).map _ = ((b.stores k).map _).map _
  rw [List.map_map]
  refine List.map_congr_left fun entry hmem => ?_
  rw [Function.comp_apply, if_neg (hnone entry hmem)]

theorem Sound.view_change [DecidableEq K] (h : b.Sound) (kind : K) (handle : ℕ) (f : ν → ν) :
    (b.change kind handle f).view = b.view.change kind handle f := by
  unfold Book.change
  refine congrArg Shelf.mk (funext fun k' => ?_)
  cases hcell : b.handles kind handle with
  | none =>
      refine store_eq_map b k' f _ fun entry hmem => ?_
      rintro ⟨hkind, hhandle⟩
      have hreached := (h.reached kind handle entry.2.cell).mpr ⟨k', entry, hmem, hkind, hhandle, rfl⟩
      rw [hcell] at hreached
      cases hreached
  | some cell =>
      obtain ⟨k, entry, hmem, hkind, hhandle, rfl⟩ := (h.reached kind handle cell).mp hcell
      refine h.store_write hmem f (fun _ item => item.2.kind = kind ∧ item.2.handle = handle)
        ⟨hkind, hhandle⟩ (fun k' entry' hmem' hne heq => hne ?_) k'
      exact h.single k' entry' hmem' k entry hmem (.inl (heq.2.trans hhandle.symm))

theorem Sound.touch [DecidableEq N] (h : b.Sound) (k : κ) (n : N) (f : ν → ν) : (b.touch k n f).Sound := by
  unfold Book.touch
  cases (b.stores k).find? fun entry => entry.1 = n with
  | none => exact h
  | some entry => exact h.write entry.2.cell f

theorem Sound.view_touch [DecidableEq κ] [DecidableEq N] (h : b.Sound) (k : κ) (n : N) (f : ν → ν) :
    (b.touch k n f).view = b.view.touch k n f := by
  unfold Book.touch
  refine congrArg Shelf.mk (funext fun k' => ?_)
  cases hfind : (b.stores k).find? fun entry => entry.1 = n with
  | none =>
      refine store_eq_map b k' f _ fun entry hmem => ?_
      rintro ⟨rfl, hname⟩
      exact List.find?_eq_none.mp hfind entry hmem (decide_eq_true hname)
  | some entry =>
      have hmem := List.mem_of_find?_eq_some hfind
      have hname : entry.1 = n := by simpa using List.find?_some hfind
      refine h.store_write hmem f (fun k' item => k' = k ∧ item.1 = n) ⟨rfl, hname⟩
        (fun k' entry' hmem' hne heq => hne ⟨heq.1, ?_⟩) k'
      obtain ⟨rfl, hname'⟩ := heq
      exact List.inj_on_of_nodup_map (h.names k') hmem' hmem (hname'.trans hname.symm)

/-- The handle is not in use. -/
def Unused (b : Book κ N K π ν) (handle : ℕ) : Prop :=
  ∀ k, ∀ entry ∈ b.stores k, entry.2.handle ≠ handle

/-- What stands in a store after one more entry. -/
theorem mem_stores_add [DecidableEq κ] [DecidableEq K] {k k' : κ} {n : N} {kind : K} {handle : ℕ} {info : π}
    {value : ν} {entry : N × Entry K π} :
    entry ∈ (b.add k n kind handle info value).stores k' ↔
      entry ∈ b.stores k' ∨ k' = k ∧ entry = (n, ⟨kind, handle, b.fresh, info⟩) := by
  show entry ∈ Function.update b.stores k _ k' ↔ _
  rw [Function.update_apply]
  by_cases hk : k' = k
  · subst hk
    rw [if_pos rfl, List.mem_append, List.mem_singleton]
    simp
  · simp [hk]

theorem Sound.add [DecidableEq κ] [DecidableEq K] (h : b.Sound) {k : κ} {n : N}
    (hname : ∀ entry ∈ b.stores k, entry.1 ≠ n) (kind : K) {handle : ℕ} (hunused : b.Unused handle)
    (info : π) (value : ν) : (b.add k n kind handle info value).Sound where
  names k' := by
    show ((Function.update b.stores k _ k').map Prod.fst).Nodup
    rw [Function.update_apply]
    split
    · rw [List.map_append]
      refine List.Nodup.append (h.names k) (List.nodup_singleton n) ?_
      rintro a ha hn
      obtain ⟨entry, hmem, rfl⟩ := List.mem_map.mp ha
      exact hname entry hmem (List.mem_singleton.mp hn)
    · exact h.names k'
  reached kind' handle' cell := by
    show Function.update b.handles kind _ kind' handle' = _ ↔ _
    by_cases hnew : kind' = kind ∧ handle' = handle
    · obtain ⟨rfl, rfl⟩ := hnew
      rw [Function.update_self, Function.update_self]
      constructor
      · rintro ⟨⟩
        exact ⟨k, _, mem_stores_add.mpr (.inr ⟨rfl, rfl⟩), rfl, rfl, rfl⟩
      · rintro ⟨k', entry, hmem, -, hhandle, rfl⟩
        rcases mem_stores_add.mp hmem with hold | ⟨-, rfl⟩
        · exact absurd hhandle (hunused k' entry hold)
        · rfl
    · have hold : Function.update b.handles kind
          (Function.update (b.handles kind) handle (some b.fresh)) kind' handle' =
            b.handles kind' handle' := by
        rw [Function.update_apply]
        split
        · next hkind =>
            subst hkind
            exact Function.update_of_ne (fun hhandle => hnew ⟨rfl, hhandle⟩) _ _
        · rfl
      rw [hold, h.reached]
      constructor
      · rintro ⟨k', entry, hmem, hentry⟩
        exact ⟨k', entry, mem_stores_add.mpr (.inl hmem), hentry⟩
      · rintro ⟨k', entry, hmem, hkind, hhandle, hcell⟩
        rcases mem_stores_add.mp hmem with hmem | ⟨-, rfl⟩
        · exact ⟨k', entry, hmem, hkind, hhandle, hcell⟩
        · exact absurd ⟨hkind.symm, hhandle.symm⟩ hnew
  single k₁ entry₁ hmem₁ k₂ entry₂ hmem₂ heq := by
    rcases mem_stores_add.mp hmem₁ with hold₁ | ⟨rfl, rfl⟩
    · rcases mem_stores_add.mp hmem₂ with hold₂ | ⟨rfl, rfl⟩
      · exact h.single k₁ entry₁ hold₁ k₂ entry₂ hold₂ heq
      · -- an old entry has neither the new handle nor the new cell
        rcases heq with hhandle | hcell
        · exact absurd hhandle (hunused k₁ entry₁ hold₁)
        · exact absurd hcell (h.allocated k₁ entry₁ hold₁).ne
    · rcases mem_stores_add.mp hmem₂ with hold₂ | ⟨rfl, rfl⟩
      · rcases heq with hhandle | hcell
        · exact absurd hhandle.symm (hunused k₂ entry₂ hold₂)
        · exact absurd hcell.symm (h.allocated k₂ entry₂ hold₂).ne
      · exact ⟨rfl, rfl⟩
  allocated k' entry hmem := by
    rcases mem_stores_add.mp hmem with hold | ⟨-, rfl⟩
    · exact Nat.lt_succ_of_lt (h.allocated k' entry hold)
    · exact Nat.lt_succ_self b.fresh

theorem Sound.view_add [DecidableEq κ] [DecidableEq K] (h : b.Sound) (k : κ) (n : N) (kind : K) (handle : ℕ)
    (info : π) (value : ν) :
    (b.add k n kind handle info value).view = b.view.add k n kind handle info value := by
  refine congrArg Shelf.mk (funext fun k' => ?_)
  have hitem : ∀ k, ∀ entry ∈ b.stores k,
      (b.add k n kind handle info value).item entry.2 = b.item entry.2 := by
    intro k entry hmem
    have hne : entry.2.cell ≠ b.fresh := (h.allocated k entry hmem).ne
    simp [item, Book.add, Function.update_of_ne hne]
  have hold : ∀ k, ((b.stores k).map fun entry =>
      (entry.1, (b.add k n kind handle info value).item entry.2)) = b.store k := fun k =>
    List.map_congr_left fun entry hmem => by rw [hitem k entry hmem]
  show List.map _ (Function.update b.stores k _ k') = Function.update b.store k _ k'
  rw [Function.update_apply, Function.update_apply]
  split
  · next hk =>
      subst hk
      rw [List.map_append, hold]
      simp [item, Book.add, view]
  · exact hold k'

theorem mem_stores_drop [DecidableEq κ] {covers : K → K → Bool} {k k' : κ} {entry : N × Entry K π} :
    entry ∈ (b.drop covers k).stores k' ↔ k' ≠ k ∧ entry ∈ b.stores k' := by
  show entry ∈ Function.update b.stores k [] k' ↔ _
  rw [Function.update_apply]
  by_cases hk : k' = k <;> simp [hk]

theorem Sound.drop [DecidableEq κ] (h : b.Sound) {covers : K → K → Bool} (hcovers : ∀ kind, covers kind kind)
    (k : κ) : (b.drop covers k).Sound where
  names k' := by
    show ((Function.update b.stores k [] k').map Prod.fst).Nodup
    rw [Function.update_apply]
    split
    · exact List.nodup_nil
    · exact h.names k'
  reached kind handle cell := by
    show (if _ then none else b.handles kind handle) = some cell ↔ _
    split
    case isTrue hany =>
      refine ⟨fun hnone => (by cases hnone), ?_⟩
      rintro ⟨k', entry', hmem', -, hhandle', -⟩
      obtain ⟨hne, hmem'⟩ := mem_stores_drop.mp hmem'
      obtain ⟨entry, hmem, hentry⟩ := List.any_eq_true.mp hany
      rw [Bool.and_eq_true, decide_eq_true_eq] at hentry
      exact absurd (h.single k' entry' hmem' k entry hmem (.inl (hhandle'.trans hentry.1.symm))).1 hne
    case isFalse hany =>
      rw [h.reached]
      constructor
      · rintro ⟨k', entry, hmem, hkind, hhandle, hcell⟩
        refine ⟨k', entry, mem_stores_drop.mpr ⟨fun hk => hany ?_, hmem⟩, hkind, hhandle, hcell⟩
        refine List.any_eq_true.mpr ⟨entry, hk ▸ hmem, ?_⟩
        rw [hkind, hcovers, Bool.and_true, decide_eq_true_eq]
        exact hhandle
      · rintro ⟨k', entry, hmem, hentry⟩
        exact ⟨k', entry, (mem_stores_drop.mp hmem).2, hentry⟩
  single k₁ entry₁ hmem₁ k₂ entry₂ hmem₂ heq :=
    h.single k₁ entry₁ (mem_stores_drop.mp hmem₁).2 k₂ entry₂ (mem_stores_drop.mp hmem₂).2 heq
  allocated k' entry hmem := h.allocated k' entry (mem_stores_drop.mp hmem).2

theorem view_drop [DecidableEq κ] (b : Book κ N K π ν) (covers : K → K → Bool) (k : κ) :
    (b.drop covers k).view = b.view.drop k := by
  refine congrArg Shelf.mk (funext fun k' => ?_)
  show List.map _ (Function.update b.stores k [] k') = Function.update b.store k [] k'
  rw [Function.update_apply, Function.update_apply]
  split <;> rfl

theorem Sound.held_eq (h : b.Sound) (kind : K) (handle : ℕ) : b.held kind handle = b.view.held kind handle := by
  have hiff : ∀ value, b.view.Has kind handle value ↔ b.held kind handle = some value := by
    intro value
    rw [held, Option.map_eq_some_iff]
    constructor
    · rintro ⟨k, _, hmem, hkind, hhandle, rfl⟩
      obtain ⟨entry, hentry, rfl⟩ := List.mem_map.mp hmem
      exact ⟨entry.2.cell, (h.reached kind handle _).mpr ⟨k, entry, hentry, hkind, hhandle, rfl⟩, rfl⟩
    · rintro ⟨cell, hcell, rfl⟩
      obtain ⟨k, entry, hmem, hkind, hhandle, rfl⟩ := (h.reached kind handle cell).mp hcell
      exact ⟨k, _, List.mem_map_of_mem hmem, hkind, hhandle, rfl⟩
  unfold Shelf.held
  split
  case isTrue hex => exact (hiff _).mp hex.choose_spec
  case isFalse hnone =>
    rw [Option.eq_none_iff_forall_not_mem]
    exact fun value hvalue => hnone ⟨value, (hiff value).mpr hvalue⟩

/-- The books as a backend. -/
def backend [DecidableEq κ] [DecidableEq N] [DecidableEq K] (covers : K → K → Bool) :
    Backend (Book κ N K π ν) κ N K π ν where
  store := Book.store
  held := Book.held
  add b := b.add
  change b := b.change
  touch b := b.touch
  drop b := b.drop covers

/-! ## Books that show shelves -/

/-- The book is sound and shows the shelf. -/
def Shows (b : Book κ N K π ν) (s : Shelf κ N K π ν) : Prop := b.Sound ∧ b.view = s

variable {s : Shelf κ N K π ν}

theorem shows_empty (value : ν) : (empty value : Book κ N K π ν).Shows .empty := ⟨sound_empty value, rfl⟩

theorem Shows.store_eq (h : b.Shows s) (k : κ) : b.store k = s.store k := h.2 ▸ rfl

theorem Shows.held_eq (h : b.Shows s) (kind : K) (handle : ℕ) : b.held kind handle = s.held kind handle := by
  rw [← h.2]
  exact h.1.held_eq kind handle

theorem Shows.change [DecidableEq K] (h : b.Shows s) (kind : K) (handle : ℕ) (f : ν → ν) :
    (b.change kind handle f).Shows (s.change kind handle f) :=
  ⟨h.1.change kind handle f, h.2 ▸ h.1.view_change kind handle f⟩

theorem Shows.touch [DecidableEq κ] [DecidableEq N] (h : b.Shows s) (k : κ) (n : N) (f : ν → ν) :
    (b.touch k n f).Shows (s.touch k n f) :=
  ⟨h.1.touch k n f, h.2 ▸ h.1.view_touch k n f⟩

theorem Shows.drop [DecidableEq κ] (h : b.Shows s) {covers : K → K → Bool}
    (hcovers : ∀ kind, covers kind kind) (k : κ) : (b.drop covers k).Shows (s.drop k) :=
  ⟨h.1.drop hcovers k, h.2 ▸ b.view_drop covers k⟩

theorem Shows.add [DecidableEq κ] [DecidableEq K] (h : b.Shows s) {k : κ} {n : N}
    (hname : ∀ entry ∈ s.store k, entry.1 ≠ n) (kind : K) {handle : ℕ}
    (hunused : ∀ k, ∀ entry ∈ s.store k, entry.2.handle ≠ handle) (info : π) (value : ν) :
    (b.add k n kind handle info value).Shows (s.add k n kind handle info value) := by
  obtain ⟨hsound, rfl⟩ := h
  refine ⟨hsound.add (fun entry hmem => ?_) kind (fun k entry hmem => ?_) info value,
    hsound.view_add k n kind handle info value⟩
  · exact hname _ (List.mem_map_of_mem hmem)
  · exact hunused k _ (List.mem_map_of_mem hmem)

end Book

end Emane.Lib.Handles
