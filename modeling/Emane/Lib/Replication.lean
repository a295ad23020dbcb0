import Mathlib

set_option autoImplicit false

/-! # Replication of a store

A source keeps what was entered in two stores: `full` has everything, `delta` what was entered since the
last publication. Those who listen have `seen` what was published. Whether a publication sends all or
what is new (`Mode`), afterwards they have seen everything: the invariant is `Tracks`. `Follows` is the
invariant for listeners that put what they see into a table.

Stores are functions from keys to optional values, and what is new lies over what is old (`overlay`). The
store after many changes has for each key the latest value (`latest`).
-/

namespace Emane.Lib

section

variable {κ ν ρ : Type*}

/-- What is new lies over what is old. -/
def overlay (new old : κ → Option ν) : κ → Option ν := fun k => (new k).or (old k)

theorem overlay_assoc (s t u : κ → Option ν) : overlay (overlay s t) u = overlay s (overlay t u) := by
  funext k
  exact Option.or_assoc

theorem overlay_self (s t : κ → Option ν) : overlay (overlay s t) t = overlay s t := by
  funext k
  unfold overlay
  cases s k with
  | none => cases t k <;> rfl
  | some v => rfl

/-- One value. -/
def single [DecidableEq κ] (k : κ) (v : ν) : κ → Option ν := fun a => if k = a then some v else none

theorem overlay_eq_right {new old : κ → Option ν} {k : κ} (h : new k = none) : overlay new old k = old k := by
  rw [overlay, h, Option.none_or]

/-! ## The latest values -/

/-- The store after the changes `rs`, from an empty one; `change r` is what the change `r` enters. -/
def latest (change : ρ → κ → Option ν) (rs : List ρ) : κ → Option ν :=
  rs.foldl (fun old r => overlay (change r) old) fun _ => none

theorem latest_concat (change : ρ → κ → Option ν) (rs : List ρ) (r : ρ) :
    latest change (rs ++ [r]) = overlay (change r) (latest change rs) := by
  rw [latest, List.foldl_append]
  rfl

/-- A change that says nothing about a key. -/
theorem latest_concat_of_none {change : ρ → κ → Option ν} {rs : List ρ} {r : ρ} {k : κ}
    (h : change r k = none) : latest change (rs ++ [r]) k = latest change rs k := by
  rw [latest_concat, overlay_eq_right h]

/-- There is a value if a change entered one. -/
theorem latest_isSome_iff {change : ρ → κ → Option ν} {rs : List ρ} {k : κ} :
    (latest change rs k).isSome ↔ ∃ r ∈ rs, (change r k).isSome := by
  induction rs using List.reverseRecOn with
  | nil => simp [latest]
  | append_singleton rs r ih =>
      rw [latest_concat, overlay, Option.isSome_or, Bool.or_eq_true, ih]
      constructor
      · rintro (hnew | ⟨s, hs, hold⟩)
        · exact ⟨r, by simp, hnew⟩
        · exact ⟨s, List.mem_append_left _ hs, hold⟩
      · rintro ⟨s, hs, hsome⟩
        rcases List.mem_append.mp hs with hs | hs
        · exact .inr ⟨s, hs, hsome⟩
        · exact .inl (List.mem_singleton.mp hs ▸ hsome)

/-! ## Publications -/

/-- What a publication sends. -/
inductive Mode
  | delta
  | full
  deriving DecidableEq

def Mode.pick {α : Type*} : Mode → α → α → α
  | .delta, new, _ => new
  | .full, _, all => all

theorem Mode.apply_pick {α β : Type*} (g : α → β) (mode : Mode) (new all : α) :
    g (mode.pick new all) = mode.pick (g new) (g all) := by
  cases mode <;> rfl

/-- What is not new was seen. -/
def Tracks (full delta seen : κ → Option ν) : Prop := full = overlay delta seen

variable {full delta seen : κ → Option ν}

theorem Tracks.empty : Tracks (fun _ : κ => (none : Option ν)) (fun _ => none) fun _ => none := rfl

/-- Changes are entered in both stores. -/
theorem Tracks.enter (h : Tracks full delta seen) (new : κ → Option ν) :
    Tracks (overlay new full) (overlay new delta) seen := by
  unfold Tracks at h ⊢
  rw [h, overlay_assoc]

/-- After a publication nothing is new, and everything was seen. -/
theorem Tracks.cleared (full : κ → Option ν) : Tracks full (fun _ => none) full := rfl

/-- **What is seen after a publication**, in either mode. -/
theorem Tracks.overlay_pick (h : Tracks full delta seen) (mode : Mode) :
    overlay (mode.pick delta full) seen = full := by
  unfold Tracks at h
  cases mode with
  | delta => exact h.symm
  | full =>
      change overlay full seen = full
      rw [h, overlay_self]

/-- If nothing is new then everything was seen. -/
theorem Tracks.eq_seen (h : Tracks full delta seen) (hempty : delta = fun _ => none) : full = seen := by
  unfold Tracks at h
  rw [h, hempty]
  rfl

/-- What is sent is the latest value. -/
theorem Tracks.of_pick (h : Tracks full delta seen) (mode : Mode) {k : κ} {v : ν}
    (hsent : mode.pick delta full k = some v) : full k = some v := by
  rw [← h.overlay_pick mode, overlay, hsent, Option.some_or]

/-! ## Tables of the listeners -/

variable {ω : Type*} {view : ν → ω} {table table' : κ → Option ω}

/-- The listeners have in a table what they have seen, each value in its own view. -/
structure Follows (full delta seen : κ → Option ν) (view : ν → ω) (table : κ → Option ω) : Prop where
  tracks : Tracks full delta seen
  table_eq : ∀ k, table k = (seen k).map view

theorem Follows.enter (h : Follows full delta seen view table) (new : κ → Option ν) :
    Follows (overlay new full) (overlay new delta) seen view table :=
  ⟨h.tracks.enter new, h.table_eq⟩

/-- **What is sent lies over the table**: afterwards everything was seen. -/
theorem Follows.publish (h : Follows full delta seen view table) (mode : Mode)
    (htable : ∀ k, table' k = ((mode.pick delta full k).map view).or (table k)) :
    Follows full (fun _ => none) full view table' := by
  refine ⟨Tracks.cleared full, fun k => ?_⟩
  calc table' k = ((mode.pick delta full k).map view).or ((seen k).map view) := by
        rw [htable k, h.table_eq k]
    _ = (overlay (mode.pick delta full) seen k).map view := Option.map_or.symm
    _ = (full k).map view := by rw [h.tracks.overlay_pick mode]

/-- If nothing is new then the table has everything. -/
theorem Follows.current (h : Follows full delta seen view table) (hempty : delta = fun _ => none) (k : κ) :
    table k = (full k).map view := by
  rw [h.tracks.eq_seen hempty, h.table_eq k]

end

end Emane.Lib
