import Mathlib
import Emane.Lib.TreeMap

set_option autoImplicit false

/-! # Fragments of a byte string

A string that is sent in pieces is cut into fragments that tile it: each starts where the one before
it ends (`Tiles`). A receiver keeps the fragments it has in a map ordered by offset. The map lists a
sublist of the tiling (`toList_sublist`), and it is the whole tiling as soon as it holds as many
elements (`Tiles.eq_of_sublist`) or as many fragments; the joined fragments are then the string.
-/

namespace Emane.Lib

open Std (ExtTreeMap)

section

variable {γ β : Type*} (data : γ → List β)

/-- The fragments, with their offsets, lie one after the other from offset `o` on, and none is
empty. -/
def Tiles : ℕ → List (ℕ × γ) → Prop
  | _, [] => True
  | o, p :: ps => p.1 = o ∧ data p.2 ≠ [] ∧ Tiles (o + (data p.2).length) ps

/-- The data of the fragments in order. -/
def joined (ps : List (ℕ × γ)) : List β := ps.flatMap fun p => data p.2

theorem joined_append (ps qs : List (ℕ × γ)) :
    joined data (ps ++ qs) = joined data ps ++ joined data qs := List.flatMap_append

variable {data}

theorem tiles_append {o : ℕ} {ps qs : List (ℕ × γ)} :
    Tiles data o (ps ++ qs) ↔
      Tiles data o ps ∧ Tiles data (o + (joined data ps).length) qs := by
  induction ps generalizing o with
  | nil => simp [Tiles, joined]
  | cons p ps ih =>
      have hjoin : o + (joined data (p :: ps)).length =
          o + (data p.2).length + (joined data ps).length := by
        simp [joined, Nat.add_assoc]
      rw [List.cons_append, Tiles, ih, Tiles, hjoin]
      simp only [and_assoc]

variable (data) in
/-- The fragments lie one after the other from offset `o` on; some may be empty. -/
def Consecutive : ℕ → List (ℕ × γ) → Prop
  | _, [] => True
  | o, p :: ps => p.1 = o ∧ Consecutive (o + (data p.2).length) ps

theorem Tiles.consecutive {o : ℕ} {ps : List (ℕ × γ)} (h : Tiles data o ps) :
    Consecutive data o ps := by
  induction ps generalizing o with
  | nil => trivial
  | cons p ps ih => exact ⟨h.1, ih h.2.2⟩

theorem Tiles.le_offset {o : ℕ} {ps : List (ℕ × γ)} (h : Tiles data o ps) :
    ∀ p ∈ ps, o ≤ p.1 := by
  induction ps generalizing o with
  | nil => simp
  | cons q ps ih =>
      intro p hp
      rcases List.mem_cons.mp hp with rfl | hp
      · exact h.1.ge
      · exact Nat.le_trans (Nat.le_add_right _ _) (ih h.2.2 p hp)

/-- The offsets of a tiling increase. -/
theorem Tiles.pairwise {o : ℕ} {ps : List (ℕ × γ)} (h : Tiles data o ps) :
    ps.Pairwise fun p q => p.1 < q.1 := by
  induction ps generalizing o with
  | nil => exact List.Pairwise.nil
  | cons p ps ih =>
      refine List.pairwise_cons.mpr ⟨fun q hq => ?_, ih h.2.2⟩
      have hlen : 0 < (data p.2).length := List.length_pos_iff.mpr h.2.1
      have hq := h.2.2.le_offset q hq
      have hp := h.1
      omega

theorem Tiles.ne_nil {o : ℕ} {ps : List (ℕ × γ)} (h : Tiles data o ps) :
    ∀ p ∈ ps, data p.2 ≠ [] := by
  induction ps generalizing o with
  | nil => simp
  | cons q ps ih =>
      intro p hp
      rcases List.mem_cons.mp hp with rfl | hp
      · exact h.2.1
      · exact ih h.2.2 p hp

/-- **Nothing is missing when the sizes agree**: a sublist of a tiling with as many elements is the
tiling. -/
theorem Tiles.eq_of_sublist {o : ℕ} {ps qs : List (ℕ × γ)} (h : Tiles data o ps) (hsub : qs.Sublist ps)
    (hlen : (joined data ps).length ≤ (joined data qs).length) : qs = ps := by
  have hne := h.ne_nil
  clear h
  induction hsub with
  | slnil => rfl
  | @cons qs ps p hsub ih =>
      -- a fragment is missing in `qs`, which makes it shorter
      have hle : (joined data qs).length ≤ (joined data ps).length :=
        (hsub.flatMap (fun p => data p.2)).length_le
      have hpos : 0 < (data p.2).length := List.length_pos_iff.mpr (hne p List.mem_cons_self)
      have hcons : (joined data (p :: ps)).length = (data p.2).length + (joined data ps).length := by
        simp [joined]
      omega
  | @cons_cons qs ps p hsub ih =>
      rw [ih ?_ fun q hq => hne q (List.mem_cons_of_mem p hq)]
      simpa [joined] using hlen

end

/-! ## The map of the received fragments -/

section

variable {γ : Type}

/-- The entries of a map after an insertion are the new one and those with other keys. -/
theorem toList_insert_perm (t : ExtTreeMap ℕ γ) (o : ℕ) (v : γ) :
    (t.insert o v).toList.Perm ((o, v) :: t.toList.filter fun e => e.1 ≠ o) := by
  have hnodup : ∀ u : ExtTreeMap ℕ γ, u.toList.Nodup := fun u =>
    u.distinct_keys_toList.imp fun hne heq => hne (by rw [heq]; exact compare_eq_iff_eq.mpr rfl)
  rw [List.perm_ext_iff_of_nodup (hnodup _)
    (List.nodup_cons.mpr ⟨by simp, (hnodup t).filter _⟩)]
  rintro ⟨k, w⟩
  rw [ExtTreeMap.mem_toList_iff_getElem?_eq_some, ExtTreeMap.getElem?_insert, List.mem_cons,
    List.mem_filter, ExtTreeMap.mem_toList_iff_getElem?_eq_some]
  simp only [compare_eq_iff_eq]
  split
  · next hk => simp [hk, eq_comm]
  · next hk => simp [Ne.symm hk]

/-- The sum of a measure over a map, split at one key. -/
theorem sum_toList (f : γ → ℕ) (t : ExtTreeMap ℕ γ) (o : ℕ) :
    (t.toList.map fun e => f e.2).sum =
      t[o]?.elim 0 f + ((t.toList.filter fun e => e.1 ≠ o).map fun e => f e.2).sum := by
  cases hget : t[o]? with
  | none =>
      have hkeep : (t.toList.filter fun e => e.1 ≠ o) = t.toList := by
        rw [List.filter_eq_self]
        rintro ⟨k, w⟩ hmem
        have hk := ExtTreeMap.mem_toList_iff_getElem?_eq_some.mp hmem
        have hne : k ≠ o := by
          rintro rfl
          rw [hget] at hk
          cases hk
        simpa using hne
      rw [hkeep]
      exact (Nat.zero_add _).symm
  | some w =>
      -- inserting what is there changes nothing
      have hsame : t.insert o w = t := by
        refine ExtTreeMap.ext_getElem? fun k => ?_
        rw [ExtTreeMap.getElem?_insert]
        simp only [compare_eq_iff_eq]
        split
        · next hk => rw [← hk, hget]
        · rfl
      have hperm := toList_insert_perm t o w
      rw [hsame] at hperm
      rw [(hperm.map _).sum_eq, List.map_cons, List.sum_cons]
      rfl

/-- The sum after an insertion, which may replace an entry. -/
theorem sum_toList_insert (f : γ → ℕ) (t : ExtTreeMap ℕ γ) (o : ℕ) (v : γ) :
    ((t.insert o v).toList.map fun e => f e.2).sum =
      (t.toList.map fun e => f e.2).sum - t[o]?.elim 0 f + f v := by
  have hnew : ((t.insert o v).toList.map fun e => f e.2).sum =
      f v + ((t.toList.filter fun e => e.1 ≠ o).map fun e => f e.2).sum := by
    rw [((toList_insert_perm t o v).map _).sum_eq, List.map_cons, List.sum_cons]
  have hold := sum_toList f t o
  omega

theorem toList_pairwise (t : ExtTreeMap ℕ γ) : t.toList.Pairwise fun p q => p.1 < q.1 :=
  t.ordered_keys_toList.imp fun h => Nat.compare_eq_lt.mp h

/-- A map with entries from a list ordered by offset lists a sublist of it. -/
theorem toList_sublist {t : ExtTreeMap ℕ γ} {ps : List (ℕ × γ)}
    (hps : ps.Pairwise fun p q => p.1 < q.1) (h : ∀ o v, t[o]? = some v → (o, v) ∈ ps) :
    t.toList.Sublist ps := by
  have hanti : Std.Antisymm fun p q : ℕ × γ => p.1 < q.1 :=
    ⟨fun _ _ hlt hgt => absurd hgt (Nat.lt_asymm hlt)⟩
  have hnodup : t.toList.Nodup := (toList_pairwise t).imp fun hlt heq => by
    rw [heq] at hlt
    exact Nat.lt_irrefl _ hlt
  have hsubset : t.toList ⊆ ps := by
    rintro ⟨o, v⟩ hmem
    exact h o v (ExtTreeMap.mem_toList_iff_getElem?_eq_some.mp hmem)
  exact List.sublist_of_subperm_of_pairwise (List.subperm_of_subset hnodup hsubset)
    (toList_pairwise t) hps

end

section

variable {D : Type*} {γ : Type} {place : D → ℕ × γ}

/-- The map holds exactly the received parts, each at its place. -/
def Holds (place : D → ℕ × γ) (t : ExtTreeMap ℕ γ) (received : Finset D) : Prop :=
  ∀ o v, t[o]? = some v ↔ ∃ d ∈ received, place d = (o, v)

theorem holds_empty : Holds place ∅ ∅ := by
  intro o v
  simp

/-- A part that takes a place no other received part has. -/
theorem Holds.insert [DecidableEq D] {t : ExtTreeMap ℕ γ} {received : Finset D} {d : D}
    (h : Holds place t received) (hplace : ∀ e ∈ received, (place e).1 = (place d).1 → e = d) :
    Holds place (t.insert (place d).1 (place d).2) (insert d received) := by
  intro o v
  rw [ExtTreeMap.getElem?_insert]
  simp only [compare_eq_iff_eq]
  split
  · next ho =>
      subst ho
      rw [Option.some.injEq]
      constructor
      · rintro rfl
        exact ⟨d, Finset.mem_insert_self d received, rfl⟩
      · rintro ⟨e, he, hv⟩
        have hed : e = d := by
          rcases Finset.mem_insert.mp he with rfl | he
          · rfl
          · exact hplace e he (by rw [hv])
        rw [← hed, hv]
  · next ho =>
      rw [h o v]
      constructor
      · rintro ⟨e, he, hv⟩
        exact ⟨e, Finset.mem_insert_of_mem he, hv⟩
      · rintro ⟨e, he, hv⟩
        rcases Finset.mem_insert.mp he with rfl | he
        · exact absurd (by rw [hv]) ho
        · exact ⟨e, he, hv⟩

/-- A place is taken exactly when its part was received. -/
theorem Holds.mem_iff {t : ExtTreeMap ℕ γ} {received : Finset D} {d : D}
    (h : Holds place t received) (hplace : ∀ e ∈ received, (place e).1 = (place d).1 → e = d) :
    (place d).1 ∈ t ↔ d ∈ received := by
  rw [ExtTreeMap.mem_iff_isSome_getElem?, Option.isSome_iff_exists]
  constructor
  · rintro ⟨v, hv⟩
    obtain ⟨e, he, heq⟩ := (h _ v).mp hv
    exact hplace e he (by rw [heq]) ▸ he
  · intro hd
    exact ⟨_, (h _ _).mpr ⟨d, hd, rfl⟩⟩

/-- The same for a map that keeps the part it has. -/
theorem Holds.insertIfNew [DecidableEq D] {t : ExtTreeMap ℕ γ} {received : Finset D} {d : D}
    (h : Holds place t received) (hplace : ∀ e ∈ received, (place e).1 = (place d).1 → e = d) :
    Holds place (t.insertIfNew (place d).1 (place d).2) (Insert.insert d received) := by
  have hmem := h.mem_iff hplace
  intro o v
  rw [ExtTreeMap.getElem?_insertIfNew]
  by_cases hd : d ∈ received
  · rw [if_neg fun hnew => hnew.2 (hmem.mpr hd), Finset.insert_eq_of_mem hd]
    exact h o v
  · have hnew := h.insert hplace o v
    rw [ExtTreeMap.getElem?_insert] at hnew
    simpa only [mt hmem.mp hd, not_false_eq_true, and_true] using hnew

variable {β : Type*} {data : γ → List β} {ds : List D} {t : ExtTreeMap ℕ γ} {received : Finset D}

/-- The parts of a tiling have different offsets. -/
theorem Tiles.offset_inj {o : ℕ} (h : Tiles data o (ds.map place)) {d e : D} (hd : d ∈ ds)
    (he : e ∈ ds) (heq : (place d).1 = (place e).1) : d = e := by
  have hpair := List.pairwise_map.mp h.pairwise
  clear h
  induction ds with
  | nil => cases hd
  | cons x ds ih =>
      obtain ⟨hx, hds⟩ := List.pairwise_cons.mp hpair
      rcases List.mem_cons.mp hd with rfl | hd' <;> rcases List.mem_cons.mp he with rfl | he'
      · rfl
      · exact absurd heq (Nat.ne_of_lt (hx e he'))
      · exact absurd heq.symm (Nat.ne_of_lt (hx d hd'))
      · exact ih hd' he' hds

variable [DecidableEq D]

/-- The map of received parts of a tiling lists a sublist of it. -/
theorem Holds.sublist (h : Holds place t received) (htiles : Tiles data 0 (ds.map place))
    (hsub : received ⊆ ds.toFinset) : t.toList.Sublist (ds.map place) := by
  refine toList_sublist htiles.pairwise fun o v hv => ?_
  obtain ⟨d, hd, heq⟩ := (h o v).mp hv
  exact List.mem_map.mpr ⟨d, List.mem_toFinset.mp (hsub hd), heq⟩

/-- **The map lists the whole tiling exactly when every part was received.** -/
theorem Holds.toList_eq_iff (h : Holds place t received) (htiles : Tiles data 0 (ds.map place))
    (hsub : received ⊆ ds.toFinset) : t.toList = ds.map place ↔ received = ds.toFinset := by
  have hmem : ∀ d ∈ ds, place d ∈ t.toList ↔ d ∈ received := by
    intro d hd
    rw [ExtTreeMap.mem_toList_iff_getElem?_eq_some, h]
    constructor
    · rintro ⟨e, he, heq⟩
      have hed : e = d := htiles.offset_inj (List.mem_toFinset.mp (hsub he)) hd (by rw [heq])
      exact hed ▸ he
    · exact fun hr => ⟨d, hr, rfl⟩
  constructor
  · intro hlist
    refine Finset.Subset.antisymm hsub fun d hd => ?_
    have hd := List.mem_toFinset.mp hd
    exact (hmem d hd).mp (hlist ▸ List.mem_map_of_mem hd)
  · intro hall
    -- every part is listed, so the sublist is as long as the tiling
    have hsubset : ds.map place ⊆ t.toList := by
      intro p hp
      obtain ⟨d, hd, rfl⟩ := List.mem_map.mp hp
      exact (hmem d hd).mpr (hall ▸ List.mem_toFinset.mpr hd)
    have hnodup : (ds.map place).Nodup := htiles.pairwise.imp fun hlt heq => by
      rw [heq] at hlt
      exact Nat.lt_irrefl _ hlt
    exact (h.sublist htiles hsub).eq_of_length_le (List.subperm_of_subset hnodup hsubset).length_le

end

end Emane.Lib
