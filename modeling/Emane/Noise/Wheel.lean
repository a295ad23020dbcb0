import Emane.Lib.Ring

set_option autoImplicit false

/-! # The noise wheel

`Wheel` of `noise_recorder.rs`: `slots` time slots of `bins` sub-band bins, stored row by row in
one vector. Rust panics (an index check that fails, an index outside the vector, an unsigned
subtraction below zero) are `none`. Power values are exact rationals.

`Wheel.add` and `Wheel.set` are the two instances of `Wheel.write`, whose effect on the cells is
`write_paints`; `Wheel.get` reads the slots that end at a given slot (`get_getElem?`). Both are
stated for absolute time bins `k : ℤ`, stored in slot `k % slots`.
-/

namespace Emane.Noise

open Emane.Lib

/-- The wheel: the vector always has one value per (slot, bin) pair. -/
structure Wheel where
  slots : ℕ
  bins : ℕ
  store : List ℚ
  length_store : store.length = slots * bins

namespace Wheel

def new (slots bins : ℕ) : Wheel where
  slots := slots
  bins := bins
  store := List.replicate (slots * bins) 0
  length_store := List.length_replicate

/-- `self.store[index] = f(self.store[index])`. -/
def touch (f : ℚ → ℚ) (w : Wheel) (index : ℕ) : Option Wheel :=
  if index < w.store.length then
    some { w with
      store := w.store.modify index f
      length_store := by rw [List.length_modify, w.length_store] }
  else none

/-- The slots the two loops of `add` and `set` visit: up to the end of the wheel, then the
remainder from slot `0`. -/
def visited (w : Wheel) (beginSlot slots : ℕ) : List ℕ :=
  let remainder := if beginSlot + slots > w.slots then (beginSlot + slots) % w.slots else 0
  let limit := beginSlot + slots - remainder
  List.range' beginSlot (limit - beginSlot) ++ List.range remainder

/-- The vector indices `i * self.bins + j` the loops touch. -/
def indices (w : Wheel) (beginSlot slots binBegin bins : ℕ) : List ℕ :=
  (w.visited beginSlot slots).flatMap fun i =>
    (List.range' binBegin bins).map fun j => i * w.bins + j

/-- The common body of `add` and `set`. -/
def write (f : ℚ → ℚ) (w : Wheel) (beginSlot slots binBegin bins : ℕ) : Option Wheel :=
  if slots > w.slots ∨ beginSlot ≥ w.slots then none
  else if slots = 0 then some w
  else if bins > w.bins ∨ binBegin ≥ w.bins then none
  else if bins = 0 then some w
  else (w.indices beginSlot slots binBegin bins).foldlM (touch f) w

def add (w : Wheel) (beginSlot slots : ℕ) (value : ℚ) (binBegin bins : ℕ) : Option Wheel :=
  w.write (· + value) beginSlot slots binBegin bins

def set (w : Wheel) (beginSlot slots : ℕ) (value : ℚ) (binBegin bins : ℕ) : Option Wheel :=
  w.write (fun _ => value) beginSlot slots binBegin bins

/-- The `slots` slots that end with `beginSlot`, oldest first. -/
def get (w : Wheel) (beginSlot slots : ℕ) : Option (List ℚ) :=
  if slots > w.slots ∨ beginSlot ≥ w.slots then none
  else if slots = 0 then none -- `slots - 1` underflows
  else if beginSlot ≥ slots - 1 then
    let srcStart := (beginSlot + 1 - slots) * w.bins
    some ((w.store.drop srcStart).take (slots * w.bins))
  else
    let remainder := slots - beginSlot - 1
    let srcStart1 := (w.slots - remainder) * w.bins
    let len1 := remainder * w.bins
    let len2 := (beginSlot + 1) * w.bins
    some ((w.store.drop srcStart1).take len1 ++ w.store.take len2)

/-! ## Cells by absolute time bin -/

/-- The value of sub-band `j` of slot `i`. -/
def cell (w : Wheel) (i j : ℕ) : ℚ := w.store.getD (i * w.bins + j) 0

/-- The value of sub-band `j` in the slot of the absolute time bin `k`. -/
def cellAt (w : Wheel) (k : ℤ) (j : ℕ) : ℚ := w.cell (k % (w.slots : ℤ)).toNat j

/-- `w'` is `w` with `g` applied to every cell of the `n` time bins from `k₀` on. -/
structure Paints (w w' : Wheel) (k₀ : ℤ) (n : ℕ) (g : ℕ → ℚ → ℚ) : Prop where
  slots_eq : w'.slots = w.slots
  bins_eq : w'.bins = w.bins
  cellAt_on : ∀ k j, j < w.bins → OnRing w.slots k₀ n k → w'.cellAt k j = g j (w.cellAt k j)
  cellAt_off : ∀ k j, j < w.bins → ¬ OnRing w.slots k₀ n k → w'.cellAt k j = w.cellAt k j

theorem index_inj {bins i i' j j' : ℕ} (hj : j < bins) (hj' : j' < bins)
    (h : i * bins + j = i' * bins + j') : i = i' ∧ j = j' := by
  have hdiv : ∀ a b : ℕ, b < bins → (a * bins + b) / bins = a := by
    intro a b hb
    rw [Nat.mul_comm, Nat.mul_add_div (by omega), Nat.div_eq_of_lt hb, Nat.add_zero]
  have hi : i = i' := by rw [← hdiv i j hj, h, hdiv i' j' hj']
  subst hi
  exact ⟨rfl, by omega⟩

/-! ## The effect of `write` -/

/-- Touching distinct indices inside the vector changes exactly these. -/
theorem foldlM_touch (f : ℚ → ℚ) :
    ∀ (idx : List ℕ) (w : Wheel), idx.Nodup → (∀ i ∈ idx, i < w.store.length) →
      ∃ w', idx.foldlM (touch f) w = some w' ∧ w'.slots = w.slots ∧ w'.bins = w.bins ∧
        ∀ i, i < w.store.length →
          w'.store.getD i 0 = if i ∈ idx then f (w.store.getD i 0) else w.store.getD i 0 := by
  intro idx
  induction idx with
  | nil =>
      intro w _ _
      exact ⟨w, rfl, rfl, rfl, fun i _ => by simp⟩
  | cons a t ih =>
      intro w hnd hlt
      have ha : a < w.store.length := hlt a (by simp)
      obtain ⟨hat, hndt⟩ := List.nodup_cons.mp hnd
      set w₁ : Wheel := { w with
        store := w.store.modify a f
        length_store := by rw [List.length_modify, w.length_store] } with hw₁
      have hlen : w₁.store.length = w.store.length := by simp [hw₁]
      obtain ⟨w', hrun, hs, hb, hcells⟩ :=
        ih w₁ hndt (fun i hi => by rw [hlen]; exact hlt i (by simp [hi]))
      refine ⟨w', ?_, hs, hb, ?_⟩
      · rw [List.foldlM_cons]
        simp only [touch, if_pos ha]
        exact hrun
      · intro i hi
        have hget : w₁.store.getD i 0 = if a = i then f (w.store.getD i 0) else w.store.getD i 0 := by
          simp only [hw₁, List.getD_eq_getElem?_getD, List.getElem?_modify,
            List.getElem?_eq_getElem hi]
          split <;> rfl
        rw [hcells i (by rw [hlen]; exact hi), hget]
        by_cases hai : a = i
        · subst hai
          simp [hat]
        · have hia : ¬ i = a := fun h => hai h.symm
          simp [hai, hia]

/-- The loops visit `n` slots, wrapping around at most once. -/
theorem mem_visited {w : Wheel} {b n i : ℕ} (hb : b < w.slots) (hn : n ≤ w.slots) :
    i ∈ w.visited b n ↔ i < w.slots ∧ ∃ t < n, i = (b + t) % w.slots := by
  have hmod : ∀ t, b + t < 2 * w.slots →
      (b + t) % w.slots = if b + t < w.slots then b + t else b + t - w.slots := by
    intro t ht
    split
    · next h => exact Nat.mod_eq_of_lt h
    · next h => rw [Nat.mod_eq_sub_mod (by omega), Nat.mod_eq_of_lt (by omega)]
  simp only [visited, List.mem_append, List.mem_range'_1, List.mem_range]
  constructor
  · intro h
    by_cases hw : b + n > w.slots
    · rw [if_pos hw, hmod n (by omega), if_neg (by omega)] at h
      rcases h with ⟨h₁, h₂⟩ | h
      · exact ⟨by omega, i - b, by omega, by rw [hmod _ (by omega), if_pos (by omega)]; omega⟩
      · exact ⟨by omega, w.slots + i - b, by omega,
          by rw [hmod _ (by omega), if_neg (by omega)]; omega⟩
    · rw [if_neg hw] at h
      exact ⟨by omega, i - b, by omega, by rw [hmod _ (by omega), if_pos (by omega)]; omega⟩
  · rintro ⟨hi, t, ht, rfl⟩
    rw [hmod t (by omega)] at hi ⊢
    by_cases hw : b + n > w.slots
    · have hr : (b + n) % w.slots = b + n - w.slots := by
        rw [hmod n (by omega), if_neg (by omega)]
      rw [if_pos hw, hr]
      split <;> omega
    · rw [if_neg hw, if_pos (by omega)]
      omega

theorem nodup_visited {w : Wheel} {b n : ℕ} (hb : b < w.slots) (hn : n ≤ w.slots) :
    (w.visited b n).Nodup := by
  simp only [visited]
  refine List.nodup_append.mpr ⟨List.nodup_range', List.nodup_range, ?_⟩
  intro i hi i' hi'
  rw [List.mem_range'_1] at hi
  rw [List.mem_range] at hi'
  by_cases hw : b + n > w.slots
  · rw [if_pos hw, Nat.mod_eq_sub_mod (by omega), Nat.mod_eq_of_lt (by omega)] at hi hi'
    omega
  · rw [if_neg hw] at hi'
    omega

theorem mem_indices {w : Wheel} {b n jb m i j : ℕ} (hj : j < w.bins) (hm : jb + m ≤ w.bins) :
    i * w.bins + j ∈ w.indices b n jb m ↔ i ∈ w.visited b n ∧ jb ≤ j ∧ j < jb + m := by
  simp only [indices, List.mem_flatMap, List.mem_map, List.mem_range'_1]
  constructor
  · rintro ⟨i', hi', j', hj', h⟩
    obtain ⟨rfl, rfl⟩ := index_inj (by omega) hj h
    exact ⟨hi', hj'⟩
  · rintro ⟨hi, hj'⟩
    exact ⟨i, hi, j, hj', rfl⟩

theorem nodup_indices {w : Wheel} {b n jb m : ℕ} (hb : b < w.slots) (hn : n ≤ w.slots)
    (hm : jb + m ≤ w.bins) : (w.indices b n jb m).Nodup := by
  refine List.nodup_flatMap.mpr ⟨?_, ?_⟩
  · intro i _
    have hrange : (List.range' jb m).Nodup := List.nodup_range'
    refine hrange.map_on ?_
    intro j hj j' hj' h
    omega
  · refine (nodup_visited hb hn).imp ?_
    intro i i' hii x hx hx'
    simp only [List.mem_map, List.mem_range'_1] at hx hx'
    obtain ⟨j, hj, rfl⟩ := hx
    obtain ⟨j', hj', h⟩ := hx'
    exact hii (index_inj (by omega) (by omega) h).1.symm

theorem lt_length_of_mem_indices {w : Wheel} {b n jb m i : ℕ} (hb : b < w.slots)
    (hn : n ≤ w.slots) (hm : jb + m ≤ w.bins) (hi : i ∈ w.indices b n jb m) :
    i < w.store.length := by
  simp only [indices, List.mem_flatMap, List.mem_map, List.mem_range'_1] at hi
  obtain ⟨s, hs, j, hj, rfl⟩ := hi
  have hslot : s < w.slots := ((mem_visited hb hn).mp hs).1
  rw [w.length_store]
  calc s * w.bins + j < s * w.bins + w.bins := by omega
    _ = (s + 1) * w.bins := by ring
    _ ≤ w.slots * w.bins := Nat.mul_le_mul_right _ hslot

/-- **The effect of `write`**: inside the capacity checks it succeeds, and it applies `f` to the
given sub-bands of the given time bins and to nothing else. -/
theorem write_paints (f : ℚ → ℚ) {w : Wheel} (k₀ : ℤ) {n jb m : ℕ} (hw : 0 < w.slots)
    (hn : n ≤ w.slots) (hm : jb + m ≤ w.bins) (hm₀ : 0 < m) :
    ∃ w', w.write f (k₀ % (w.slots : ℤ)).toNat n jb m = some w' ∧
      Paints w w' k₀ n (fun j v => if jb ≤ j ∧ j < jb + m then f v else v) := by
  set b := (k₀ % (w.slots : ℤ)).toNat with hbdef
  have hbz : (b : ℤ) = k₀ % (w.slots : ℤ) :=
    Int.toNat_of_nonneg (Int.emod_nonneg _ (by omega))
  have hb : b < w.slots := by
    have := Int.emod_lt_of_pos k₀ (show (0 : ℤ) < w.slots by omega)
    omega
  by_cases hn₀ : n = 0
  · subst hn₀
    refine ⟨w, by simp [write, hb], rfl, rfl, ?_, fun _ _ _ _ => rfl⟩
    intro k j _ hon
    exact absurd hon (not_onRing_zero _ _ _)
  obtain ⟨w', hrun, hs, hbins, hcells⟩ := foldlM_touch f (w.indices b n jb m) w
    (nodup_indices hb hn hm) (fun i hi => lt_length_of_mem_indices hb hn hm hi)
  have hwrite : w.write f b n jb m = some w' := by
    rw [write, if_neg (by omega), if_neg hn₀, if_neg (by omega), if_neg (by omega)]
    exact hrun
  -- the slot of `k` is visited exactly when `k` is on the ring interval
  have hvis : ∀ k : ℤ, (k % (w.slots : ℤ)).toNat ∈ w.visited b n ↔ OnRing w.slots k₀ n k := by
    intro k
    have hkz : (((k % (w.slots : ℤ)).toNat : ℕ) : ℤ) = k % (w.slots : ℤ) :=
      Int.toNat_of_nonneg (Int.emod_nonneg _ (by omega))
    have hklt : (k % (w.slots : ℤ)).toNat < w.slots := by
      have := Int.emod_lt_of_pos k (show (0 : ℤ) < w.slots by omega)
      omega
    have hstep : ∀ t : ℕ, (((b + t) % w.slots : ℕ) : ℤ) = (k₀ + t) % (w.slots : ℤ) := by
      intro t
      rw [Int.natCast_mod, Int.natCast_add, hbz, Int.emod_add_emod]
    rw [mem_visited hb hn]
    constructor
    · rintro ⟨-, t, ht, h⟩
      exact ⟨t, ht, by rw [← hkz, h, hstep]⟩
    · rintro ⟨t, ht, h⟩
      refine ⟨hklt, t, ht, ?_⟩
      have : (((k % (w.slots : ℤ)).toNat : ℕ) : ℤ) = (((b + t) % w.slots : ℕ) : ℤ) := by
        rw [hkz, hstep, h]
      exact_mod_cast this
  have hcell : ∀ (k : ℤ) (j : ℕ), j < w.bins → w'.cellAt k j =
      if OnRing w.slots k₀ n k ∧ jb ≤ j ∧ j < jb + m then f (w.cellAt k j) else w.cellAt k j := by
    intro k j hj
    have hklt : (k % (w.slots : ℤ)).toNat < w.slots := by
      have h₁ := Int.emod_lt_of_pos k (show (0 : ℤ) < w.slots by omega)
      have h₂ := Int.emod_nonneg k (show (w.slots : ℤ) ≠ 0 by omega)
      omega
    have hlt : (k % (w.slots : ℤ)).toNat * w.bins + j < w.store.length := by
      rw [w.length_store]
      calc (k % (w.slots : ℤ)).toNat * w.bins + j
          < (k % (w.slots : ℤ)).toNat * w.bins + w.bins := by omega
        _ = ((k % (w.slots : ℤ)).toNat + 1) * w.bins := by ring
        _ ≤ w.slots * w.bins := Nat.mul_le_mul_right _ hklt
    have := hcells _ hlt
    simp only [mem_indices hj hm, hvis] at this
    simpa only [cellAt, cell, hs, hbins] using this
  refine ⟨w', hwrite, hs, hbins, ?_, ?_⟩
  · intro k j hj hon
    rw [hcell k j hj]
    simp only [hon, true_and]
  · intro k j hj hoff
    rw [hcell k j hj, if_neg (fun h => hoff h.1)]

/-! ## Reading -/

theorem getElem?_drop_take {l : List ℚ} {a n i : ℕ} (hi : i < n) (hl : a + n ≤ l.length) :
    ((l.drop a).take n)[i]? = some (l.getD (a + i) 0) := by
  rw [List.getElem?_take_of_lt hi, List.getElem?_drop, List.getD_eq_getElem?_getD,
    List.getElem?_eq_getElem (by omega)]
  rfl

/-- **The effect of `get`**: reading `n` slots that end with the slot of time bin `k` gives the
time bins `k - n + 1, …, k` in order, each with all its sub-bands. -/
theorem get_getElem? {w : Wheel} {k : ℤ} {n : ℕ} (hn : n ≤ w.slots) (hn₀ : 0 < n) :
    ∃ l, w.get (k % (w.slots : ℤ)).toNat n = some l ∧ l.length = n * w.bins ∧
      ∀ t j, t < n → j < w.bins → l[t * w.bins + j]? = some (w.cellAt (k - n + 1 + t) j) := by
  set b := (k % (w.slots : ℤ)).toNat with hbdef
  have hbz : (b : ℤ) = k % (w.slots : ℤ) :=
    Int.toNat_of_nonneg (Int.emod_nonneg _ (by omega))
  have hb : b < w.slots := by
    have := Int.emod_lt_of_pos k (show (0 : ℤ) < w.slots by omega)
    omega
  -- the slot of time bin `k - n + 1 + t`
  have hslot : ∀ t i : ℕ, i < w.slots → ((i : ℤ) = b - n + 1 + t ∨ (i : ℤ) = b - n + 1 + t + w.slots) →
      ((k - n + 1 + t) % (w.slots : ℤ)).toNat = i := by
    intro t i hi h
    have hmod : (k - n + 1 + t) % (w.slots : ℤ) = (i : ℤ) % (w.slots : ℤ) := by
      have hk : k % (w.slots : ℤ) = (b : ℤ) % (w.slots : ℤ) := by
        rw [hbz, Int.emod_emod_of_dvd _ dvd_rfl]
      have h₁ : (k - n + 1 + t) % (w.slots : ℤ) = ((b : ℤ) - n + 1 + t) % (w.slots : ℤ) := by
        have hk' : k ≡ (b : ℤ) [ZMOD (w.slots : ℤ)] := hk
        exact ((hk'.sub_right n).add_right 1).add_right t
      rw [h₁]
      rcases h with h | h
      · rw [h]
      · rw [h, Int.add_emod_right]
    rw [hmod, Int.emod_eq_of_lt (by omega) (by omega)]
    simp
  have hle : ∀ a c : ℕ, a ≤ c → a * w.bins ≤ c * w.bins := fun a c h => Nat.mul_le_mul_right _ h
  by_cases hcase : b ≥ n - 1
  · refine ⟨(w.store.drop ((b + 1 - n) * w.bins)).take (n * w.bins), ?_, ?_, ?_⟩
    · rw [get, if_neg (by omega), if_neg (by omega), if_pos hcase]
    · rw [List.length_take, List.length_drop, w.length_store, ← Nat.sub_mul]
      exact Nat.min_eq_left (hle _ _ (by omega))
    · intro t j ht hj
      have hidx : t * w.bins + j < n * w.bins := by
        calc t * w.bins + j < t * w.bins + w.bins := by omega
          _ = (t + 1) * w.bins := by ring
          _ ≤ n * w.bins := hle _ _ ht
      rw [getElem?_drop_take hidx (by
        rw [w.length_store, ← Nat.add_mul]; exact hle _ _ (by omega))]
      have hi := hslot t (b + 1 - n + t) (by omega) (Or.inl (by omega))
      simp only [cellAt, cell, hi]
      congr 2
      ring
  · have hr : n - b - 1 ≤ w.slots := by omega
    refine ⟨(w.store.drop ((w.slots - (n - b - 1)) * w.bins)).take ((n - b - 1) * w.bins)
        ++ w.store.take ((b + 1) * w.bins), ?_, ?_, ?_⟩
    · rw [get, if_neg (by omega), if_neg (by omega), if_neg hcase]
    · rw [List.length_append, List.length_take, List.length_drop, List.length_take,
        w.length_store, ← Nat.sub_mul, Nat.min_eq_left (hle _ _ (by omega)),
        Nat.min_eq_left (hle _ _ (by omega)), ← Nat.add_mul]
      congr 1
      omega
    · intro t j ht hj
      have hlen₁ : ((w.store.drop ((w.slots - (n - b - 1)) * w.bins)).take
          ((n - b - 1) * w.bins)).length = (n - b - 1) * w.bins := by
        rw [List.length_take, List.length_drop, w.length_store, ← Nat.sub_mul]
        exact Nat.min_eq_left (hle _ _ (by omega))
      have hrow : ∀ a : ℕ, a * w.bins + j < (a + 1) * w.bins := by
        intro a
        rw [Nat.add_mul]
        omega
      by_cases htr : t < n - b - 1
      · -- the part before the wrap
        have hidx : t * w.bins + j < (n - b - 1) * w.bins := lt_of_lt_of_le (hrow t) (hle _ _ htr)
        rw [List.getElem?_append_left (by rw [hlen₁]; exact hidx),
          getElem?_drop_take hidx (by rw [w.length_store, ← Nat.add_mul]; exact hle _ _ (by omega))]
        have hi := hslot t (w.slots - (n - b - 1) + t) (by omega) (Or.inr (by omega))
        simp only [cellAt, cell, hi]
        congr 2
        ring
      · -- the part after the wrap starts again at slot `0`
        obtain ⟨u, rfl⟩ : ∃ u, t = (n - b - 1) + u := ⟨t - (n - b - 1), by omega⟩
        have hge : (n - b - 1) * w.bins ≤ (n - b - 1 + u) * w.bins + j :=
          le_trans (hle _ _ (by omega)) (Nat.le_add_right _ _)
        have hsub : (n - b - 1 + u) * w.bins + j - (n - b - 1) * w.bins = u * w.bins + j := by
          rw [Nat.add_mul]
          omega
        have hidx : u * w.bins + j < (b + 1) * w.bins :=
          lt_of_lt_of_le (hrow u) (hle _ _ (by omega))
        rw [List.getElem?_append_right (by rw [hlen₁]; exact hge), hlen₁, hsub,
          ← List.drop_zero (l := w.store), getElem?_drop_take hidx (by
            rw [w.length_store]; simpa using hle _ _ (by omega : b + 1 ≤ w.slots))]
        have hi := hslot (n - b - 1 + u) u (by omega) (Or.inl (by omega))
        simp only [cellAt, cell, hi, Nat.zero_add]

end Wheel

end Emane.Noise
