import Mathlib
import Emane.Lib.TreeMap

set_option autoImplicit false

/-! # Linear interpolation of a table

A table gives values at some integers, its knots. Between neighbouring knots the values lie on a line,
and outside of all knots there is none (`Interpolates`). `fillGaps` enters the missing integers into an
ordered map of knots (`fillGaps_interpolates`).
-/

namespace Emane.Interpolation

open Emane.Lib (getElem?_insertMany_of_mem getElem?_insertMany_of_notMem)
open Std (ExtTreeMap)

/-! ## Neighbours -/

section

variable {K : Type} {knots knots' : List (ℤ × K)} {p q : ℤ × K} {i : ℤ}

/-- Two knots without another one between them. -/
structure Neighbours (knots : List (ℤ × K)) (p q : ℤ × K) : Prop where
  left : p ∈ knots
  right : q ∈ knots
  lt : p.1 < q.1
  apart : ∀ r ∈ knots, r.1 ≤ p.1 ∨ q.1 ≤ r.1

theorem Neighbours.congr (h : Neighbours knots p q)
    (hmem : ∀ r, r ∈ knots ↔ r ∈ knots') : Neighbours knots' p q where
  left := (hmem p).mp h.left
  right := (hmem q).mp h.right
  lt := h.lt
  apart := fun r hr => h.apart r ((hmem r).mpr hr)

/-- An integer from a knot on and before another one is between neighbours. -/
theorem exists_neighbours (hlow : ∃ p ∈ knots, p.1 ≤ i)
    (hhigh : ∃ q ∈ knots, i < q.1) : ∃ p q, Neighbours knots p q ∧ p.1 ≤ i ∧ i < q.1 := by
  classical
  obtain ⟨p₀, hp₀, hp₀i⟩ := hlow
  obtain ⟨q₀, hq₀, hiq₀⟩ := hhigh
  obtain ⟨p, hp, hmax⟩ := (knots.toFinset.filter fun r => r.1 ≤ i).exists_max_image Prod.fst
    ⟨p₀, by simp [hp₀, hp₀i]⟩
  obtain ⟨q, hq, hmin⟩ := (knots.toFinset.filter fun r => i < r.1).exists_min_image Prod.fst
    ⟨q₀, by simp [hq₀, hiq₀]⟩
  simp only [Finset.mem_filter, List.mem_toFinset] at hp hq hmax hmin
  refine ⟨p, q, ⟨hp.1, hq.1, by omega, ?_⟩, hp.2, hq.2⟩
  intro r hr
  rcases le_or_gt r.1 i with hri | hri
  · exact .inl (hmax r ⟨hr, hri⟩)
  · exact .inr (hmin r ⟨hr, hri⟩)

/-- In a list in increasing order, the first two are neighbours, and so are those of the rest. -/
theorem neighbours_cons_cons_iff {a b : ℤ × K} (hknots : (p :: q :: knots).Pairwise fun p q => p.1 < q.1) :
    Neighbours (p :: q :: knots) a b ↔ (a = p ∧ b = q) ∨ Neighbours (q :: knots) a b := by
  obtain ⟨hp, hknots⟩ := List.pairwise_cons.mp hknots
  obtain ⟨hq, -⟩ := List.pairwise_cons.mp hknots
  have hpq := hp q List.mem_cons_self
  constructor
  · intro h
    have hb : b ∈ q :: knots := by
      refine (List.mem_cons.mp h.right).resolve_left ?_
      rintro rfl
      rcases List.mem_cons.mp h.left with rfl | ha
      · exact absurd h.lt (lt_irrefl _)
      · exact absurd h.lt (hp a ha).not_gt
    rcases List.mem_cons.mp h.left with rfl | ha
    · rcases List.mem_cons.mp hb with rfl | hb
      · exact .inl ⟨rfl, rfl⟩
      · have hbq := (h.apart q (by simp)).resolve_left hpq.not_ge
        exact absurd (hq b hb) hbq.not_gt
    · exact .inr ⟨ha, hb, h.lt, fun r hr => h.apart r (List.mem_cons_of_mem _ hr)⟩
  · rintro (⟨rfl, rfl⟩ | h)
    · refine ⟨by simp, by simp, hpq, ?_⟩
      intro r hr
      rcases List.mem_cons.mp hr with rfl | hr
      · exact .inl le_rfl
      · rcases List.mem_cons.mp hr with rfl | hr
        · exact .inr le_rfl
        · exact .inr (hq r hr).le
    · refine ⟨List.mem_cons_of_mem _ h.left, List.mem_cons_of_mem _ h.right, h.lt, ?_⟩
      intro r hr
      rcases List.mem_cons.mp hr with rfl | hr
      · exact .inl (hp a h.left).le
      · exact h.apart r hr

/-! ## Filling the gaps of a map -/

variable (value : ℤ × K → ℤ × K → ℤ → K)

/-- The entries from a knot up to the next one. -/
def gapEntries (p q : ℤ × K) : List (ℤ × K) := (Int.range p.1 q.1).map fun i => (i, value p q i)

/-- The entries of all gaps, each made from a knot and the one that a look ahead finds. -/
def gaps : List (ℤ × K) → List (ℤ × K)
  | p :: q :: knots => gapEntries value p q ++ gaps (q :: knots)
  | _ => []

/-- The map with its gaps filled, from a second map that is made before it is entered. -/
def fillGaps (m : ExtTreeMap ℤ K) : ExtTreeMap ℤ K :=
  m.insertMany ((∅ : ExtTreeMap ℤ K).insertMany (gaps value m.toList)).toList

variable {value} {m : ExtTreeMap ℤ K} {e : ℤ × K}

theorem toList_pairwise_lt (m : ExtTreeMap ℤ K) : m.toList.Pairwise fun p q => p.1 < q.1 :=
  m.ordered_keys_toList.imp fun h => compare_lt_iff_lt.mp h

theorem mem_gapEntries_iff : e ∈ gapEntries value p q ↔ p.1 ≤ e.1 ∧ e.1 < q.1 ∧ e.2 = value p q e.1 := by
  rw [gapEntries, List.mem_map]
  constructor
  · rintro ⟨i, hi, rfl⟩
    obtain ⟨hpi, hiq⟩ := Int.mem_range_iff.mp hi
    exact ⟨hpi, hiq, rfl⟩
  · rintro ⟨hpi, hiq, hvalue⟩
    exact ⟨e.1, Int.mem_range_iff.mpr ⟨hpi, hiq⟩, Prod.ext rfl hvalue.symm⟩

theorem mem_gaps_iff (hknots : knots.Pairwise fun p q => p.1 < q.1) : e ∈ gaps value knots ↔
    ∃ p q, Neighbours knots p q ∧ p.1 ≤ e.1 ∧ e.1 < q.1 ∧ e.2 = value p q e.1 := by
  induction knots with
  | nil =>
      simp only [gaps, List.not_mem_nil, false_iff]
      rintro ⟨p, q, h, -⟩
      cases h.left
  | cons p knots ih =>
      cases knots with
      | nil =>
          simp only [gaps, List.not_mem_nil, false_iff]
          rintro ⟨a, b, h, -⟩
          obtain rfl := List.mem_singleton.mp h.left
          obtain rfl := List.mem_singleton.mp h.right
          exact absurd h.lt (lt_irrefl _)
      | cons q knots =>
          rw [gaps, List.mem_append, mem_gapEntries_iff, ih hknots.of_cons]
          constructor
          · rintro (h | ⟨a, b, hab, h⟩)
            · exact ⟨p, q, (neighbours_cons_cons_iff hknots).mpr (.inl ⟨rfl, rfl⟩), h⟩
            · exact ⟨a, b, (neighbours_cons_cons_iff hknots).mpr (.inr hab), h⟩
          · rintro ⟨a, b, hab, h⟩
            rcases (neighbours_cons_cons_iff hknots).mp hab with ⟨rfl, rfl⟩ | hab
            · exact .inl h
            · exact .inr ⟨a, b, hab, h⟩

theorem gaps_pairwise (hknots : knots.Pairwise fun p q => p.1 < q.1) :
    (gaps value knots).Pairwise fun p q => p.1 < q.1 := by
  induction knots with
  | nil => exact List.Pairwise.nil
  | cons p knots ih =>
      cases knots with
      | nil => exact List.Pairwise.nil
      | cons q knots =>
          rw [gaps, List.pairwise_append]
          refine ⟨?_, ih hknots.of_cons, ?_⟩
          · rw [gapEntries, List.pairwise_map, Int.range, List.pairwise_map]
            refine List.pairwise_lt_range.imp ?_
            intro a b hab
            dsimp only
            omega
          · intro a ha b hb
            obtain ⟨-, haq, -⟩ := mem_gapEntries_iff.mp ha
            obtain ⟨r, s, hrs, hrb, -⟩ := (mem_gaps_iff hknots.of_cons).mp hb
            rcases List.mem_cons.mp hrs.left with rfl | hr
            · exact haq.trans_le hrb
            · exact haq.trans (((List.pairwise_cons.mp hknots.of_cons).1 r hr).trans_le hrb)

theorem nodup_keys_of_pairwise {entries : List (ℤ × K)} (h : entries.Pairwise fun p q => p.1 < q.1) :
    (entries.map Prod.fst).Nodup :=
  List.pairwise_map.mpr (h.imp fun hlt => hlt.ne)

theorem getElem?_fillGaps_of_mem (h : (i, e.2) ∈ gaps value m.toList) : (fillGaps value m)[i]? = some e.2 := by
  have hsecond : ((∅ : ExtTreeMap ℤ K).insertMany (gaps value m.toList))[i]? = some e.2 :=
    getElem?_insertMany_of_mem (nodup_keys_of_pairwise (gaps_pairwise (toList_pairwise_lt m))) h
  exact getElem?_insertMany_of_mem (nodup_keys_of_pairwise (toList_pairwise_lt _))
    (ExtTreeMap.mem_toList_iff_getElem?_eq_some.mpr hsecond)

theorem getElem?_fillGaps_between (h : Neighbours m.toList p q) (hpi : p.1 ≤ i) (hiq : i < q.1) :
    (fillGaps value m)[i]? = some (value p q i) :=
  @getElem?_fillGaps_of_mem _ _ _ _ (i, value p q i)
    ((mem_gaps_iff (toList_pairwise_lt m)).mpr ⟨p, q, h, hpi, hiq, rfl⟩)

theorem getElem?_fillGaps_other (h : ∀ p q, Neighbours m.toList p q → p.1 ≤ i → q.1 ≤ i) :
    (fillGaps value m)[i]? = m[i]? := by
  have hgaps : i ∉ (gaps value m.toList).map Prod.fst := by
    rw [List.mem_map]
    rintro ⟨e, he, rfl⟩
    obtain ⟨p, q, hpq, hpe, heq, -⟩ := (mem_gaps_iff (toList_pairwise_lt m)).mp he
    exact absurd heq (h p q hpq hpe).not_gt
  refine getElem?_insertMany_of_notMem ?_
  rw [List.mem_map]
  rintro ⟨e, he, rfl⟩
  rw [ExtTreeMap.mem_toList_iff_getElem?_eq_some, getElem?_insertMany_of_notMem hgaps] at he
  simp at he

end

/-! ## Tables with lines between the knots -/

section

variable {K : Type} [Field K]

/-- The value at `i` on the line through two knots. -/
def linear (p q : ℤ × K) (i : ℤ) : K := p.2 + (i - p.1) * ((q.2 - p.2) / (q.1 - p.1))

/-- The values of `f` are those of the knots, and lie on lines between them. -/
structure Interpolates (knots : List (ℤ × K)) (f : ℤ → Option K) : Prop where
  knot : ∀ p ∈ knots, f p.1 = some p.2
  between : ∀ p q, Neighbours knots p q → ∀ i, p.1 ≤ i → i < q.1 → f i = some (linear p q i)
  below : ∀ i, (∀ p ∈ knots, i < p.1) → f i = none
  above : ∀ i, (∀ p ∈ knots, p.1 < i) → f i = none

theorem linear_left (p q : ℤ × K) : linear p q p.1 = p.2 := by simp [linear]

variable {knots : List (ℤ × K)} {p q : ℤ × K} {f : ℤ → Option K} {i : ℤ}

namespace Interpolates

/-- The order in which the knots are listed does not matter. -/
theorem congr {knots' : List (ℤ × K)} (h : Interpolates knots f) (hmem : ∀ r, r ∈ knots ↔ r ∈ knots') :
    Interpolates knots' f where
  knot := fun p hp => h.knot p ((hmem p).mpr hp)
  between := fun p q hpq => h.between p q (hpq.congr fun r => (hmem r).symm)
  below := fun i hi => h.below i fun p hp => hi p ((hmem p).mp hp)
  above := fun i hi => h.above i fun p hp => hi p ((hmem p).mp hp)

/-- Where there is a value: at a knot that is the last one, or between neighbours. -/
theorem cases (h : Interpolates knots f) {y : K} (hy : f i = some y) :
    (∃ p ∈ knots, p.1 = i ∧ p.2 = y ∧ ∀ q ∈ knots, q.1 ≤ i) ∨
      ∃ p q, Neighbours knots p q ∧ p.1 ≤ i ∧ i < q.1 ∧ y = linear p q i := by
  have hlow : ∃ p ∈ knots, p.1 ≤ i := by
    by_contra hnone
    push Not at hnone
    rw [h.below i hnone] at hy
    cases hy
  by_cases hhigh : ∃ q ∈ knots, i < q.1
  · obtain ⟨p, q, hpq, hpi, hiq⟩ := exists_neighbours hlow hhigh
    rw [h.between p q hpq i hpi hiq, Option.some_inj] at hy
    exact .inr ⟨p, q, hpq, hpi, hiq, hy.symm⟩
  · push Not at hhigh
    by_cases hknot : ∃ p ∈ knots, p.1 = i
    · obtain ⟨p, hp, rfl⟩ := hknot
      rw [h.knot p hp, Option.some_inj] at hy
      exact .inl ⟨p, hp, rfl, hy, hhigh⟩
    · push Not at hknot
      rw [h.above i fun p hp => (hhigh p hp).lt_of_ne (hknot p hp)] at hy
      cases hy

/-- There is a value from the first knot to the last one. -/
theorem isSome (h : Interpolates knots f) (hp : p ∈ knots) (hq : q ∈ knots) (hpi : p.1 ≤ i) (hiq : i ≤ q.1) :
    ∃ y, f i = some y := by
  rcases hiq.lt_or_eq with hlt | rfl
  · obtain ⟨p', q', hneighbours, hpi, hiq⟩ := exists_neighbours ⟨p, hp, hpi⟩ ⟨q, hq, hlt⟩
    exact ⟨_, h.between p' q' hneighbours i hpi hiq⟩
  · exact ⟨_, h.knot q hq⟩

end Interpolates

/-- **The filled map interpolates its knots**, if the values that are entered lie on the lines. -/
theorem fillGaps_interpolates {value : ℤ × K → ℤ × K → ℤ → K} {m : ExtTreeMap ℤ K}
    (hvalue : ∀ p q, Neighbours m.toList p q → ∀ i, p.1 ≤ i → i < q.1 → value p q i = linear p q i) :
    Interpolates m.toList fun i => (fillGaps value m)[i]? where
  knot := by
    rintro p hp
    by_cases h : ∃ a b, Neighbours m.toList a b ∧ a.1 ≤ p.1 ∧ p.1 < b.1
    · obtain ⟨a, b, hab, hap, hpb⟩ := h
      have hkey : a.1 = p.1 := hap.antisymm ((hab.apart p hp).resolve_right hpb.not_ge)
      have ha := ExtTreeMap.mem_toList_iff_getElem?_eq_some.mp hab.left
      rw [hkey, ExtTreeMap.mem_toList_iff_getElem?_eq_some.mp hp, Option.some_inj] at ha
      rw [getElem?_fillGaps_between hab hap hpb, hvalue a b hab p.1 hap hpb, ← hkey, linear_left, ha]
    · push Not at h
      rw [getElem?_fillGaps_other h]
      exact ExtTreeMap.mem_toList_iff_getElem?_eq_some.mp hp
  between := fun p q hpq i hpi hiq => by
    rw [getElem?_fillGaps_between hpq hpi hiq, hvalue p q hpq i hpi hiq]
  below := by
    intro i hi
    rw [getElem?_fillGaps_other fun p q hpq hpi => absurd (hi p hpq.left) hpi.not_gt]
    by_contra hsome
    obtain ⟨v, hv⟩ := Option.ne_none_iff_exists'.mp hsome
    exact absurd (hi (i, v) (ExtTreeMap.mem_toList_iff_getElem?_eq_some.mpr hv)) (lt_irrefl _)
  above := by
    intro i hi
    rw [getElem?_fillGaps_other fun p q hpq _ => (hi q hpq.right).le]
    by_contra hsome
    obtain ⟨v, hv⟩ := Option.ne_none_iff_exists'.mp hsome
    exact absurd (hi (i, v) (ExtTreeMap.mem_toList_iff_getElem?_eq_some.mpr hv)) (lt_irrefl _)

end

/-! ## Order -/

section

variable {K : Type} [Field K] [LinearOrder K] [IsStrictOrderedRing K] {knots : List (ℤ × K)} {p q : ℤ × K}
  {f : ℤ → Option K} {i j : ℤ}

theorem linear_right (hlt : p.1 < q.1) : linear p q q.1 = q.2 := by
  have hne : (q.1 : K) - p.1 ≠ 0 := sub_ne_zero.mpr (by exact_mod_cast hlt.ne')
  unfold linear
  field_simp
  ring

theorem linear_mono (hlt : p.1 < q.1) (hle : p.2 ≤ q.2) (hij : i ≤ j) : linear p q i ≤ linear p q j := by
  have hwidth : (0 : K) ≤ q.1 - p.1 := sub_nonneg.mpr (by exact_mod_cast hlt.le)
  have hslope : 0 ≤ (q.2 - p.2) / (q.1 - p.1) := div_nonneg (sub_nonneg.mpr hle) hwidth
  have hcast : (i : K) ≤ j := by exact_mod_cast hij
  unfold linear
  gcongr

theorem linear_anti (hlt : p.1 < q.1) (hle : q.2 ≤ p.2) (hij : i ≤ j) : linear p q j ≤ linear p q i := by
  have hwidth : (0 : K) ≤ q.1 - p.1 := sub_nonneg.mpr (by exact_mod_cast hlt.le)
  have hslope : (q.2 - p.2) / (q.1 - p.1) ≤ 0 := div_nonpos_of_nonpos_of_nonneg (by linarith) hwidth
  have hcast : (i : K) - p.1 ≤ j - p.1 := sub_le_sub_right (by exact_mod_cast hij) _
  unfold linear
  exact add_le_add_right (mul_le_mul_of_nonpos_right hcast hslope) _

/-- Between two knots, the line stays between their values. -/
theorem linear_mem_Icc (hlt : p.1 < q.1) {a b : K} (hp : p.2 ∈ Set.Icc a b) (hq : q.2 ∈ Set.Icc a b)
    (hpi : p.1 ≤ i) (hiq : i ≤ q.1) : linear p q i ∈ Set.Icc a b := by
  rcases le_total p.2 q.2 with hle | hle
  · constructor
    · calc a ≤ linear p q p.1 := by rw [linear_left]; exact hp.1
        _ ≤ linear p q i := linear_mono hlt hle hpi
    · calc linear p q i ≤ linear p q q.1 := linear_mono hlt hle hiq
        _ ≤ b := by rw [linear_right hlt]; exact hq.2
  · constructor
    · calc a ≤ linear p q q.1 := by rw [linear_right hlt]; exact hq.1
        _ ≤ linear p q i := linear_anti hlt hle hiq
    · calc linear p q i ≤ linear p q p.1 := linear_anti hlt hle hpi
        _ ≤ b := by rw [linear_left]; exact hp.2

namespace Interpolates

/-- Bounds of the knots are bounds of all values. -/
theorem mem_Icc (h : Interpolates knots f) {a b : K} (hknots : ∀ p ∈ knots, p.2 ∈ Set.Icc a b) {y : K}
    (hy : f i = some y) : y ∈ Set.Icc a b := by
  rcases h.cases hy with ⟨p, hp, -, rfl, -⟩ | ⟨p, q, hpq, hpi, hiq, rfl⟩
  · exact hknots p hp
  · exact linear_mem_Icc hpq.lt (hknots p hpq.left) (hknots q hpq.right) hpi hiq.le

/-- **Non-decreasing knots make a non-decreasing table.** -/
theorem mono (h : Interpolates knots f) (hknots : ∀ p ∈ knots, ∀ q ∈ knots, p.1 ≤ q.1 → p.2 ≤ q.2)
    {y z : K} (hij : i ≤ j) (hy : f i = some y) (hz : f j = some z) : y ≤ z := by
  rcases h.cases hz with ⟨r, hr, rfl, rfl, hlast⟩ | ⟨r, s, hrs, hrj, hjs, rfl⟩
  · rcases h.cases hy with ⟨p, hp, rfl, rfl, -⟩ | ⟨p, q, hpq, hpi, hiq, rfl⟩
    · exact hknots p hp r hr hij
    · calc linear p q i ≤ linear p q q.1 :=
            linear_mono hpq.lt (hknots p hpq.left q hpq.right hpq.lt.le) hiq.le
        _ = q.2 := linear_right hpq.lt
        _ ≤ r.2 := hknots q hpq.right r hr (hlast q hpq.right)
  · rcases h.cases hy with ⟨p, hp, rfl, rfl, hlast⟩ | ⟨p, q, hpq, hpi, hiq, rfl⟩
    · have := hlast s hrs.right
      omega
    · rcases hrs.apart q hpq.right with hqr | hsq
      · calc linear p q i ≤ linear p q q.1 :=
              linear_mono hpq.lt (hknots p hpq.left q hpq.right hpq.lt.le) hiq.le
          _ = q.2 := linear_right hpq.lt
          _ ≤ r.2 := hknots q hpq.right r hrs.left hqr
          _ = linear r s r.1 := (linear_left r s).symm
          _ ≤ linear r s j := linear_mono hrs.lt (hknots r hrs.left s hrs.right hrs.lt.le) hrj
      · -- both integers are between the same neighbours
        have hqs : q.1 ≤ s.1 := (hpq.apart s hrs.right).resolve_left (by omega)
        have hrp : r.1 ≤ p.1 := (hpq.apart r hrs.left).resolve_right (by omega)
        have hpr : p.1 ≤ r.1 := (hrs.apart p hpq.left).resolve_right (by omega)
        have hleft : p.1 = r.1 := hpr.antisymm hrp
        have hright : q.1 = s.1 := hqs.antisymm hsq
        have hp := h.knot p hpq.left
        have hq := h.knot q hpq.right
        rw [hleft, h.knot r hrs.left, Option.some_inj] at hp
        rw [hright, h.knot s hrs.right, Option.some_inj] at hq
        rw [Prod.ext hleft hp.symm, Prod.ext hright hq.symm]
        exact linear_mono hrs.lt (hknots r hrs.left s hrs.right hrs.lt.le) hij

end Interpolates

end

end Emane.Interpolation
