import Mathlib

set_option autoImplicit false

/-! # Ranges of integers stored by their upper ends

An ordered map holds for each range its value under the range's upper end, and a `gap` value under the
number below the range, unless something is there already. A lookup takes the entry with the least key
that is not below the number looked for.

When no two ranges overlap, this finds the value of the range that contains the number
(`Represents.lookup_of_contains`), and outside of all ranges the gap value or nothing
(`Represents.lookup_of_gap`), in whatever order the ranges were added: an entry under a number inside of
a range would be the end of another range, or the begin of one, which then overlaps it.
-/

namespace Emane.Lib

open Std

/-- The integers from `low` to `high` with a value. -/
structure Span (α : Type) where
  low : ℤ
  high : ℤ
  value : α

section

variable {α : Type} {gap : α} {spans : List (Span α)} {m : ExtTreeMap ℤ α}

def Span.Contains (s : Span α) (k : ℤ) : Prop := s.low ≤ k ∧ k ≤ s.high

/-- The ranges have no number in common. -/
def Span.Apart (s t : Span α) : Prop := s.high < t.low ∨ t.high < s.low

instance : Std.Symm (@Span.Apart α) where
  symm _ _ := Or.symm

def addSpan (gap : α) (m : ExtTreeMap ℤ α) (s : Span α) : ExtTreeMap ℤ α :=
  (m.insertIfNew (s.low - 1) gap).insert s.high s.value

/-- The map with the ranges of a list. -/
def buildSpans (gap : α) (spans : List (Span α)) : ExtTreeMap ℤ α := spans.foldl (addSpan gap) ∅

/-- `range(k..).next()` -/
def lookupSpan (m : ExtTreeMap ℤ α) (k : ℤ) : Option α :=
  (m.toList.find? fun entry => k ≤ entry.1).map Prod.snd

/-! ## What a map with ranges holds -/

/-- The map holds the ranges and what is needed around them, and nothing else. -/
structure Represents (gap : α) (spans : List (Span α)) (m : ExtTreeMap ℤ α) : Prop where
  upper : ∀ s ∈ spans, m[s.high]? = some s.value
  below : ∀ s ∈ spans, s.low - 1 ∈ m
  entry : ∀ k v, m[k]? = some v →
    (∃ s ∈ spans, s.high = k) ∨ (v = gap ∧ ∃ s ∈ spans, s.low - 1 = k)

theorem represents_empty (gap : α) : Represents gap [] ∅ where
  upper := by simp
  below := by simp
  entry := by simp

theorem getElem?_addSpan (s : Span α) (k : ℤ) : (addSpan gap m s)[k]? =
    if s.high = k then some s.value
    else if s.low - 1 = k ∧ k ∉ m then some gap else m[k]? := by
  unfold addSpan
  rw [ExtTreeMap.getElem?_insert, ExtTreeMap.getElem?_insertIfNew]
  simp only [LawfulEqOrd.compare_eq_iff_eq]
  by_cases hk : s.low - 1 = k
  · rw [hk]
  · simp only [hk, false_and]

theorem mem_addSpan (s : Span α) (k : ℤ) :
    k ∈ addSpan gap m s ↔ s.high = k ∨ s.low - 1 = k ∨ k ∈ m := by
  unfold addSpan
  rw [ExtTreeMap.mem_insert, ExtTreeMap.mem_insertIfNew, LawfulEqOrd.compare_eq_iff_eq,
    LawfulEqOrd.compare_eq_iff_eq]

theorem isEmpty_addSpan (s : Span α) : (addSpan gap m s).isEmpty = false :=
  ExtTreeMap.isEmpty_eq_false_iff.mpr ExtTreeMap.insert_ne_empty

/-- A range that overlaps none of the others is added. -/
theorem Represents.addSpan (h : Represents gap spans m) {new : Span α} (hnew : new.low ≤ new.high)
    (hvalid : ∀ s ∈ spans, s.low ≤ s.high) (hapart : ∀ s ∈ spans, s.Apart new) :
    Represents gap (spans ++ [new]) (addSpan gap m new) where
  upper := by
    intro s hs
    rw [getElem?_addSpan]
    rcases List.mem_append.mp hs with hs | hs
    · have hle := hvalid s hs
      have hend : new.high ≠ s.high := by
        rcases hapart s hs with hlt | hlt <;> omega
      have hmem : s.high ∈ m := ExtTreeMap.mem_iff_isSome_getElem?.mpr (by rw [h.upper s hs]; rfl)
      rw [if_neg hend, if_neg (by simp [hmem]), h.upper s hs]
    · rw [List.mem_singleton.mp hs, if_pos rfl]
  below := by
    intro s hs
    rw [mem_addSpan]
    rcases List.mem_append.mp hs with hs | hs
    · exact .inr (.inr (h.below s hs))
    · rw [List.mem_singleton.mp hs]
      exact .inr (.inl rfl)
  entry := by
    intro k v hk
    rw [getElem?_addSpan] at hk
    split at hk
    next hend => exact .inl ⟨new, by simp, hend⟩
    next =>
    split at hk
    next hbegin => exact .inr ⟨(Option.some_inj.mp hk).symm, new, by simp, hbegin.1⟩
    next =>
    rcases h.entry k v hk with ⟨s, hs, hend⟩ | ⟨hv, s, hs, hbegin⟩
    · exact .inl ⟨s, List.mem_append_left _ hs, hend⟩
    · exact .inr ⟨hv, s, List.mem_append_left _ hs, hbegin⟩

/-- **The map with the ranges of a list** of which no two overlap. -/
theorem represents_buildSpans (hvalid : ∀ s ∈ spans, s.low ≤ s.high)
    (hapart : spans.Pairwise Span.Apart) : Represents gap spans (buildSpans gap spans) := by
  induction spans using List.reverseRecOn with
  | nil => exact represents_empty gap
  | append_singleton spans new ih =>
      rw [List.pairwise_append] at hapart
      have hold := ih (fun s hs => hvalid s (List.mem_append_left _ hs)) hapart.1
      unfold buildSpans at hold ⊢
      rw [List.foldl_append]
      exact hold.addSpan (hvalid new (by simp)) (fun s hs => hvalid s (List.mem_append_left _ hs))
        fun s hs => hapart.2.2 s hs new (by simp)

/-! ## Lookups -/

theorem keys_pairwise (m : ExtTreeMap ℤ α) :
    m.toList.Pairwise fun entry entry' => entry.1 < entry'.1 := by
  refine m.ordered_keys_toList.imp ?_
  intro a b h
  exact compare_lt_iff_lt.mp h

/-- A lookup finds the entry with the least key from `k` on. -/
theorem lookupSpan_eq_some {k : ℤ} {v : α} (h : lookupSpan m k = some v) :
    ∃ key, m[key]? = some v ∧ k ≤ key ∧ ∀ key' ∈ m, k ≤ key' → key ≤ key' := by
  unfold lookupSpan at h
  obtain ⟨⟨key, _⟩, hfind, rfl⟩ := Option.map_eq_some_iff.mp h
  have hle : k ≤ key := by simpa using List.find?_some hfind
  have hmem := ExtTreeMap.mem_toList_iff_getElem?_eq_some.mp (List.mem_of_find?_eq_some hfind)
  refine ⟨key, hmem, hle, ?_⟩
  intro key' hkey' hle'
  obtain ⟨w, hw⟩ := Option.isSome_iff_exists.mp (ExtTreeMap.mem_iff_isSome_getElem?.mp hkey')
  have hin : (key', w) ∈ m.toList := ExtTreeMap.mem_toList_iff_getElem?_eq_some.mpr hw
  obtain ⟨-, before, rest, heq, hbefore⟩ := List.find?_eq_some_iff_append.mp hfind
  have hsorted := keys_pairwise m
  rw [heq] at hin hsorted
  rw [List.pairwise_append, List.pairwise_cons] at hsorted
  rcases List.mem_append.mp hin with hin | hin
  · have hnot := hbefore _ hin
    simp [hle'] at hnot
  · rcases List.mem_cons.mp hin with heq' | hin
    · exact (congrArg Prod.fst heq').ge
    · exact (hsorted.2.1.1 _ hin).le

theorem lookupSpan_ne_none {k key : ℤ} (hkey : key ∈ m) (hle : k ≤ key) : lookupSpan m k ≠ none := by
  intro hnone
  unfold lookupSpan at hnone
  obtain ⟨v, hv⟩ := Option.isSome_iff_exists.mp (ExtTreeMap.mem_iff_isSome_getElem?.mp hkey)
  have hnot := List.find?_eq_none.mp (Option.map_eq_none_iff.mp hnone) _
    (ExtTreeMap.mem_toList_iff_getElem?_eq_some.mpr hv)
  simp [hle] at hnot

/-- **A number in a range** gives the range's value. -/
theorem Represents.lookup_of_contains (h : Represents gap spans m) (hapart : spans.Pairwise Span.Apart)
    (hvalid : ∀ s ∈ spans, s.low ≤ s.high) {s : Span α} (hs : s ∈ spans) {k : ℤ}
    (hk : s.Contains k) : lookupSpan m k = some s.value := by
  have hmem : s.high ∈ m := ExtTreeMap.mem_iff_isSome_getElem?.mpr (by rw [h.upper s hs]; rfl)
  obtain ⟨v, hv⟩ := Option.ne_none_iff_exists'.mp (lookupSpan_ne_none hmem hk.2)
  obtain ⟨key, hkey, hle, hleast⟩ := lookupSpan_eq_some hv
  have hkeyLe := hleast s.high hmem hk.2
  by_cases hend : key = s.high
  · rw [hv, ← hkey, hend, h.upper s hs]
  -- any other entry inside of the range would belong to a range that overlaps it
  exfalso
  obtain ⟨hlow, hhigh⟩ := hk
  obtain ⟨t, ht, hentry⟩ : ∃ t ∈ spans, t.high = key ∨ t.low - 1 = key := by
    rcases h.entry key v hkey with ⟨t, ht, hend⟩ | ⟨-, t, ht, hbegin⟩
    · exact ⟨t, ht, .inl hend⟩
    · exact ⟨t, ht, .inr hbegin⟩
  have hle := hvalid t ht
  have hne : t ≠ s := by
    rintro rfl
    omega
  rcases hapart.forall ht hs hne with hlt | hlt <;> omega

/-- **A number in no range** gives the gap value, or nothing. -/
theorem Represents.lookup_of_gap (h : Represents gap spans m) (hvalid : ∀ s ∈ spans, s.low ≤ s.high)
    {k : ℤ} (hk : ∀ s ∈ spans, ¬ s.Contains k) : (lookupSpan m k).getD gap = gap := by
  cases hv : lookupSpan m k with
  | none => rfl
  | some v =>
      obtain ⟨key, hkey, hle, hleast⟩ := lookupSpan_eq_some hv
      rcases h.entry key v hkey with ⟨s, hs, hend⟩ | ⟨hgap, -⟩
      · -- the number below that range is in the map, too, and is found before its end
        exfalso
        have hlow : k < s.low := lt_of_not_ge fun hlow => hk s hs ⟨hlow, hle.trans hend.ge⟩
        have hbelow := hleast (s.low - 1) (h.below s hs) (by omega)
        have := hvalid s hs
        omega
      · exact hgap

end

end Emane.Lib
