import Mathlib

set_option autoImplicit false

/-! # Text edited by places in bytes

A text is the list of its characters, and a place in it counts the bytes of its UTF-8 encoding. Some
places are inside a character; a cut there is refused, and an edit that needs it panics.
-/

namespace Emane.Lib

/-- `str::len` -/
def byteLength (text : List Char) : ℕ := (text.map Char.utf8Size).sum

/-- `str::find` of a character. -/
def findChar (c : Char) : List Char → Option ℕ
  | [] => none
  | d :: text => if d = c then some 0 else (findChar c text).map (d.utf8Size + ·)

/-- The text before a place and the text from there on. -/
def cutAt : List Char → ℕ → Option (List Char × List Char)
  | [], place => if place = 0 then some ([], []) else none
  | c :: text, place =>
      if place = 0 then some ([], c :: text)
      else if place < c.utf8Size then none
      else (cutAt text (place - c.utf8Size)).map fun cut => (c :: cut.1, cut.2)

/-- `String::insert` -/
def insertChar (text : List Char) (place : ℕ) (c : Char) : Option (List Char) :=
  (cutAt text place).map fun cut => cut.1 ++ c :: cut.2

/-- `String::remove` -/
def removeChar (text : List Char) (place : ℕ) : Option (List Char) :=
  match cutAt text place with
  | some (before, _ :: after) => some (before ++ after)
  | _ => none

section

variable {text before after : List Char} {c : Char} {place : ℕ}

@[simp] theorem byteLength_nil : byteLength [] = 0 := rfl

@[simp] theorem byteLength_cons : byteLength (c :: text) = c.utf8Size + byteLength text := by
  simp [byteLength]

@[simp] theorem byteLength_append : byteLength (before ++ after) = byteLength before + byteLength after := by
  simp [byteLength]

theorem byteLength_eq_zero : byteLength text = 0 ↔ text = [] := by
  cases text with
  | nil => simp
  | cons c text =>
      have := c.utf8Size_pos
      simp only [byteLength_cons, List.cons_ne_nil, iff_false]
      omega

/-- A text has at most one cut at a place. -/
theorem cutAt_eq_some_iff :
    cutAt text place = some (before, after) ↔ text = before ++ after ∧ byteLength before = place := by
  induction text generalizing before place with
  | nil =>
      simp only [cutAt, Option.ite_none_right_eq_some, Option.some_inj, Prod.mk.injEq, List.nil_eq,
        List.append_eq_nil_iff]
      constructor
      · rintro ⟨rfl, rfl, rfl⟩
        simp
      · rintro ⟨⟨rfl, rfl⟩, rfl⟩
        simp
  | cons d text ih =>
      have hd := d.utf8Size_pos
      cases before with
      | nil =>
          -- the empty text stands before the place `0` only
          simp only [cutAt, List.nil_append, byteLength_nil]
          split
          · next h => simp [h, eq_comm]
          · next h =>
              split
              · simp [Ne.symm h]
              · simp [Ne.symm h]
      | cons e before =>
          simp only [cutAt, List.cons_append, List.cons.injEq, byteLength_cons]
          split
          · next h =>
              simp only [Option.some_inj, Prod.mk.injEq, List.nil_eq, reduceCtorEq, false_and, false_iff]
              rintro ⟨⟨rfl, -⟩, hplace⟩
              omega
          · split
            · next hlt =>
                simp only [reduceCtorEq, false_iff]
                rintro ⟨⟨rfl, -⟩, hplace⟩
                omega
            · next hle =>
                simp only [Option.map_eq_some_iff, Prod.mk.injEq, List.cons.injEq, Prod.exists]
                constructor
                · rintro ⟨_, _, hcut, ⟨rfl, rfl⟩, rfl⟩
                  obtain ⟨rfl, hplace⟩ := ih.mp hcut
                  exact ⟨⟨rfl, rfl⟩, by omega⟩
                · rintro ⟨⟨rfl, rfl⟩, hplace⟩
                  exact ⟨before, after, ih.mpr ⟨rfl, by omega⟩, ⟨rfl, rfl⟩, rfl⟩

theorem cutAt_append : cutAt (before ++ after) (byteLength before) = some (before, after) :=
  cutAt_eq_some_iff.mpr ⟨rfl, rfl⟩

/-- Behind a text, the places of the rest are shifted by its length. -/
theorem cutAt_append_add : cutAt (before ++ after) (byteLength before + place) =
    (cutAt after place).map fun cut => (before ++ cut.1, cut.2) := by
  refine Option.ext fun ⟨first, last⟩ => ?_
  rw [cutAt_eq_some_iff, Option.map_eq_some_iff]
  constructor
  · rintro ⟨htext, hplace⟩
    rcases List.append_eq_append_iff.mp htext with ⟨middle, rfl, rfl⟩ | ⟨middle, rfl, rfl⟩
    · rw [byteLength_append] at hplace
      exact ⟨(middle, last), cutAt_eq_some_iff.mpr ⟨rfl, by omega⟩, rfl⟩
    · rw [byteLength_append] at hplace
      have hmiddle : middle = [] := byteLength_eq_zero.mp (by omega)
      subst hmiddle
      refine ⟨([], after), cutAt_eq_some_iff.mpr ⟨rfl, ?_⟩, by simp⟩
      rw [byteLength_nil] at hplace ⊢
      omega
  · rintro ⟨⟨first', last'⟩, hcut, heq⟩
    obtain ⟨rfl, rfl⟩ := Prod.mk.inj heq
    obtain ⟨rfl, rfl⟩ := cutAt_eq_some_iff.mp hcut
    exact ⟨(List.append_assoc ..).symm, byteLength_append⟩

theorem insertChar_append_add : insertChar (before ++ after) (byteLength before + place) c =
    (insertChar after place c).map (before ++ ·) := by
  rw [insertChar, insertChar, cutAt_append_add, Option.map_map, Option.map_map]
  congr 1
  funext cut
  simp

theorem removeChar_append : removeChar (before ++ c :: after) (byteLength before) = some (before ++ after) := by
  rw [removeChar, cutAt_append]

theorem findChar_eq_none (h : c ∉ text) : findChar c text = none := by
  induction text with
  | nil => rfl
  | cons d text ih =>
      rw [List.mem_cons, not_or] at h
      rw [findChar, if_neg (Ne.symm h.1), ih h.2, Option.map_none]

/-- The first of the characters is found. -/
theorem findChar_append (h : c ∉ before) : findChar c (before ++ c :: after) = some (byteLength before) := by
  induction before with
  | nil => simp [findChar]
  | cons d before ih =>
      rw [List.mem_cons, not_or] at h
      rw [List.cons_append, findChar, if_neg (Ne.symm h.1), ih h.2, byteLength_cons, Option.map_some]

end

end Emane.Lib
