import Mathlib

set_option autoImplicit false

/-! # Text as bytes

The bytes of a text are those of its characters. A byte below 128 stands for its character alone, so a
scan for such bytes finds the characters, and what is between them is a text again.
-/

namespace Emane.Lib

/-- `str::as_bytes` -/
def utf8Bytes (text : List Char) : List UInt8 := text.flatMap String.utf8EncodeChar

/-- The byte of a character below 128. -/
def asciiByte (c : Char) : UInt8 := UInt8.ofNat c.val.toNat

/-- `str::from_utf8` -/
def fromUtf8 (bytes : List UInt8) : Option String := String.fromUTF8? bytes.toByteArray

section

variable {text before after : List Char} {c k : Char} {b : UInt8}

@[simp] theorem utf8Bytes_nil : utf8Bytes [] = [] := rfl

@[simp] theorem utf8Bytes_cons : utf8Bytes (c :: text) = String.utf8EncodeChar c ++ utf8Bytes text := rfl

@[simp] theorem utf8Bytes_append : utf8Bytes (before ++ after) = utf8Bytes before ++ utf8Bytes after := by
  simp [utf8Bytes]

theorem utf8Bytes_eq_nil_iff : utf8Bytes text = [] ↔ text = [] := by
  cases text with
  | nil => simp
  | cons c text => simp [String.utf8EncodeChar_ne_nil]

/-- The bytes of a text are read back. -/
theorem fromUtf8_utf8Bytes (text : List Char) : fromUtf8 (utf8Bytes text) = some (String.ofList text) := by
  have hbytes : (utf8Bytes text).toByteArray = text.utf8Encode := rfl
  have hvalid : (utf8Bytes text).toByteArray.IsValidUTF8 := hbytes ▸ ByteArray.isValidUTF8_utf8Encode
  rw [fromUtf8, String.fromUTF8?, dif_pos hvalid, Option.some_inj, ← String.toByteArray_inj,
    String.toByteArray_ofList]
  exact hbytes

/-- A byte below 128 is a character by itself. -/
theorem mem_utf8EncodeChar (h : b ∈ String.utf8EncodeChar c) :
    (c.val.toNat ≤ 127 ∧ b = asciiByte c) ∨ (127 < c.val.toNat ∧ 128 ≤ b.toNat) := by
  unfold String.utf8EncodeChar at h
  dsimp only at h
  split at h
  · next hle => exact .inl ⟨hle, List.mem_singleton.mp h⟩
  · next hle =>
      refine .inr ⟨by omega, ?_⟩
      split at h
      · simp only [List.mem_cons, List.not_mem_nil, or_false] at h
        rcases h with rfl | rfl <;> (rw [UInt8.toNat_ofNat']; omega)
      · split at h
        · simp only [List.mem_cons, List.not_mem_nil, or_false] at h
          rcases h with rfl | rfl | rfl <;> (rw [UInt8.toNat_ofNat']; omega)
        · simp only [List.mem_cons, List.not_mem_nil, or_false] at h
          rcases h with rfl | rfl | rfl | rfl <;> (rw [UInt8.toNat_ofNat']; omega)

theorem asciiByte_toNat (h : c.val.toNat ≤ 127) : (asciiByte c).toNat = c.val.toNat := by
  rw [asciiByte, UInt8.toNat_ofNat']
  omega

/-- The byte of a character below 128 is found in that character only. -/
theorem eq_asciiByte_iff (hk : k.val.toNat ≤ 127) (hb : b ∈ String.utf8EncodeChar c) :
    b = asciiByte k ↔ c = k := by
  constructor
  · intro heq
    rcases mem_utf8EncodeChar hb with ⟨hc, rfl⟩ | ⟨-, hhigh⟩
    · have hval := congrArg UInt8.toNat heq
      rw [asciiByte_toNat hc, asciiByte_toNat hk] at hval
      exact Char.ext (UInt32.toNat_inj.mp hval)
    · rw [heq, asciiByte_toNat hk] at hhigh
      omega
  · rintro rfl
    rcases mem_utf8EncodeChar hb with ⟨-, rfl⟩ | ⟨hhigh, -⟩
    · rfl
    · omega

/-! ## Scans -/

variable {p : UInt8 → Bool} {q : Char → Bool}

/-- The test of bytes is a test of characters. -/
def Reflects (p : UInt8 → Bool) (q : Char → Bool) : Prop := ∀ c, ∀ b ∈ String.utf8EncodeChar c, p b = q c

theorem reflects_ascii (hk : k.val.toNat ≤ 127) : Reflects (· == asciiByte k) (· == k) := by
  intro c b hb
  rw [Bool.eq_iff_iff, beq_iff_eq, beq_iff_eq, eq_asciiByte_iff hk hb]

theorem Reflects.not (h : Reflects p q) : Reflects (fun b => !p b) fun c => !q c := by
  intro c b hb
  dsimp only
  rw [h c b hb]

theorem Reflects.or {p' : UInt8 → Bool} {q' : Char → Bool} (h : Reflects p q) (h' : Reflects p' q') :
    Reflects (fun b => p b || p' b) fun c => q c || q' c := by
  intro c b hb
  dsimp only
  rw [h c b hb, h' c b hb]

theorem Reflects.takeWhile (h : Reflects p q) (text : List Char) :
    (utf8Bytes text).takeWhile p = utf8Bytes (text.takeWhile q) := by
  induction text with
  | nil => rfl
  | cons c text ih =>
      rw [utf8Bytes_cons, List.takeWhile_cons]
      cases hq : q c with
      | true =>
          rw [List.takeWhile_append_of_pos fun b hb => (h c b hb).trans hq, ih]
          rfl
      | false =>
          cases henc : String.utf8EncodeChar c with
          | nil => exact absurd henc String.utf8EncodeChar_ne_nil
          | cons b bytes =>
              have hb : p b = false := (h c b (henc ▸ List.mem_cons_self)).trans hq
              simp [hb]

end

end Emane.Lib
