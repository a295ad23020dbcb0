import Mathlib

set_option autoImplicit false

/-! # Numbers in text

Integers as `str::parse` reads them: a sign, which an unsigned number may have as a plus only, and
decimal digits, at least one. A number that does not fit is refused (`parseSigned_eq_some_iff`). -/

namespace Emane.Lib

/-- The value of a nonempty text of decimal digits. -/
def parseDigits (digits : List Char) : Option ℕ :=
  if digits.isEmpty || !digits.all Char.isDigit then none
  else some (digits.foldl (fun n c => 10 * n + (c.toNat - '0'.toNat)) 0)

/-- `str::parse` of an unsigned number with `bits` bits. -/
def parseUnsigned (bits : ℕ) (text : List Char) : Option ℕ :=
  let digits := match text with
    | '+' :: digits => digits
    | digits => digits
  (parseDigits digits).filter fun n => n < 2 ^ bits

/-- `str::parse` of a signed number with `bits + 1` bits. -/
def parseSigned (bits : ℕ) (text : List Char) : Option ℤ :=
  let number : Option ℤ := match text with
    | '-' :: digits => (parseDigits digits).map fun n => -(n : ℤ)
    | '+' :: digits => (parseDigits digits).map fun n => (n : ℤ)
    | digits => (parseDigits digits).map fun n => (n : ℤ)
  number.filter fun n => -2 ^ bits ≤ n ∧ n < 2 ^ bits

/-- The signs that may stand before the digits of a signed number. -/
def signs : List (List Char) := [[], ['+'], ['-']]

/-- The factor that a sign stands for. -/
def signOf (sign : List Char) : ℤ := if sign = ['-'] then -1 else 1

/-- The value of digits. -/
def digitsValue (digits : List Char) : ℕ :=
  digits.foldl (fun n c => 10 * n + (c.toNat - '0'.toNat)) 0

example : parseUnsigned 16 "+0042".toList = some 42 := by decide +kernel
example : parseUnsigned 16 "65536".toList = none := by decide +kernel
example : parseSigned 15 "-32768".toList = some (-32768) := by decide +kernel

section

variable {text sign digits more : List Char} {bits : ℕ} {n : ℤ}

theorem parseDigits_eq_some_iff {m : ℕ} : parseDigits digits = some m ↔
    digits ≠ [] ∧ (∀ c ∈ digits, c.isDigit) ∧ digitsValue digits = m := by
  rw [parseDigits, Option.ite_none_left_eq_some, Option.some_inj, digitsValue]
  simp [and_assoc]

/-- A sign has no digit. -/
theorem not_isDigit_of_mem_signs (h : sign ∈ signs) {c : Char} (hc : c ∈ sign) : c.isDigit = false := by
  simp only [signs, List.mem_cons, List.not_mem_nil, or_false] at h
  rcases h with rfl | rfl | rfl
  · cases hc
  · rw [List.mem_singleton.mp hc]
    rfl
  · rw [List.mem_singleton.mp hc]
    rfl

theorem isDigit_of_mem_signed (hsign : sign ∈ signs) (hdigits : ∀ c ∈ digits, c.isDigit) {c : Char}
    (hc : c ∈ sign ++ digits) : c.isDigit ∨ c = '+' ∨ c = '-' := by
  rcases List.mem_append.mp hc with hc | hc
  · simp only [signs, List.mem_cons, List.not_mem_nil, or_false] at hsign
    rcases hsign with rfl | rfl | rfl <;> simp_all
  · exact .inl (hdigits c hc)

/-- What is accepted as a signed number. -/
theorem parseSigned_eq_some_iff : parseSigned bits text = some n ↔
    ∃ sign ∈ signs, ∃ digits, digits ≠ [] ∧ (∀ c ∈ digits, c.isDigit) ∧ text = sign ++ digits ∧
      signOf sign * digitsValue digits = n ∧ -2 ^ bits ≤ n ∧ n < 2 ^ bits := by
  have hread : ∀ (text : List Char) (f : ℤ → ℤ),
      (((parseDigits text).bind fun m => some (m : ℤ)).map f).filter
          (fun n => -2 ^ bits ≤ n ∧ n < 2 ^ bits) = some n ↔
        text ≠ [] ∧ (∀ c ∈ text, c.isDigit) ∧ f (digitsValue text) = n ∧ -2 ^ bits ≤ n ∧ n < 2 ^ bits := by
    intro text f
    simp only [Option.filter_eq_some_iff, Option.map_eq_some_iff, Option.bind_eq_some_iff,
      parseDigits_eq_some_iff, decide_eq_true_eq]
    constructor
    · rintro ⟨⟨_, ⟨_, ⟨hne, hall, rfl⟩, heq⟩, hf⟩, hrange⟩
      rw [← Option.some.inj heq] at hf
      exact ⟨hne, hall, hf, hrange⟩
    · rintro ⟨hne, hall, hf, hrange⟩
      exact ⟨⟨_, ⟨_, ⟨hne, hall, rfl⟩, rfl⟩, hf⟩, hrange⟩
  unfold parseSigned
  constructor
  · intro h
    split at h
    · next digits =>
        obtain ⟨hne, hall, hvalue, hrange⟩ := (hread digits fun n => -n).mp h
        refine ⟨['-'], by simp [signs], digits, hne, hall, rfl, ?_, hrange⟩
        rw [← hvalue, signOf, if_pos rfl, neg_one_mul]
    · next digits =>
        obtain ⟨hne, hall, hvalue, hrange⟩ := (hread digits fun n => n).mp h
        refine ⟨['+'], by simp [signs], digits, hne, hall, rfl, ?_, hrange⟩
        rw [← hvalue, signOf, if_neg (by decide), one_mul]
    · obtain ⟨hne, hall, hvalue, hrange⟩ := (hread text fun n => n).mp h
      refine ⟨[], by simp [signs], text, hne, hall, rfl, ?_, hrange⟩
      rw [← hvalue, signOf, if_neg (by decide), one_mul]
  · rintro ⟨sign, hsign, digits, hne, hall, rfl, hvalue, hrange⟩
    simp only [signs, List.mem_cons, List.not_mem_nil, or_false] at hsign
    rcases hsign with rfl | rfl | rfl
    · rw [signOf, if_neg (by decide), one_mul] at hvalue
      rw [List.nil_append]
      split
      · have := hall '-' (by simp)
        contradiction
      · have := hall '+' (by simp)
        contradiction
      · exact (hread digits fun n => n).mpr ⟨hne, hall, hvalue, hrange⟩
    · rw [signOf, if_neg (by decide), one_mul] at hvalue
      exact (hread digits fun n => n).mpr ⟨hne, hall, hvalue, hrange⟩
    · rw [signOf, if_pos rfl, neg_one_mul] at hvalue
      exact (hread digits fun n => -n).mpr ⟨hne, hall, hvalue, hrange⟩

/-- Digits at the end of a signed number leave a sign and digits before them. -/
theorem signed_of_append (hsign : sign ∈ signs) (hmore : ∀ c ∈ more, c.isDigit)
    (h : text ++ more = sign ++ digits) : ∃ front, text = sign ++ front ∧ digits = front ++ more := by
  rcases List.append_eq_append_iff.mp h with ⟨rest, rfl, rfl⟩ | ⟨front, rfl, rfl⟩
  · cases rest with
    | nil => exact ⟨[], by simp, by simp⟩
    | cons c rest =>
        have hdigit := hmore c (by simp)
        rw [not_isDigit_of_mem_signs hsign (by simp)] at hdigit
        cases hdigit
  · exact ⟨front, rfl, rfl⟩

/-- A signed number has one sign. -/
theorem parseSigned_signed (hsign : sign ∈ signs) (hne : digits ≠ []) (hall : ∀ c ∈ digits, c.isDigit) :
    parseSigned bits (sign ++ digits) = some n ↔
      signOf sign * digitsValue digits = n ∧ -2 ^ bits ≤ n ∧ n < 2 ^ bits := by
  rw [parseSigned_eq_some_iff]
  constructor
  · rintro ⟨sign', hsign', digits', -, hall', heq, hvalue⟩
    obtain ⟨front, rfl, rfl⟩ := signed_of_append hsign' hall heq
    cases front with
    | nil => simpa using hvalue
    | cons c front =>
        have hdigit := hall' c (by simp)
        rw [not_isDigit_of_mem_signs hsign (by simp)] at hdigit
        cases hdigit
  · intro hvalue
    exact ⟨sign, hsign, digits, hne, hall, rfl, hvalue⟩

/-- A signed number ends with a digit. -/
theorem isDigit_of_parseSigned {c : Char} (h : parseSigned bits (text ++ [c]) = some n) : c.isDigit := by
  obtain ⟨sign, -, digits, hne, hall, heq, -⟩ := parseSigned_eq_some_iff.mp h
  obtain ⟨front, d, rfl⟩ := List.eq_nil_or_concat digits |>.resolve_left hne
  rw [List.concat_eq_append, ← List.append_assoc] at heq
  obtain ⟨-, hd⟩ := List.append_inj' heq rfl
  rw [List.singleton_inj.mp hd]
  exact hall d (by simp)

/-- Without digits at its end, a signed number is a sign and digits. -/
theorem signed_of_parseSigned (h : parseSigned bits (text ++ more) = some n)
    (hmore : ∀ c ∈ more, c.isDigit) :
    ∃ sign ∈ signs, ∃ front, (∀ c ∈ front, c.isDigit) ∧ text = sign ++ front := by
  obtain ⟨sign, hsign, digits, -, hall, heq, -⟩ := parseSigned_eq_some_iff.mp h
  obtain ⟨front, rfl, rfl⟩ := signed_of_append hsign hmore heq
  exact ⟨sign, hsign, front, fun c hc => hall c (by simp [hc]), rfl⟩

/-- What ends a sign and digits is a digit, or is the sign. -/
theorem signed_concat {c : Char} (hsign : sign ∈ signs) (hall : ∀ c ∈ digits, c.isDigit)
    (h : text ++ [c] = sign ++ digits) :
    (c.isDigit ∧ ∃ front, text = sign ++ front ∧ digits = front ++ [c]) ∨
      (text = [] ∧ (c = '+' ∨ c = '-')) := by
  rcases List.eq_nil_or_concat digits with rfl | ⟨front, d, rfl⟩
  · rw [List.append_nil] at h
    subst h
    simp only [signs, List.mem_cons, List.not_mem_nil, or_false] at hsign
    cases text <;> simp_all
  · rw [List.concat_eq_append, ← List.append_assoc] at h
    obtain ⟨rfl, hd⟩ := List.append_inj' h rfl
    rw [List.singleton_inj.mp hd]
    exact .inl ⟨hall d (by simp), front, rfl, by simp⟩

theorem foldl_digits (digits : List Char) (m : ℕ) :
    digits.foldl (fun n c => 10 * n + (c.toNat - '0'.toNat)) m =
      m * 10 ^ digits.length + digitsValue digits := by
  induction digits generalizing m with
  | nil => simp [digitsValue]
  | cons c digits ih =>
      rw [digitsValue, List.foldl_cons, List.foldl_cons, ih, ih (10 * 0 + _), List.length_cons]
      ring

theorem digitsValue_append : digitsValue (digits ++ more) =
    digitsValue digits * 10 ^ more.length + digitsValue more := by
  rw [digitsValue, List.foldl_append, foldl_digits]
  rfl

theorem digitsValue_lt (h : ∀ c ∈ digits, c.isDigit) : digitsValue digits < 10 ^ digits.length := by
  induction digits with
  | nil => simp [digitsValue]
  | cons c digits ih =>
      have hlt := ih fun d hd => h d (by simp [hd])
      have hc : c.toNat - '0'.toNat ≤ 9 := by
        have hdigit := h c (by simp)
        simp only [Char.isDigit, Bool.and_eq_true, decide_eq_true_eq, ge_iff_le] at hdigit
        have hle : c.toNat ≤ '9'.toNat := hdigit.2
        have h9 : '9'.toNat = 57 := rfl
        have h0 : '0'.toNat = 48 := rfl
        omega
      have hvalue : digitsValue (c :: digits) = (c.toNat - '0'.toNat) * 10 ^ digits.length +
          digitsValue digits := by
        rw [digitsValue, List.foldl_cons, foldl_digits, Nat.mul_zero, Nat.zero_add]
      rw [hvalue, List.length_cons, pow_succ]
      nlinarith

/-- The digits at the end are what is lost in a division. -/
theorem digitsValue_append_div (h : ∀ c ∈ more, c.isDigit) :
    digitsValue (digits ++ more) / 10 ^ more.length = digitsValue digits := by
  rw [digitsValue_append, Nat.add_comm, Nat.add_mul_div_right _ _ (by positivity),
    Nat.div_eq_of_lt (digitsValue_lt h), Nat.zero_add]

end

end Emane.Lib
