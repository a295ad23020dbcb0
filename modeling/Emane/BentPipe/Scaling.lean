import Mathlib
import Emane.Lib.Numerals
import Emane.Lib.Slicing
import Emane.Lib.Text
import Emane.Lib.Truncation

set_option autoImplicit false

/-! # The scaling of a BentPipe SINR

The SINR of a row of a reception curve is a text, and `scaleFloatToInteger` makes hundredths of it by
editing the text: it moves the point two digits to the right and reads what is before the point. A
numeral is scaled right (`scaleFloatToInteger_spells`). But the text behind the second digit is not
looked at, an empty text becomes a number with the padding, and the place of the new point is counted in
bytes, where a character can be in the way (`Misread`).
-/

namespace Emane.BentPipe

open Emane.Lib

/-! ## Scaling -/

def scaleFactor : ℕ := 2

/-- The text with the point moved, or with one less where the moved point is at the end. -/
def movePoint (value : List Char) : Option (List Char) :=
  match findChar '.' value with
  | none => some (value ++ List.replicate scaleFactor '0')
  | some indexPoint => do
      let numDigitsAfter := byteLength value - indexPoint - 1
      let tmp ←
        if numDigitsAfter > scaleFactor then
          insertChar value (byteLength value - (numDigitsAfter - scaleFactor)) '.'
        else some (value ++ List.replicate (scaleFactor - numDigitsAfter) '0')
      removeChar tmp indexPoint

/-- `scale_float_to_integer` -/
def scaleFloatToInteger (value : String) : Except (Stop String) ℤ :=
  match movePoint value.toList with
  | none => .error .panicked
  | some tmp =>
      match parseSigned 31 (tmp.takeWhile (· != '.')) with
      | some scaled => .ok scaled
      | none => .error (.refused ("Invalid sinr value: " ++ value))

/-! ## Decimal numerals -/

/-- The parts of a decimal numeral. -/
structure Decimal where
  sign : List Char
  integer : List Char
  fraction : List Char
  sign_mem : sign ∈ signs
  isDigit : ∀ c ∈ integer ++ fraction, c.isDigit
  ne_nil : integer ++ fraction ≠ []

namespace Decimal

/-- How a numeral is written: without digits behind the point the point may be missing. -/
inductive Spells (d : Decimal) : List Char → Prop
  | pointed : d.Spells (d.sign ++ d.integer ++ '.' :: d.fraction)
  | plain (h : d.fraction = []) : d.Spells (d.sign ++ d.integer)

def value (d : Decimal) : ℚ :=
  signOf d.sign * (digitsValue (d.integer ++ d.fraction) / 10 ^ d.fraction.length)

end Decimal

/-- The text is a decimal numeral with this value. -/
def Denotes (text : List Char) (x : ℚ) : Prop := ∃ d : Decimal, d.Spells text ∧ d.value = x

/-- The text is scaled as a numeral, and only if it is one. -/
def Scales (value : String) : Prop :=
  (∀ n, scaleFloatToInteger value = .ok n ↔
    ∃ x, Denotes value.toList x ∧ truncate (100 * x) = n ∧ -2 ^ 31 ≤ n ∧ n < 2 ^ 31) ∧
  scaleFloatToInteger value ≠ .error .panicked

/-- The texts that are not read as what they are. The first point is between `integer` and `after`. -/
inductive Misread : List Char → Prop
  /-- there is no digit -/
  | blank {sign : List Char} (h : sign ∈ signs) : Misread sign
  | blankPointed {sign : List Char} (h : sign ∈ signs) : Misread (sign ++ ['.'])
  /-- the sign is behind the point -/
  | lateSign {c : Char} (h : c = '+' ∨ c = '-') : Misread ['.', c]
  | lateSignDigit {c d : Char} {more : List Char} (h : c = '+' ∨ c = '-') (hd : d.isDigit) :
      Misread ('.' :: c :: d :: more)
  /-- two digits are behind the point, and then something else than digits -/
  | trailing {integer more : List Char} {c d : Char} (hfits : (parseSigned 31 (integer ++ [c, d])).isSome)
      (hc : c.isDigit) (hd : d.isDigit) (hmore : ¬ ∀ e ∈ more, e.isDigit) :
      Misread (integer ++ '.' :: c :: d :: more)
  /-- at most one digit is between two points -/
  | secondPoint {integer more : List Char} (hfits : (parseSigned 31 integer).isSome) :
      Misread (integer ++ '.' :: '.' :: more)
  | lateSecondPoint {integer more : List Char} {c : Char} (hfits : (parseSigned 31 (integer ++ [c])).isSome)
      (hc : c.isDigit) : Misread (integer ++ '.' :: c :: '.' :: more)
  /-- the second byte behind the point does not end a character, and there are more -/
  | inside {integer after : List Char} (hpoint : '.' ∉ integer) (hlong : scaleFactor < byteLength after)
      (hcut : cutAt after scaleFactor = none) : Misread (integer ++ '.' :: after)

theorem isDigit_of_mem_zeros : ∀ c ∈ ['0', '0'], c.isDigit := by
  intro c hc
  simp only [List.mem_cons, List.not_mem_nil, or_false, or_self] at hc
  rw [hc]
  rfl

namespace Decimal

variable {d : Decimal} {text integer after : List Char}

theorem spells_iff : d.Spells text ↔ text = d.sign ++ d.integer ++ '.' :: d.fraction ∨
    (d.fraction = [] ∧ text = d.sign ++ d.integer) := by
  constructor
  · rintro (_ | h)
    · exact .inl rfl
    · exact .inr ⟨h, rfl⟩
  · rintro (rfl | ⟨h, rfl⟩)
    · exact .pointed
    · exact .plain h

theorem point_notMem (d : Decimal) : '.' ∉ d.sign ++ d.integer := by
  intro h
  have hdigits : ∀ c ∈ d.integer, c.isDigit := fun c hc => d.isDigit c (by simp [hc])
  rcases isDigit_of_mem_signed d.sign_mem hdigits h with hpoint | hpoint | hpoint <;> cases hpoint

/-- The first point separates the parts. -/
theorem Spells.parts (h : d.Spells (integer ++ '.' :: after)) (hpoint : '.' ∉ integer) :
    integer = d.sign ++ d.integer ∧ after = d.fraction := by
  rcases spells_iff.mp h with heq | ⟨-, heq⟩
  · rcases List.append_eq_append_iff.mp heq with ⟨middle, hfront, hback⟩ | ⟨middle, hfront, hback⟩
    · cases middle with
      | nil => simp_all
      | cons c middle =>
          obtain ⟨rfl, -⟩ := List.cons.inj hback
          exact absurd (hfront ▸ by simp) d.point_notMem
    · cases middle with
      | nil => simp_all
      | cons c middle =>
          obtain ⟨rfl, -⟩ := List.cons.inj hback
          exact absurd (hfront ▸ by simp) hpoint
  · exact absurd (heq ▸ by simp) d.point_notMem

theorem Spells.plain_parts (h : d.Spells text) (hpoint : '.' ∉ text) :
    text = d.sign ++ d.integer ∧ d.fraction = [] := by
  rcases spells_iff.mp h with rfl | ⟨hnil, heq⟩
  · exact absurd (by simp) hpoint
  · exact ⟨heq, hnil⟩

/-- Digits up to the second one behind the point, with zeros for the missing ones. -/
def hundredths (d : Decimal) : List Char := d.integer ++ (d.fraction ++ ['0', '0']).take 2

theorem hundredths_ne_nil (d : Decimal) : d.hundredths ≠ [] := by
  rw [hundredths]
  rcases d.fraction with _ | ⟨c, _ | ⟨e, fraction⟩⟩ <;> simp

theorem isDigit_of_mem_hundredths (d : Decimal) : ∀ c ∈ d.hundredths, c.isDigit := by
  intro c hc
  rcases List.mem_append.mp hc with hc | hc
  · exact d.isDigit c (by simp [hc])
  · rcases List.mem_append.mp (List.mem_of_mem_take hc) with hc | hc
    · exact d.isDigit c (by simp [hc])
    · exact isDigit_of_mem_zeros c hc

/-- The digits that are left out are what the rounding toward zero drops. -/
theorem truncate_value (d : Decimal) :
    truncate (100 * d.value) = signOf d.sign * digitsValue d.hundredths := by
  have hdrop : ((d.fraction ++ ['0', '0']).drop 2).length = d.fraction.length := by simp
  have hdigits : ∀ c ∈ (d.fraction ++ ['0', '0']).drop 2, c.isDigit := by
    intro c hc
    rcases List.mem_append.mp (List.mem_of_mem_drop hc) with hc | hc
    · exact d.isDigit c (by simp [hc])
    · exact isDigit_of_mem_zeros c hc
  have hvalue : digitsValue (d.integer ++ d.fraction) * 100 / 10 ^ d.fraction.length =
      digitsValue d.hundredths := by
    calc digitsValue (d.integer ++ d.fraction) * 100 / 10 ^ d.fraction.length
        = digitsValue (d.integer ++ d.fraction ++ ['0', '0']) / 10 ^ d.fraction.length := by
          rw [@digitsValue_append (d.integer ++ d.fraction) ['0', '0']]
          rfl
      _ = digitsValue (d.hundredths ++ (d.fraction ++ ['0', '0']).drop 2) / 10 ^ d.fraction.length := by
          rw [hundredths, List.append_assoc, List.append_assoc, List.take_append_drop]
      _ = digitsValue d.hundredths := by
          rw [← hdrop, digitsValue_append_div hdigits]
  have habs : truncate ((100 : ℚ) * (digitsValue (d.integer ++ d.fraction) / 10 ^ d.fraction.length)) =
      digitsValue d.hundredths := by
    rw [← hvalue, ← truncate_natCast_div]
    congr 1
    push_cast
    ring
  unfold value signOf
  split
  · rw [← habs, neg_one_mul, ← truncate_neg]
    congr 1
    push_cast
    ring
  · rw [← habs, one_mul]
    congr 1
    push_cast
    ring

end Decimal

/-! ## What is read -/

/-- The text is read as the number. -/
def Reads (value : List Char) (n : ℤ) : Prop :=
  ∃ tmp, movePoint value = some tmp ∧ parseSigned 31 (tmp.takeWhile (· != '.')) = some n

theorem scaleFloatToInteger_eq_ok_iff {value : String} {n : ℤ} :
    scaleFloatToInteger value = .ok n ↔ Reads value.toList n := by
  unfold scaleFloatToInteger Reads
  cases movePoint value.toList with
  | none => simp
  | some tmp => cases hread : parseSigned 31 (tmp.takeWhile (· != '.')) <;> simp [hread]

theorem scaleFloatToInteger_eq_panicked_iff {value : String} :
    scaleFloatToInteger value = .error .panicked ↔ movePoint value.toList = none := by
  unfold scaleFloatToInteger
  cases movePoint value.toList with
  | none => simp
  | some tmp => cases hread : parseSigned 31 (tmp.takeWhile (· != '.')) <;> simp [hread]

theorem takeWhile_point {text : List Char} (h : '.' ∉ text) (more : List Char) :
    (text ++ more).takeWhile (· != '.') = text ++ more.takeWhile (· != '.') := by
  apply List.takeWhile_append_of_pos
  intro c hc
  simp only [bne_iff_ne, ne_eq]
  rintro rfl
  exact h hc

section

variable {value integer after : List Char} {n : ℤ}

theorem movePoint_plain (h : '.' ∉ value) : movePoint value = some (value ++ ['0', '0']) := by
  rw [movePoint, findChar_eq_none h]
  rfl

theorem movePoint_short (h : '.' ∉ integer) (hshort : byteLength after ≤ scaleFactor) :
    movePoint (integer ++ '.' :: after) =
      some (integer ++ (after ++ List.replicate (scaleFactor - byteLength after) '0')) := by
  have hpoint : Char.utf8Size '.' = 1 := rfl
  have hafter : byteLength (integer ++ '.' :: after) - byteLength integer - 1 = byteLength after := by
    rw [byteLength_append, byteLength_cons, hpoint]
    omega
  rw [movePoint, findChar_append h]
  dsimp only
  rw [hafter, if_neg (by omega), Option.bind_eq_bind, Option.bind_some, List.append_assoc, List.cons_append, removeChar_append]

/-- The new point is two bytes behind the old one. -/
theorem movePoint_long (h : '.' ∉ integer) (hlong : scaleFactor < byteLength after) :
    movePoint (integer ++ '.' :: after) =
      (cutAt after scaleFactor).map fun cut => integer ++ (cut.1 ++ '.' :: cut.2) := by
  have hpoint : Char.utf8Size '.' = 1 := rfl
  have hafter : byteLength (integer ++ '.' :: after) - byteLength integer - 1 = byteLength after := by
    rw [byteLength_append, byteLength_cons, hpoint]
    omega
  have hplace : byteLength (integer ++ '.' :: after) - (byteLength after - scaleFactor) =
      byteLength (integer ++ ['.']) + scaleFactor := by
    simp only [byteLength_append, byteLength_cons, byteLength_nil, hpoint]
    omega
  rw [movePoint, findChar_append h]
  dsimp only
  rw [hafter, if_pos hlong, hplace, ← List.singleton_append, ← List.append_assoc,
    insertChar_append_add, insertChar, Option.map_map, Option.bind_eq_bind, Option.bind_map]
  cases cutAt after scaleFactor with
  | none => rfl
  | some cut => simp [removeChar_append]

/-- What is left of the text behind the first point. -/
def kept (after : List Char) : Option (List Char) :=
  if byteLength after ≤ scaleFactor then
    some ((after ++ List.replicate (scaleFactor - byteLength after) '0').takeWhile (· != '.'))
  else (cutAt after scaleFactor).map fun cut => cut.1.takeWhile (· != '.')

theorem movePoint_pointed (h : '.' ∉ integer) :
    (movePoint (integer ++ '.' :: after)).map (List.takeWhile (· != '.')) =
      (kept after).map (integer ++ ·) := by
  unfold kept
  split
  · next hshort => rw [movePoint_short h hshort, Option.map_some, Option.map_some, takeWhile_point h]
  · next hlong =>
      rw [movePoint_long h (by omega), Option.map_map, Option.map_map]
      congr 1
      funext cut
      -- the part before the cut may have a point too
      have hcut : (cut.1 ++ '.' :: cut.2).takeWhile (· != '.') = cut.1.takeWhile (· != '.') := by
        rw [List.takeWhile_append]
        split
        · next hall =>
            have hself := (List.takeWhile_prefix (· != '.')).eq_of_length hall
            simpa using hself.symm
        · rfl
      rw [Function.comp_apply, Function.comp_apply, takeWhile_point h, hcut]

theorem reads_plain (h : '.' ∉ value) : Reads value n ↔ parseSigned 31 (value ++ ['0', '0']) = some n := by
  rw [Reads, movePoint_plain h]
  simp only [Option.some_inj, exists_eq_left']
  rw [takeWhile_point h]
  rfl

theorem reads_pointed (h : '.' ∉ integer) : Reads (integer ++ '.' :: after) n ↔
    ∃ k, kept after = some k ∧ parseSigned 31 (integer ++ k) = some n := by
  calc Reads (integer ++ '.' :: after) n
      ↔ ∃ text, (movePoint (integer ++ '.' :: after)).map (List.takeWhile (· != '.')) = some text ∧
          parseSigned 31 text = some n := by simp [Reads]
    _ ↔ _ := by simp [movePoint_pointed h]

theorem not_point_of_utf8Size {c : Char} (h : c.utf8Size = 2) : c ≠ '.' := by
  rintro rfl
  cases h

/-- A text of two bytes is one character or two. -/
theorem cases_of_byteLength {text : List Char} (h : byteLength text = 2) :
    (∃ c, c.utf8Size = 2 ∧ text = [c]) ∨ ∃ c d, c.utf8Size ≠ 2 ∧ text = [c, d] := by
  match text with
  | [] => cases h
  | [c] => exact .inl ⟨c, by simpa using h, rfl⟩
  | [c, d] =>
      have hd := d.utf8Size_pos
      simp only [byteLength_cons, byteLength_nil] at h
      exact .inr ⟨c, d, by omega, rfl⟩
  | c :: d :: e :: more =>
      have hc := c.utf8Size_pos
      have hd := d.utf8Size_pos
      have he := e.utf8Size_pos
      simp only [byteLength_cons] at h
      omega

/-- What is left begins the text behind the point, or pads it. -/
inductive Keeps : List Char → List Char → Prop
  | padding : Keeps [] ['0', '0']
  | padded {c : Char} (hc : c ≠ '.') (hsize : c.utf8Size ≠ 2) : Keeps [c] [c, '0']
  | point {more : List Char} : Keeps ('.' :: more) []
  | first {c : Char} {more : List Char} (hc : c ≠ '.') : Keeps (c :: '.' :: more) [c]
  | both {c d : Char} {more : List Char} (hc : c ≠ '.') (hd : d ≠ '.') (hsize : c.utf8Size ≠ 2) :
      Keeps (c :: d :: more) [c, d]
  | wide {c : Char} {more : List Char} (hc : c.utf8Size = 2) : Keeps (c :: more) [c]

theorem Keeps.of_byteLength {text : List Char} (h : byteLength text = 2) (more : List Char) :
    Keeps (text ++ more) (text.takeWhile (· != '.')) := by
  obtain ⟨c, hc, rfl⟩ | ⟨c, d, hsize, rfl⟩ := cases_of_byteLength h
  · have hne := not_point_of_utf8Size hc
    simpa [hne] using Keeps.wide hc
  · by_cases hc : c = '.'
    · subst hc
      exact .point
    · by_cases hd : d = '.'
      · subst hd
        simpa [hc] using Keeps.first hc
      · simpa [hc, hd] using Keeps.both hc hd hsize

theorem keeps_of_kept {k : List Char} (h : kept after = some k) : Keeps after k := by
  unfold kept at h
  split at h
  · next hshort =>
      rw [Option.some_inj] at h
      subst h
      rcases Nat.lt_or_ge (byteLength after) 2 with hlt | hge
      · -- less than two bytes are padded
        match after with
        | [] => exact .padding
        | [c] =>
            have hpos := c.utf8Size_pos
            have hsize : c.utf8Size = 1 := by
              simp only [byteLength_cons, byteLength_nil] at hlt
              omega
            by_cases hc : c = '.'
            · subst hc
              exact .point
            · simpa [scaleFactor, hsize, hc] using Keeps.padded hc (by omega)
        | c :: d :: more =>
            have hc := c.utf8Size_pos
            have hd := d.utf8Size_pos
            simp only [byteLength_cons] at hlt
            omega
      · have htwo : byteLength after = 2 := by
          unfold scaleFactor at hshort
          omega
        simpa [scaleFactor, htwo] using Keeps.of_byteLength htwo []
  · obtain ⟨⟨before, more⟩, hcut, rfl⟩ := Option.map_eq_some_iff.mp h
    obtain ⟨rfl, htwo⟩ := cutAt_eq_some_iff.mp hcut
    exact Keeps.of_byteLength htwo more

theorem Keeps.unique {k k' : List Char} (h : Keeps after k) (h' : Keeps after k') : k = k' := by
  have hpoint : Char.utf8Size '.' = 1 := rfl
  cases h <;> cases h' <;> simp_all

theorem movePoint_eq_none_iff (h : '.' ∉ integer) : movePoint (integer ++ '.' :: after) = none ↔
    scaleFactor < byteLength after ∧ cutAt after scaleFactor = none := by
  rcases Nat.lt_or_ge scaleFactor (byteLength after) with hlong | hshort
  · rw [movePoint_long h hlong]
    simp [hlong]
  · rw [movePoint_short h hshort]
    simp only [reduceCtorEq, false_iff]
    omega

/-! ## Digits behind the point -/

theorem utf8Size_of_isDigit {c : Char} (h : c.isDigit) : c.utf8Size = 1 := by
  simp only [Char.isDigit, Bool.and_eq_true, decide_eq_true_eq] at h
  have hle : c.val ≤ 127 := UInt32.le_trans h.2 (by decide)
  simp [Char.utf8Size, hle]

theorem ne_point_of_isDigit {c : Char} (h : c.isDigit) : c ≠ '.' := by
  rintro rfl
  cases h

/-- Before a sign and digits are read, they have no point. -/
theorem point_notMem_of_parseSigned (h : parseSigned 31 integer = some n) : '.' ∉ integer := by
  obtain ⟨sign, hsign, digits, -, hall, rfl, -⟩ := parseSigned_eq_some_iff.mp h
  intro hmem
  rcases isDigit_of_mem_signed hsign hall hmem with hpoint | hpoint | hpoint <;> cases hpoint

/-- Of digits behind the point two are kept. -/
theorem kept_digits (h : ∀ c ∈ after, c.isDigit) : kept after = some ((after ++ ['0', '0']).take 2) := by
  match after with
  | [] => rfl
  | [c] =>
      have hc := h c (by simp)
      simp [kept, scaleFactor, utf8Size_of_isDigit hc, ne_point_of_isDigit hc]
  | c :: d :: more =>
      have hc := h c (by simp)
      have hd := h d (by simp)
      have htwo : byteLength [c, d] = scaleFactor := by
        simp [scaleFactor, utf8Size_of_isDigit hc, utf8Size_of_isDigit hd]
      have hcut : cutAt ([c, d] ++ more) scaleFactor = some ([c, d], more) := htwo ▸ cutAt_append
      unfold kept
      split
      · next hshort =>
          have hmore : more = [] := by
            rw [← byteLength_eq_zero]
            simp only [byteLength_cons, byteLength_nil] at hshort htwo
            omega
          subst hmore
          simp [htwo, ne_point_of_isDigit hc, ne_point_of_isDigit hd]
      · change (cutAt ([c, d] ++ more) scaleFactor).map _ = _
        rw [hcut]
        simp [ne_point_of_isDigit hc, ne_point_of_isDigit hd]

/-- **A numeral is read as what it denotes.** -/
theorem Decimal.Spells.reads_iff {d : Decimal} (h : d.Spells value) :
    Reads value n ↔ truncate (100 * d.value) = n ∧ -2 ^ 31 ≤ n ∧ n < 2 ^ 31 := by
  rw [d.truncate_value, ← parseSigned_signed d.sign_mem d.hundredths_ne_nil d.isDigit_of_mem_hundredths]
  cases h with
  | pointed =>
      rw [reads_pointed d.point_notMem, kept_digits fun c hc => d.isDigit c (by simp [hc])]
      simp [Decimal.hundredths]
  | plain hnil =>
      rw [reads_plain d.point_notMem, Decimal.hundredths, hnil]
      simp

/-! ## Texts that are not numerals -/

theorem point_notMem_sign {sign : List Char} : sign ∈ signs → '.' ∉ sign := by
  revert sign
  decide

theorem denotes_of_signed {sign front : List Char} (hsign : sign ∈ signs)
    (hfront : ∀ c ∈ front, c.isDigit) (hafter : ∀ c ∈ after, c.isDigit) (hne : front ++ after ≠ []) :
    ∃ x, Denotes (sign ++ front ++ '.' :: after) x := by
  refine ⟨_, ⟨sign, front, after, hsign, ?_, hne⟩, .pointed, rfl⟩
  intro c hc
  exact (List.mem_append.mp hc).elim (hfront c) (hafter c)

/-- What is read is a numeral, or is misread. -/
theorem denotes_or_misread (h : Reads value n) : (∃ x, Denotes value x) ∨ Misread value := by
  by_cases hpoint : '.' ∈ value
  · obtain ⟨integer, after, rfl, hinteger⟩ := List.eq_append_cons_of_mem hpoint
    obtain ⟨k, hk, hparse⟩ := (reads_pointed hinteger).mp h
    cases keeps_of_kept hk with
    | padding =>
        obtain ⟨sign, hsign, front, hfront, rfl⟩ := signed_of_parseSigned hparse isDigit_of_mem_zeros
        by_cases hnil : front = []
        · subst hnil
          rw [List.append_nil]
          exact .inr (.blankPointed hsign)
        · exact .inl (denotes_of_signed hsign hfront (by simp) (by simpa using hnil))
    | @padded c hc hsize =>
        have hparse : parseSigned 31 (integer ++ [c] ++ ['0']) = some n := by simpa using hparse
        obtain ⟨sign, hsign, front, hfront, heq⟩ :=
          signed_of_parseSigned hparse fun e he => isDigit_of_mem_zeros e (by simp_all)
        rcases signed_concat hsign hfront heq with ⟨hdigit, front, rfl, rfl⟩ | ⟨rfl, hc⟩
        · exact .inl (denotes_of_signed hsign (fun d hd => hfront d (by simp [hd])) (by simpa using hdigit)
            (by simp))
        · exact .inr (.lateSign hc)
    | point =>
        rw [List.append_nil] at hparse
        exact .inr (.secondPoint (by simp [hparse]))
    | first hc => exact .inr (.lateSecondPoint (by simp [hparse]) (isDigit_of_parseSigned hparse))
    | @both c d more hc hd hsize =>
        have hparse : parseSigned 31 (integer ++ [c] ++ [d]) = some n := by simpa using hparse
        have hdigit : d.isDigit := isDigit_of_parseSigned hparse
        obtain ⟨sign, hsign, front, hfront, heq⟩ := signed_of_parseSigned hparse (by simpa using hdigit)
        rcases signed_concat hsign hfront heq with ⟨hcdigit, front, rfl, rfl⟩ | ⟨rfl, hc⟩
        · by_cases hmore : ∀ e ∈ more, e.isDigit
          · exact .inl (denotes_of_signed hsign (fun e he => hfront e (by simp [he]))
              (by simpa [hcdigit, hdigit] using hmore) (by simp))
          · exact .inr (.trailing (by simpa using Option.isSome_of_eq_some hparse) hcdigit hdigit hmore)
        · exact .inr (.lateSignDigit hc hdigit)
    | wide hc =>
        rw [utf8Size_of_isDigit (isDigit_of_parseSigned hparse)] at hc
        cases hc
  · rw [reads_plain hpoint] at h
    obtain ⟨sign, hsign, front, hfront, rfl⟩ := signed_of_parseSigned h isDigit_of_mem_zeros
    by_cases hnil : front = []
    · subst hnil
      rw [List.append_nil]
      exact .inr (.blank hsign)
    · exact .inl ⟨_, ⟨sign, front, [], hsign, by simpa using hfront, by simpa using hnil⟩, .plain rfl, rfl⟩

theorem Misread.not_denotes (h : Misread value) (x : ℚ) : ¬ Denotes value x := by
  -- the digits of a sign, and of a numeral's fraction, decide all cases
  have hsign : ∀ {sign digits : List Char}, sign ++ digits ∈ signs → (∀ c ∈ digits, c.isDigit) →
      digits = [] := by
    intro sign digits hmem hall
    cases digits with
    | nil => rfl
    | cons c digits =>
        have hdigit := hall c (by simp)
        rw [not_isDigit_of_mem_signs hmem (by simp)] at hdigit
        cases hdigit
  have hfraction : ∀ {integer after : List Char}, '.' ∉ integer → Denotes (integer ++ '.' :: after) x →
      (∀ c ∈ after, c.isDigit) ∧ (integer ∈ signs → after ≠ []) := by
    rintro integer after hpoint ⟨d, hspells, -⟩
    obtain ⟨rfl, rfl⟩ := hspells.parts hpoint
    refine ⟨fun c hc => d.isDigit c (by simp [hc]), fun hmem hnil => d.ne_nil ?_⟩
    rw [hsign hmem fun c hc => d.isDigit c (by simp [hc]), hnil, List.nil_append]
  intro hdenotes
  cases h with
  | blank hmem =>
      obtain ⟨d, hspells, -⟩ := hdenotes
      obtain ⟨rfl, hnil⟩ := hspells.plain_parts (point_notMem_sign hmem)
      apply d.ne_nil
      rw [hnil, List.append_nil]
      exact hsign hmem fun c hc => d.isDigit c (by simp [hc])
  | blankPointed hmem => exact (hfraction (point_notMem_sign hmem) hdenotes).2 hmem rfl
  | lateSign hc =>
      have hdigit := (@hfraction [] _ (by simp) hdenotes).1 _ List.mem_cons_self
      rcases hc with rfl | rfl <;> cases hdigit
  | lateSignDigit hc hd =>
      have hdigit := (@hfraction [] _ (by simp) hdenotes).1 _ List.mem_cons_self
      rcases hc with rfl | rfl <;> cases hdigit
  | trailing hfits hc hd hmore =>
      obtain ⟨n, hparse⟩ := Option.isSome_iff_exists.mp hfits
      have hpoint := point_notMem_of_parseSigned hparse
      exact hmore fun e he => (hfraction (by simp_all) hdenotes).1 e (by simp [he])
  | secondPoint hfits =>
      obtain ⟨n, hparse⟩ := Option.isSome_iff_exists.mp hfits
      have hdigit := (hfraction (point_notMem_of_parseSigned hparse) hdenotes).1 '.' (by simp)
      cases hdigit
  | lateSecondPoint hfits hc =>
      obtain ⟨n, hparse⟩ := Option.isSome_iff_exists.mp hfits
      have hpoint := point_notMem_of_parseSigned hparse
      have hdigit := (hfraction (by simp_all) hdenotes).1 '.' (by simp)
      cases hdigit
  | inside hpoint hlong hcut =>
      have hkept := kept_digits (hfraction hpoint hdenotes).1
      rw [kept, if_neg (by omega), hcut] at hkept
      cases hkept

/-- What is misread is read as a number, or panics. -/
theorem Misread.reads (h : Misread value) : movePoint value = none ∨ ∃ n, Reads value n := by
  have hpointed : ∀ {integer after k : List Char} {n : ℤ}, '.' ∉ integer → Keeps after k →
      parseSigned 31 (integer ++ k) = some n →
      movePoint (integer ++ '.' :: after) = none ∨ ∃ n, Reads (integer ++ '.' :: after) n := by
    intro integer after k n hpoint hkeeps hparse
    cases hkept : kept after with
    | none =>
        left
        simpa [hkept] using @movePoint_pointed integer after hpoint
    | some k' =>
        right
        refine ⟨n, (reads_pointed hpoint).mpr ⟨k', hkept, ?_⟩⟩
        rw [← hkeeps.unique (keeps_of_kept hkept), hparse]
  have hzeros : ∀ {sign : List Char}, sign ∈ signs → parseSigned 31 (sign ++ ['0', '0']) = some 0 := by
    decide +kernel
  cases h with
  | blank hmem => exact .inr ⟨0, (reads_plain (point_notMem_sign hmem)).mpr (hzeros hmem)⟩
  | blankPointed hmem => exact hpointed (point_notMem_sign hmem) .padding (hzeros hmem)
  | @lateSign c hc =>
      refine @hpointed [] _ [c, '0'] 0 (by simp) ?_ ?_
      · rcases hc with rfl | rfl
        · exact .padded (by decide) (by decide)
        · exact .padded (by decide) (by decide)
      · rcases hc with rfl | rfl <;> decide +kernel
  | @lateSignDigit c d more hc hd =>
      have hsign : [c] ∈ signs := by rcases hc with rfl | rfl <;> decide
      have hvalue : digitsValue [d] < 10 := digitsValue_lt (by simpa using hd)
      have hparse : parseSigned 31 ([c] ++ [d]) = some (signOf [c] * digitsValue [d]) := by
        rw [parseSigned_signed hsign (by simp) (by simpa using hd)]
        refine ⟨rfl, ?_⟩
        unfold signOf
        split <;> omega
      refine @hpointed [] _ _ _ (by simp) (.both ?_ (ne_point_of_isDigit hd) ?_) hparse
      · rcases hc with rfl | rfl <;> decide
      · rcases hc with rfl | rfl <;> decide
  | trailing hfits hc hd hmore =>
      obtain ⟨n, hparse⟩ := Option.isSome_iff_exists.mp hfits
      have hpoint := point_notMem_of_parseSigned hparse
      refine hpointed (by simp_all) (.both (ne_point_of_isDigit hc) (ne_point_of_isDigit hd) ?_) hparse
      rw [utf8Size_of_isDigit hc]
      decide
  | secondPoint hfits =>
      obtain ⟨n, hparse⟩ := Option.isSome_iff_exists.mp hfits
      exact hpointed (point_notMem_of_parseSigned hparse) .point (by rwa [List.append_nil])
  | lateSecondPoint hfits hc =>
      obtain ⟨n, hparse⟩ := Option.isSome_iff_exists.mp hfits
      have hpoint := point_notMem_of_parseSigned hparse
      exact hpointed (by simp_all) (.first (ne_point_of_isDigit hc)) hparse
  | inside hpoint hlong hcut => exact .inl ((movePoint_eq_none_iff hpoint).mpr ⟨hlong, hcut⟩)

/-- **Which texts are scaled right**: those that are not misread. -/
theorem scales_iff (value : String) : Scales value ↔ ¬ Misread value.toList := by
  constructor
  · rintro ⟨hok, hpanic⟩ hmisread
    rcases hmisread.reads with hnone | ⟨n, hreads⟩
    · exact hpanic (scaleFloatToInteger_eq_panicked_iff.mpr hnone)
    · obtain ⟨x, hdenotes, -⟩ := (hok n).mp (scaleFloatToInteger_eq_ok_iff.mpr hreads)
      exact hmisread.not_denotes x hdenotes
  · intro hmisread
    constructor
    · intro n
      rw [scaleFloatToInteger_eq_ok_iff]
      constructor
      · intro hreads
        obtain ⟨x, d, hspells, hx⟩ := (denotes_or_misread hreads).resolve_right hmisread
        exact ⟨x, ⟨d, hspells, hx⟩, hx ▸ hspells.reads_iff.mp hreads⟩
      · rintro ⟨x, ⟨d, hspells, rfl⟩, hvalue⟩
        exact hspells.reads_iff.mpr hvalue
    · intro hpanicked
      rw [scaleFloatToInteger_eq_panicked_iff] at hpanicked
      apply hmisread
      by_cases hpoint : '.' ∈ value.toList
      · obtain ⟨integer, after, heq, hinteger⟩ := List.eq_append_cons_of_mem hpoint
        rw [heq] at hpanicked ⊢
        obtain ⟨hlong, hcut⟩ := (movePoint_eq_none_iff hinteger).mp hpanicked
        exact .inside hinteger hlong hcut
      · rw [movePoint_plain hpoint] at hpanicked
        cases hpanicked

/-- The exponent of a number is not looked at, and a character can stand where the point belongs. -/
theorem scales_fails : scaleFloatToInteger "1.23e4" = .ok 123 ∧ ¬ Scales "1.23e4" ∧
    scaleFloatToInteger "1.2é" = .error .panicked := by
  have hread : scaleFloatToInteger "1.23e4" = .ok 123 := by decide +kernel
  refine ⟨hread, ?_, by decide +kernel⟩
  rintro ⟨hok, -⟩
  obtain ⟨x, hdenotes, -⟩ := (hok 123).mp hread
  have hmisread : Misread "1.23e4".toList :=
    @Misread.trailing ['1'] ['e', '4'] '2' '3' (by decide +kernel) rfl rfl
      fun h => absurd (h 'e' (by simp)) (by decide)
  exact hmisread.not_denotes x hdenotes

end

end Emane.BentPipe
