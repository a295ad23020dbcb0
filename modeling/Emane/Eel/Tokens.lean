import Mathlib
import Emane.Eel.Parser

set_option autoImplicit false

/-! # What a record says

A record is split into arguments by `lex`, which looks at characters and has no cursor. The parser
computes it, within as many turns as the record has bytes and one (`parse_eq`). So a list of printed
arguments is read back, and a quote that is not closed or that follows an argument without quotes is
refused.
-/

namespace Emane.Eel

open Emane.Lib

/-! ## Splitting -/

def isBlankChar (c : Char) : Bool := c == ' ' || c == '\t' || c == '\n'

def isDelimiterChar (c : Char) : Bool := isBlankChar c || c == '#' || c == '"'

/-- Why a record is refused. -/
inductive Reject
  | unterminated
  | invalidStart
  deriving DecidableEq

def Reject.reason (input : String) : Reject → String
  | unterminated => "Unterminated string: " ++ input
  | invalidStart => "Invalid start of string: " ++ input

def notQuote (c : Char) : Bool := !(c == '"')

/-- A character of an argument without quotes. -/
def isBareChar (c : Char) : Bool := !isDelimiterChar c

/-- The arguments up to a comment or the end. -/
def lex : List Char → Except Reject (List (List Char))
  | [] => .ok []
  | c :: text =>
      if isBlankChar c then lex text
      else if c = '#' then .ok []
      else if c = '"' then
        match _hquote : text.dropWhile notQuote with
        | [] => .error .unterminated
        | _ :: after => (lex after).map (text.takeWhile notQuote :: ·)
      else if (text.dropWhile isBareChar).head? = some '"' then .error .invalidStart
      else (lex (text.dropWhile isBareChar)).map ((c :: text.takeWhile isBareChar) :: ·)
termination_by text => text.length
decreasing_by
  · simp
  · have hlength := (List.dropWhile_suffix notQuote (l := text)).length_le
    rw [_hquote, List.length_cons] at hlength
    simp only [List.length_cons]
    omega
  · have hlength := (List.dropWhile_suffix isBareChar (l := text)).length_le
    simp only [List.length_cons]
    omega

@[simp] theorem lex_nil : lex [] = .ok [] := by rw [lex]

theorem lex_blank {c : Char} {text : List Char} (h : isBlankChar c) : lex (c :: text) = lex text := by
  rw [lex, if_pos h]

theorem lex_comment (text : List Char) : lex ('#' :: text) = .ok [] := by
  rw [lex, if_neg (by decide), if_pos rfl]

/-- Blanks in front do not matter. -/
theorem lex_dropWhile (text : List Char) : lex (text.dropWhile isBlankChar) = lex text := by
  induction text with
  | nil => rfl
  | cons c text ih =>
      rw [List.dropWhile_cons]
      split
      · next h => rw [ih, lex_blank h]
      · rfl

theorem dropWhile_notQuote {content : List Char} (h : '"' ∉ content) (after : List Char) :
    (content ++ '"' :: after).dropWhile notQuote = '"' :: after ∧
      (content ++ '"' :: after).takeWhile notQuote = content := by
  have hall : ∀ c ∈ content, notQuote c = true := by
    intro c hc
    simp only [notQuote, Bool.not_eq_true', beq_eq_false_iff_ne]
    rintro rfl
    exact h hc
  rw [List.dropWhile_append_of_pos hall, List.takeWhile_append_of_pos hall]
  simp [notQuote]

theorem lex_quoted {content : List Char} (h : '"' ∉ content) (after : List Char) :
    lex ('"' :: (content ++ '"' :: after)) = (lex after).map (content :: ·) := by
  obtain ⟨hdrop, htake⟩ := dropWhile_notQuote h after
  rw [lex, if_neg (by decide), if_neg (by decide), if_pos rfl]
  split
  · next heq =>
      rw [hdrop] at heq
      cases heq
  · next heq =>
      rw [hdrop] at heq
      cases heq
      rw [htake]

/-- A quote that is not closed is refused. -/
theorem lex_unterminated {content : List Char} (h : '"' ∉ content) :
    lex ('"' :: content) = .error .unterminated := by
  have hdrop : content.dropWhile notQuote = [] := by
    rw [List.dropWhile_eq_nil_iff]
    intro c hc
    simp only [notQuote, Bool.not_eq_true', beq_eq_false_iff_ne]
    rintro rfl
    exact h hc
  rw [lex, if_neg (by decide), if_neg (by decide), if_pos rfl]
  split
  · rfl
  · next heq =>
      rw [hdrop] at heq
      cases heq

section

variable {word after : List Char}

theorem ne_of_isBareChar {c : Char} (h : isBareChar c) : isBlankChar c = false ∧ c ≠ '#' ∧ c ≠ '"' := by
  simp only [isBareChar, isDelimiterChar, Bool.not_eq_true', Bool.or_eq_false_iff, beq_eq_false_iff_ne] at h
  exact ⟨h.1.1, h.1.2, h.2⟩

theorem dropWhile_isBareChar (hword : ∀ c ∈ word, isBareChar c) (hafter : ∀ c ∈ after.head?, ¬ isBareChar c) :
    (word ++ after).dropWhile isBareChar = after ∧ (word ++ after).takeWhile isBareChar = word := by
  rw [List.dropWhile_append_of_pos hword, List.takeWhile_append_of_pos hword]
  cases after with
  | nil => simp
  | cons c after => simp [hafter c rfl]

/-- An argument without quotes ends at a delimiter, which must not be a quote. -/
theorem lex_bare (hne : word ≠ []) (hword : ∀ c ∈ word, isBareChar c)
    (hafter : ∀ c ∈ after.head?, ¬ isBareChar c) : lex (word ++ after) =
      if after.head? = some '"' then .error .invalidStart else (lex after).map (word :: ·) := by
  cases word with
  | nil => exact absurd rfl hne
  | cons c word =>
      obtain ⟨hblank, hcomment, hquote⟩ := ne_of_isBareChar (hword c (by simp))
      have hrest : ∀ d ∈ word, isBareChar d := fun d hd => hword d (by simp [hd])
      obtain ⟨hdrop, htake⟩ := dropWhile_isBareChar hrest hafter
      rw [List.cons_append, lex, if_neg (by simp [hblank]), if_neg hcomment, if_neg hquote, hdrop, htake]

end

/-! ## The cursor -/

/-- At the place `pos` of the bytes, the text `text` stands up to the end. -/
def Stands (bytes : List UInt8) (pos : ℕ) (text : List Char) : Prop :=
  ∃ front, bytes = front ++ utf8Bytes text ∧ front.length = pos

section

variable {bytes : List UInt8} {pos turns : ℕ} {text word after : List Char}

theorem stands_zero (text : List Char) : Stands (utf8Bytes text) 0 text := ⟨[], rfl, rfl⟩

theorem Stands.le (h : Stands bytes pos text) : pos ≤ bytes.length := by
  obtain ⟨front, rfl, rfl⟩ := h
  simp

theorem Stands.lt_iff (h : Stands bytes pos text) : pos < bytes.length ↔ text ≠ [] := by
  obtain ⟨front, rfl, rfl⟩ := h
  rw [List.length_append, Ne, ← utf8Bytes_eq_nil_iff, ← List.length_eq_zero_iff]
  omega

theorem Stands.advance (h : Stands bytes pos (word ++ after)) :
    Stands bytes (pos + (utf8Bytes word).length) after := by
  obtain ⟨front, rfl, rfl⟩ := h
  exact ⟨front ++ utf8Bytes word, by simp, by simp⟩

theorem Stands.byteAt {c : Char} (h : Stands bytes pos (c :: text)) :
    ∃ b ∈ String.utf8EncodeChar c, byteAt bytes pos = .ok b := by
  obtain ⟨front, rfl, rfl⟩ := h
  cases henc : String.utf8EncodeChar c with
  | nil => exact absurd henc String.utf8EncodeChar_ne_nil
  | cons b more => exact ⟨b, by simp, by simp [Eel.byteAt, henc]⟩

theorem Stands.nextIs {k : Char} (hk : k.val.toNat ≤ 127) (h : Stands bytes pos text) :
    nextIs bytes (asciiByte k) pos = .ok (decide (text.head? = some k)) := by
  unfold Eel.nextIs
  cases text with
  | nil =>
      rw [if_neg (by simpa using h.lt_iff)]
      simp
  | cons c text =>
      obtain ⟨b, hb, hat⟩ := h.byteAt
      rw [if_pos (h.lt_iff.mpr (by simp)), hat]
      have hsame := reflects_ascii hk c b hb
      dsimp only at hsame
      change Except.ok (b == asciiByte k) = _
      rw [hsame]
      simp [beq_eq_decide]

theorem Stands.sliceAt (h : Stands bytes pos (word ++ after)) :
    sliceAt bytes pos (pos + (utf8Bytes word).length) = .ok (utf8Bytes word) := by
  have hle := h.advance.le
  unfold Eel.sliceAt
  rw [if_neg (by omega)]
  obtain ⟨front, rfl, rfl⟩ := h
  simp [List.extract_eq_take_drop]

/-- **A scan ends where the text without the test's characters begins.** -/
theorem Stands.scan {p : UInt8 → Bool} {q : Char → Bool} (hpq : Reflects p q) (h : Stands bytes pos text)
    (hturns : bytes.length - pos < turns) :
    scan bytes p turns pos = .ok (pos + (utf8Bytes (text.takeWhile q)).length) := by
  have hrun : ∀ (turns : ℕ) (front rest : List UInt8), rest.length < turns →
      Eel.scan (front ++ rest) p turns front.length = .ok (front.length + (rest.takeWhile p).length) := by
    intro turns
    induction turns with
    | zero => intro front rest hlt; omega
    | succ turns ih =>
        intro front rest hlt
        rw [Eel.scan]
        cases rest with
        | nil => simp
        | cons b rest =>
            have hat : Eel.byteAt (front ++ b :: rest) front.length = .ok b := by simp [Eel.byteAt]
            rw [if_pos (by simp), hat]
            change (if p b then _ else _) = _
            split
            · next hb =>
                have hnext := ih (front ++ [b]) rest (by simpa using hlt)
                rw [List.append_assoc, List.singleton_append, List.length_append, List.length_singleton]
                  at hnext
                rw [hnext, List.takeWhile_cons_of_pos hb, List.length_cons]
                congr 1
                omega
            · next hb => simp [hb]
  obtain ⟨front, rfl, rfl⟩ := h
  rw [List.length_append, Nat.add_sub_cancel_left] at hturns
  rw [hrun turns front _ hturns, hpq.takeWhile]

theorem reflects_isBlank : Reflects isBlank isBlankChar :=
  ((reflects_ascii (by decide)).or (reflects_ascii (by decide))).or (reflects_ascii (by decide))

theorem reflects_notQuote : Reflects (fun b => !(b == asciiByte '"')) notQuote :=
  (reflects_ascii (by decide)).not

theorem reflects_isBareChar : Reflects (fun b => !isDelimiter b) isBareChar :=
  ((reflects_isBlank.or (reflects_ascii (by decide))).or (reflects_ascii (by decide))).not

/-! ## The loop -/

variable {utf8Error : List UInt8 → String} {input : String} {args : List String} {start stop : ℕ}
  {isQuote : Bool}

theorem pushArg_eq {rest : List Char} (hstart : Stands bytes start (word ++ rest))
    (hstop : stop = start + (utf8Bytes word).length) (harg : word ≠ [] ∨ isQuote = true) :
    pushArg utf8Error bytes args start stop isQuote = .ok (args ++ [String.ofList word]) := by
  unfold pushArg
  by_cases hword : word = []
  · subst hword
    rw [if_neg (by simp [hstop]), if_pos (harg.resolve_left fun h => h rfl)]
  · have hne : utf8Bytes word ≠ [] := utf8Bytes_eq_nil_iff.not.mpr hword
    have hlength := List.length_pos_iff.mpr hne
    rw [if_pos (by omega), hstop, hstart.sliceAt]
    dsimp only [bind, Except.bind]
    rw [fromUtf8_utf8Bytes]

/-- After an argument the loop ends if `lex` does, and else stands before the next one. -/
theorem skipBlanks_eq (hpos : Stands bytes pos after) (hturns : bytes.length < turns) :
    (∃ p, skipBlanks bytes turns args pos = .ok (.done ⟨p, args⟩) ∧ lex after = .ok []) ∨
      ∃ p after', skipBlanks bytes turns args pos = .ok (.again ⟨p, args⟩) ∧ Stands bytes p after' ∧
        pos ≤ p ∧ lex after' = lex after ∧ ∀ c ∈ after'.head?, isBlankChar c = false := by
  have hscan := hpos.scan reflects_isBlank (Nat.lt_of_le_of_lt (Nat.sub_le ..) hturns)
  have hnext : Stands bytes (pos + (utf8Bytes (after.takeWhile isBlankChar)).length)
      (after.dropWhile isBlankChar) := by
    refine Stands.advance ?_
    rwa [List.takeWhile_append_dropWhile]
  have hcomment : ∀ {text : List Char}, text.head? = some '#' → lex text = .ok [] := by
    intro text h
    obtain ⟨more, rfl⟩ := List.head?_eq_some_iff.mp h
    exact lex_comment more
  have hash : '#'.val.toNat ≤ 127 := by decide
  have hhash := hnext.nextIs hash
  unfold skipBlanks
  rw [hpos.nextIs hash]
  by_cases hhere : after.head? = some '#'
  · exact .inl ⟨pos, by simp [hhere, bind, Except.bind], hcomment hhere⟩
  · by_cases hthere : (after.dropWhile isBlankChar).head? = some '#'
    · refine .inl ⟨pos + (utf8Bytes (after.takeWhile isBlankChar)).length, ?_, ?_⟩
      · simp [hhere, hthere, hscan, hhash, bind, Except.bind]
      · rw [← lex_dropWhile, hcomment hthere]
    · refine .inr ⟨pos + (utf8Bytes (after.takeWhile isBlankChar)).length, _, ?_, hnext,
        Nat.le_add_right .., lex_dropWhile after, ?_⟩
      · simp [hhere, hthere, hscan, hhash, bind, Except.bind]
      · intro c hc
        have hhead := List.head?_dropWhile_not isBlankChar after
        rw [Option.mem_def.mp hc] at hhead
        simpa using hhead

theorem enterArg_eq {rest : List Char} (hstart : Stands bytes start (word ++ rest))
    (hstop : stop = start + (utf8Bytes word).length) (harg : word ≠ [] ∨ isQuote = true) :
    enterArg utf8Error bytes turns args start stop isQuote pos =
      skipBlanks bytes turns (args ++ [String.ofList word]) pos := by
  unfold enterArg
  rw [pushArg_eq hstart hstop harg]
  rfl

/-- What one turn does, by the text at the cursor. -/
inductive Turned (bytes : List UInt8) (input : String) (text : List Char) (s : Cursor) :
    Except Halt (Turn Cursor) → Prop
  | refused {reject : Reject} (h : lex text = .error reject) :
      Turned bytes input text s (.error (.refused (reject.reason input)))
  | comment (h : lex text = .ok []) : Turned bytes input text s (.ok (.done s))
  | last {word : List Char} {p : ℕ} (h : lex text = .ok [word]) :
      Turned bytes input text s (.ok (.done ⟨p, s.args ++ [String.ofList word]⟩))
  | again {word after : List Char} {p : ℕ} (h : lex text = (lex after).map (word :: ·))
      (hafter : Stands bytes p after) (hlt : s.pos < p) (hblank : ∀ c ∈ after.head?, isBlankChar c = false) :
      Turned bytes input text s (.ok (.again ⟨p, s.args ++ [String.ofList word]⟩))

theorem turned_of_skipBlanks {s : Cursor} (hlex : lex text = (lex after).map (word :: ·))
    (hpos : Stands bytes pos after) (hlt : s.pos < pos) (hturns : bytes.length < turns) :
    Turned bytes input text s (skipBlanks bytes turns (s.args ++ [String.ofList word]) pos) := by
  rcases @skipBlanks_eq _ _ _ _ (s.args ++ [String.ofList word]) hpos hturns with
    ⟨p, hskip, hend⟩ | ⟨p, after', hskip, hafter, hle, hsame, hblank⟩
  · rw [hskip]
    refine .last ?_
    rw [hlex, hend]
    rfl
  · rw [hskip]
    exact .again (hsame ▸ hlex) hafter (hlt.trans_le hle) hblank

theorem parseTurn_turned {s : Cursor} {c : Char} (h : Stands bytes s.pos (c :: text))
    (hblank : isBlankChar c = false) (hturns : bytes.length < turns) :
    Turned bytes input (c :: text) s (parseTurn utf8Error input bytes turns s) := by
  obtain ⟨b, hb, hat⟩ := h.byteAt
  have hshort : ∀ p, bytes.length - p < turns := fun p => Nat.lt_of_le_of_lt (Nat.sub_le ..) hturns
  unfold parseTurn
  rw [hat]
  change Turned bytes input (c :: text) s (if b = asciiByte '"' then _ else if b = asciiByte '#' then _ else _)
  rw [if_congr (eq_asciiByte_iff (by decide) hb) rfl rfl]
  split
  · next hquote =>
      -- an argument in quotes, which begins behind the first one
      subst hquote
      have hinner : Stands bytes (s.pos + 1) text := @Stands.advance _ _ ['"'] text h
      rw [hinner.scan reflects_notQuote (hshort _)]
      change Turned _ _ _ _ (if _ < bytes.length then _ else _)
      by_cases hclosed : '"' ∈ text
      · obtain ⟨content, after, rfl, hcontent⟩ := List.eq_append_cons_of_mem hclosed
        rw [(dropWhile_notQuote hcontent after).2]
        have hend := hinner.advance
        rw [if_pos (hend.lt_iff.mpr (by simp)), enterArg_eq hinner rfl (.inr rfl)]
        exact turned_of_skipBlanks (lex_quoted hcontent after) (@Stands.advance _ _ ['"'] after hend)
          (by omega) hturns
      · have hall : text.takeWhile notQuote = text := by
          rw [List.takeWhile_eq_self_iff]
          intro d hd
          simp only [notQuote, Bool.not_eq_true', beq_eq_false_iff_ne]
          rintro rfl
          exact hclosed hd
        have hend : Stands bytes (s.pos + 1 + (utf8Bytes text).length) [] := by
          refine Stands.advance ?_
          rwa [List.append_nil]
        rw [hall, if_neg (by simpa using hend.lt_iff)]
        exact .refused (lex_unterminated hclosed)
  · next hquote =>
      rw [if_congr (eq_asciiByte_iff (by decide) hb) rfl rfl]
      split
      · next hcomment =>
          subst hcomment
          exact .comment (lex_comment text)
      · next hcomment =>
          -- an argument without quotes, which begins here
          have hbare : isBareChar c := by simp [isBareChar, isDelimiterChar, hblank, hcomment, hquote]
          have hword : (c :: text).takeWhile isBareChar = c :: text.takeWhile isBareChar :=
            List.takeWhile_cons_of_pos hbare
          have hsplit : c :: text = (c :: text.takeWhile isBareChar) ++ text.dropWhile isBareChar := by
            rw [List.cons_append, List.takeWhile_append_dropWhile]
          have hhere : Stands bytes s.pos ((c :: text.takeWhile isBareChar) ++ text.dropWhile isBareChar) :=
            hsplit ▸ h
          have hlex : lex (c :: text) = if (text.dropWhile isBareChar).head? = some '"' then
              .error .invalidStart
            else (lex (text.dropWhile isBareChar)).map ((c :: text.takeWhile isBareChar) :: ·) := by
            rw [lex, if_neg (by simp [hblank]), if_neg hcomment, if_neg hquote]
          have hlt : s.pos < s.pos + (utf8Bytes (c :: text.takeWhile isBareChar)).length := by
            have hne := utf8Bytes_eq_nil_iff.not.mpr (List.cons_ne_nil c (text.takeWhile isBareChar))
            have := List.length_pos_iff.mpr hne
            omega
          rw [h.scan reflects_isBareChar (hshort _), hword]
          change Turned _ _ _ _ (nextIs bytes (asciiByte '"') _ >>= _)
          rw [hhere.advance.nextIs (by decide)]
          change Turned _ _ _ _ (if _ then _ else _)
          by_cases hstart : (text.dropWhile isBareChar).head? = some '"'
          · rw [if_pos ⟨by simpa using hstart, hlt.ne⟩]
            exact .refused (by rw [hlex, if_pos hstart])
          · rw [if_neg (by simp [hstart]), enterArg_eq hhere rfl (.inl (by simp))]
            exact turned_of_skipBlanks (by rw [hlex, if_neg hstart]) hhere.advance hlt hturns

/-- What the parser makes of the arguments that are left. -/
def finish (input : String) (args : List String) : Except Reject (List (List Char)) → Except Halt (List String)
  | .ok words => .ok (args ++ words.map String.ofList)
  | .error reject => .error (.refused (reject.reason input))

theorem parseArgs_eq {more : ℕ} {s : Cursor} (h : Stands bytes s.pos text)
    (hblank : ∀ c ∈ text.head?, isBlankChar c = false) (hmore : bytes.length - s.pos < more)
    (hturns : bytes.length < turns) :
    parseArgs utf8Error input bytes turns more s = finish input s.args (lex text) := by
  induction more generalizing s text with
  | zero => omega
  | succ more ih =>
      rw [parseArgs]
      cases text with
      | nil =>
          rw [if_neg (by simpa using h.lt_iff)]
          simp [finish]
      | cons c text =>
          have hlt := h.lt_iff.mpr (by simp)
          rw [if_pos hlt]
          generalize hturn : parseTurn utf8Error input bytes turns s = turn
          cases hturn ▸ @parseTurn_turned _ _ _ utf8Error input _ _ h (hblank c rfl) hturns with
          | refused hlex => rw [hlex]; rfl
          | comment hlex => rw [hlex]; simp [finish, bind, Except.bind]
          | last hlex => rw [hlex]; rfl
          | again hlex hafter hnext hblank =>
              rw [hlex]
              refine (ih hafter hblank ?_).trans ?_
              · have hle := hafter.le
                dsimp only at hnext ⊢
                omega
              · cases lex _ with
                | error reject => rfl
                | ok words => simp [finish, Except.map]

end

/-- **The parser computes `lex`**, in at most one turn more than there are bytes. -/
theorem parse_eq {τ : Type} {parseF32 : String → Except String τ} {utf8Error : List UInt8 → String}
    {turns : ℕ} {input : String} (hturns : (utf8Bytes input.toList).length < turns) :
    parse parseF32 utf8Error turns input = finish input [] (lex input.toList) >>= makeRecord parseF32 := by
  have hstart := stands_zero input.toList
  have hnext : Stands (utf8Bytes input.toList)
      (0 + (utf8Bytes (input.toList.takeWhile isBlankChar)).length) (input.toList.dropWhile isBlankChar) := by
    refine Stands.advance ?_
    rwa [List.takeWhile_append_dropWhile]
  unfold parse
  dsimp only
  rw [hstart.scan reflects_isBlank (by omega)]
  change (parseArgs utf8Error input (utf8Bytes input.toList) turns turns ⟨_, []⟩ >>= makeRecord parseF32) = _
  rw [parseArgs_eq hnext ?_ (by omega) hturns, lex_dropWhile]
  intro c hc
  have hhead := List.head?_dropWhile_not isBlankChar input.toList
  rw [Option.mem_def.mp hc] at hhead
  simpa using hhead

theorem finish_ne {input : String} {args : List String} {lexed : Except Reject (List (List Char))} {halt : Halt}
    (h : finish input args lexed = .error halt) : ∃ reason, halt = .refused reason := by
  cases lexed with
  | ok words => cases h
  | error reject =>
      cases h
      exact ⟨_, rfl⟩

theorem makeRecord_ne {τ : Type} {parseF32 : String → Except String τ} {args : List String} {halt : Halt}
    (h : makeRecord parseF32 args = .error halt) : ∃ reason, halt = .refused reason := by
  unfold makeRecord at h
  split at h
  · cases h
  · split at h
    · split at h
      · cases h
      · cases h
        exact ⟨_, rfl⟩
    · cases h

/-! ## Printed arguments -/

/-- An argument as it is printed. -/
inductive Token
  | quoted (content : List Char) (h : '"' ∉ content)
  | bare (content : List Char) (hne : content ≠ []) (h : ∀ c ∈ content, isBareChar c)

namespace Token

def content : Token → List Char
  | quoted content _ => content
  | bare content _ _ => content

def print : Token → List Char
  | quoted content _ => '"' :: (content ++ ['"'])
  | bare content _ _ => content

end Token

/-- What separates two arguments. -/
structure Gap where
  blanks : List Char
  ne_nil : blanks ≠ []
  isBlank : ∀ c ∈ blanks, isBlankChar c

/-- What may follow the last argument: blanks, and a comment. -/
structure Tail where
  blanks : List Char
  isBlank : ∀ c ∈ blanks, isBlankChar c
  comment : Option (List Char)

def Tail.print (tail : Tail) : List Char :=
  tail.blanks ++ match tail.comment with
    | none => []
    | some text => '#' :: text

/-- Further arguments, each behind a gap. -/
def printMore (more : List (Gap × Token)) : List Char := more.flatMap fun entry => entry.1.blanks ++ entry.2.print

theorem lex_blanks {blanks : List Char} (h : ∀ c ∈ blanks, isBlankChar c) (text : List Char) :
    lex (blanks ++ text) = lex text := by
  induction blanks with
  | nil => rfl
  | cons c blanks ih =>
      rw [List.cons_append, lex_blank (h c (by simp)), ih fun d hd => h d (by simp [hd])]

/-- The text does not go on with an argument or a quote. -/
def Ends (text : List Char) : Prop := ∀ c ∈ text.head?, isBlankChar c ∨ c = '#'

theorem Token.lex_print (t : Token) {after : List Char} (h : Ends after) :
    lex (t.print ++ after) = (lex after).map (t.content :: ·) := by
  cases t with
  | quoted content hcontent =>
      rw [print, List.cons_append, List.append_assoc]
      exact lex_quoted hcontent after
  | bare content hne hcontent =>
      have hbare : ∀ c ∈ after.head?, ¬ isBareChar c := by
        intro c hc hbare
        obtain ⟨hblank, hcomment, -⟩ := ne_of_isBareChar hbare
        rcases h c hc with h | h
        · rw [h] at hblank
          cases hblank
        · exact hcomment h
      have hquote : after.head? ≠ some '"' := by
        intro hhead
        rcases h '"' hhead with h | h <;> cases h
      rw [print, lex_bare hne hcontent hbare, if_neg hquote]
      rfl

theorem Tail.ends (tail : Tail) : Ends tail.print := by
  obtain ⟨blanks, hblanks, comment⟩ := tail
  intro c hc
  cases blanks with
  | nil =>
      cases comment with
      | none => cases hc
      | some text =>
          cases hc
          exact .inr rfl
  | cons b blanks =>
      cases hc
      exact .inl (hblanks _ (by simp))

theorem Tail.lex_print (tail : Tail) : lex tail.print = .ok [] := by
  unfold print
  rw [lex_blanks tail.isBlank]
  cases tail.comment with
  | none => exact lex_nil
  | some text => exact lex_comment text

theorem ends_printMore (more : List (Gap × Token)) (tail : Tail) : Ends (printMore more ++ tail.print) := by
  cases more with
  | nil => exact tail.ends
  | cons entry more =>
      obtain ⟨⟨blanks, hne, hblanks⟩, t⟩ := entry
      cases blanks with
      | nil => exact absurd rfl hne
      | cons b blanks =>
          intro c hc
          cases hc
          exact .inl (hblanks _ (by simp))

theorem lex_printMore (more : List (Gap × Token)) (tail : Tail) :
    lex (printMore more ++ tail.print) = .ok (more.map fun entry => entry.2.content) := by
  induction more with
  | nil => exact tail.lex_print
  | cons entry more ih =>
      have hsplit : printMore (entry :: more) ++ tail.print =
          entry.1.blanks ++ (entry.2.print ++ (printMore more ++ tail.print)) := by
        simp [printMore]
      rw [hsplit, lex_blanks entry.1.isBlank, entry.2.lex_print (ends_printMore more tail), ih]
      rfl

/-! ## Misplaced quotes -/

theorem lex_bareQuote {word : List Char} (hne : word ≠ []) (hword : ∀ c ∈ word, isBareChar c)
    (more : List Char) : lex (word ++ '"' :: more) = .error .invalidStart := by
  have hdelimiter : ∀ c ∈ ('"' :: more).head?, ¬ isBareChar c := by
    intro c hc
    cases hc
    decide
  rw [lex_bare hne hword hdelimiter, List.head?_cons, if_pos rfl]

/-- A text in which each quote is closed, without a comment. -/
inductive Balanced : List Char → Prop
  | nil : Balanced []
  | plain {c : Char} {text : List Char} (hquote : c ≠ '"') (hcomment : c ≠ '#') (h : Balanced text) :
      Balanced (c :: text)
  | quoted {content text : List Char} (hcontent : '"' ∉ content) (h : Balanced text) :
      Balanced ('"' :: (content ++ '"' :: text))

/-- What is refused behind any argument without quotes is refused behind any balanced text. -/
theorem Balanced.lex_append {front bad : List Char} (h : Balanced front)
    (hbad : ∀ word, (∀ c ∈ word, isBareChar c) → ∃ reject, lex (word ++ bad) = .error reject) :
    ∀ word, (∀ c ∈ word, isBareChar c) → ∃ reject, lex (word ++ (front ++ bad)) = .error reject := by
  induction h with
  | nil => exact hbad
  | @plain c text hquote hcomment h ih =>
      intro word hword
      by_cases hblank : isBlankChar c = true
      · obtain ⟨reject, hreject⟩ := ih [] (by simp)
        rw [List.nil_append] at hreject
        by_cases hne : word = []
        · subst hne
          exact ⟨reject, by rw [List.nil_append, List.cons_append, lex_blank hblank, hreject]⟩
        · have hdelimiter : ∀ d ∈ (c :: text ++ bad).head?, ¬ isBareChar d := by
            intro d hd hbare
            cases hd
            rw [(ne_of_isBareChar hbare).1] at hblank
            cases hblank
          refine ⟨reject, ?_⟩
          rw [lex_bare hne hword hdelimiter, if_neg (by simpa using hquote), List.cons_append,
            lex_blank hblank, hreject]
          rfl
      · have hbare : isBareChar c := by simp [isBareChar, isDelimiterChar, hblank, hcomment, hquote]
        have hmore := ih (word ++ [c]) fun d hd => by
          rcases List.mem_append.mp hd with hd | hd
          · exact hword d hd
          · rwa [List.mem_singleton.mp hd]
        simpa using hmore
  | @quoted content text hcontent h ih =>
      intro word hword
      by_cases hne : word = []
      · subst hne
        obtain ⟨reject, hreject⟩ := ih [] (by simp)
        rw [List.nil_append] at hreject
        refine ⟨reject, ?_⟩
        rw [List.nil_append, List.cons_append, List.append_assoc, List.cons_append, lex_quoted hcontent,
          hreject]
        rfl
      · refine ⟨.invalidStart, ?_⟩
        exact lex_bareQuote hne hword _

theorem lex_unclosed {front content : List Char} (h : Balanced front) (hcontent : '"' ∉ content) :
    ∃ reject, lex (front ++ '"' :: content) = .error reject := by
  refine h.lex_append ?_ [] (by simp)
  intro word hword
  by_cases hne : word = []
  · subst hne
    exact ⟨_, lex_unterminated hcontent⟩
  · exact ⟨_, lex_bareQuote hne hword content⟩

theorem lex_quoteAfterBare {front more : List Char} {c : Char} (h : Balanced front) (hc : isBareChar c) :
    ∃ reject, lex (front ++ c :: '"' :: more) = .error reject := by
  refine h.lex_append ?_ [] (by simp)
  intro word hword
  have hall : ∀ d ∈ word ++ [c], isBareChar d := by
    intro d hd
    rcases List.mem_append.mp hd with hd | hd
    · exact hword d hd
    · rwa [List.mem_singleton.mp hd]
  rw [List.append_cons]
  exact ⟨_, lex_bareQuote (by simp) hall more⟩

/-! ## What the parser does -/

section

variable {τ : Type} (parseF32 : String → Except String τ) (utf8Error : List UInt8 → String)

/-- A text is refused within any number of turns that is more than its bytes. -/
def Refused (text : List Char) : Prop := ∀ turns, (utf8Bytes text).length < turns →
  ∃ reason, parse parseF32 utf8Error turns (String.ofList text) = .error (.refused reason)

theorem refused_of_lex {text : List Char} (h : ∃ reject, lex text = .error reject) :
    Refused parseF32 utf8Error text := by
  obtain ⟨reject, hreject⟩ := h
  intro turns hturns
  refine ⟨reject.reason (String.ofList text), ?_⟩
  rw [parse_eq (by rwa [String.toList_ofList]), String.toList_ofList, hreject]
  rfl

/-- **The tokenizer**: it ends and reads inside of the record; it gives back at least three printed
arguments of which the first is a number; and it refuses a quote that is not closed, or that follows an
argument without quotes. -/
theorem parse_correct :
    (∀ (input : String) (turns : ℕ), (utf8Bytes input.toList).length < turns →
      parse parseF32 utf8Error turns input ≠ .error .outOfTurns ∧
        parse parseF32 utf8Error turns input ≠ .error .panicked) ∧
    (∀ (lead : List Char) (first : Token) (second third : Gap × Token) (more : List (Gap × Token))
      (tail : Tail) (time : τ), (∀ c ∈ lead, isBlankChar c) →
      parseF32 (String.ofList first.content) = .ok time →
      ∀ text, text = lead ++ first.print ++ printMore (second :: third :: more) ++ tail.print →
      ∀ turns, (utf8Bytes text).length < turns →
        parse parseF32 utf8Error turns (String.ofList text) =
          .ok (some ⟨time, String.ofList second.2.content, String.ofList third.2.content,
            more.map fun entry => String.ofList entry.2.content⟩)) ∧
    (∀ front content, Balanced front → '"' ∉ content →
      Refused parseF32 utf8Error (front ++ '"' :: content)) ∧
    (∀ front c more, Balanced front → isBareChar c →
      Refused parseF32 utf8Error (front ++ c :: '"' :: more)) := by
  refine ⟨?_, ?_, ?_, ?_⟩
  · intro input turns hturns
    rw [parse_eq hturns]
    have hrefused : ∀ halt, finish input [] (lex input.toList) >>= makeRecord parseF32 = .error halt →
        ∃ reason, halt = .refused reason := by
      intro halt hhalt
      cases hfinish : finish input [] (lex input.toList) with
      | error halt' =>
          rw [hfinish] at hhalt
          cases hhalt
          exact finish_ne hfinish
      | ok args =>
          rw [hfinish] at hhalt
          exact makeRecord_ne hhalt
    constructor
    · intro h
      obtain ⟨reason, hreason⟩ := hrefused _ h
      cases hreason
    · intro h
      obtain ⟨reason, hreason⟩ := hrefused _ h
      cases hreason
  · rintro lead first second third more tail time hlead htime text rfl turns hturns
    have hlex : lex (lead ++ first.print ++ printMore (second :: third :: more) ++ tail.print) =
        .ok (first.content :: second.2.content :: third.2.content ::
          more.map fun entry => entry.2.content) := by
      rw [List.append_assoc, List.append_assoc, lex_blanks hlead, first.lex_print (ends_printMore _ tail), lex_printMore]
      rfl
    rw [parse_eq (by rwa [String.toList_ofList]), String.toList_ofList, hlex]
    change makeRecord parseF32 (String.ofList first.content :: String.ofList second.2.content ::
      String.ofList third.2.content :: (more.map fun entry => entry.2.content).map String.ofList) = _
    unfold makeRecord
    dsimp only [List.isEmpty_cons]
    rw [if_neg (by decide), htime, List.map_map]
    rfl
  · intro front content hfront hcontent
    exact refused_of_lex parseF32 utf8Error (lex_unclosed hfront hcontent)
  · intro front c more hfront hc
    exact refused_of_lex parseF32 utf8Error (lex_quoteAfterBare hfront hc)

end

def space : Gap := ⟨[' '], by simp, by simp [isBlankChar]⟩

/-- A record with four arguments, the last one in quotes, and a comment. -/
theorem parse_correct_record : parse (fun text => if text = "1" then .ok 1 else .error text)
    (fun _ => "") 50 "1 nem:2 commeffect \"nem:3 #\" # x" =
      .ok (some ⟨1, "nem:2", "commeffect", ["nem:3 #"]⟩) := by
  let token (word : String) (h : word.toList ≠ [] ∧ word.toList.all isBareChar) : Token :=
    .bare word.toList h.1 (List.all_eq_true.mp h.2)
  exact (parse_correct (fun text => if text = "1" then .ok 1 else .error text) fun _ => "").2.1 []
    (token "1" (by decide +kernel)) (space, token "nem:2" (by decide +kernel))
    (space, token "commeffect" (by decide +kernel))
    [(space, .quoted "nem:3 #".toList (by decide +kernel))] ⟨[' '], space.isBlank, some " x".toList⟩ 1
    (by simp) (by decide +kernel) _ rfl 50 (by decide +kernel)

end Emane.Eel
