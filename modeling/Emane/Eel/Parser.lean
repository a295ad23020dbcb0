import Mathlib
import Emane.Lib.Loop
import Emane.Lib.Utf8

set_option autoImplicit false

/-! # Records of emulation event scripts

`parse` reads a record of an emulation event script: a time, a module, an event and arguments, each in
double quotes or without. The cursor `pos` goes through the bytes of the record; a byte that is read at
a place outside of them ends in `Halt.panicked`, and a loop that does not end within `turns` turns in
`Halt.outOfTurns`.
-/

namespace Emane.Eel

open Emane.Lib

/-- How the parser ends without a value. -/
inductive Halt
  | outOfTurns
  | panicked
  | refused (reason : String)
  deriving DecidableEq

/-! ## Reading bytes -/

section

variable (bytes : List UInt8)

/-- `bytes[pos]` -/
def byteAt (pos : ℕ) : Except Halt UInt8 :=
  match bytes[pos]? with
  | none => .error .panicked
  | some b => .ok b

/-- `&bytes[start..stop]` -/
def sliceAt (start stop : ℕ) : Except Halt (List UInt8) :=
  if ¬ (start ≤ stop ∧ stop ≤ bytes.length) then .error .panicked else .ok (bytes.extract start stop)

/-- The loop that moves the cursor on while a test of the byte there succeeds. -/
def scan (p : UInt8 → Bool) : ℕ → ℕ → Except Halt ℕ
  | 0, _ => .error .outOfTurns
  | turns + 1, pos =>
      if pos < bytes.length then do
        let b ← byteAt bytes pos
        if p b then scan p turns (pos + 1) else .ok pos
      else .ok pos

/-- `pos < bytes.len() && bytes[pos] == b` -/
def nextIs (b : UInt8) (pos : ℕ) : Except Halt Bool :=
  if pos < bytes.length then do
    let b' ← byteAt bytes pos
    .ok (b' == b)
  else .ok false

end

def isBlank (b : UInt8) : Bool := b == asciiByte ' ' || b == asciiByte '\t' || b == asciiByte '\n'

/-- What ends an argument without quotes. -/
def isDelimiter (b : UInt8) : Bool := isBlank b || b == asciiByte '#' || b == asciiByte '"'

/-! ## The parser -/

/-- The cursor and the arguments so far. -/
structure Cursor where
  pos : ℕ
  args : List String
  deriving DecidableEq

section

variable (utf8Error : List UInt8 → String) (input : String) (bytes : List UInt8) (turns : ℕ)

/-- An argument is entered, an empty one only if it is in quotes. -/
def pushArg (args : List String) (argStart argEnd : ℕ) (isQuote : Bool) : Except Halt (List String) :=
  if argStart < argEnd then do
    let arg ← sliceAt bytes argStart argEnd
    match fromUtf8 arg with
    | some arg => .ok (args ++ [arg])
    | none => .error (.refused ("Invalid UTF-8 argument: " ++ utf8Error arg))
  else if isQuote then .ok (args ++ [""])
  else .ok args

/-- The end of a turn: a comment ends the record, also one behind blanks. -/
def skipBlanks (args : List String) (pos : ℕ) : Except Halt (Turn Cursor) := do
  let comment ← nextIs bytes (asciiByte '#') pos
  if comment then .ok (.done ⟨pos, args⟩)
  else do
    let pos ← scan bytes isBlank turns pos
    let comment ← nextIs bytes (asciiByte '#') pos
    if comment then .ok (.done ⟨pos, args⟩) else .ok (.again ⟨pos, args⟩)

/-- What follows in a turn when the argument is found. -/
def enterArg (args : List String) (argStart argEnd : ℕ) (isQuote : Bool) (pos : ℕ) :
    Except Halt (Turn Cursor) := do
  let args ← pushArg utf8Error bytes args argStart argEnd isQuote
  skipBlanks bytes turns args pos

/-- The body of the loop over the arguments. -/
def parseTurn (s : Cursor) : Except Halt (Turn Cursor) := do
  let b ← byteAt bytes s.pos
  if b = asciiByte '"' then do
    let argStart := s.pos + 1
    let argEnd ← scan bytes (fun b => !(b == asciiByte '"')) turns argStart
    if argEnd < bytes.length then enterArg utf8Error bytes turns s.args argStart argEnd true (argEnd + 1)
    else .error (.refused ("Unterminated string: " ++ input))
  else if b = asciiByte '#' then .ok (.done s)
  else do
    let argEnd ← scan bytes (fun b => !isDelimiter b) turns s.pos
    let quote ← nextIs bytes (asciiByte '"') argEnd
    if quote ∧ s.pos ≠ argEnd then .error (.refused ("Invalid start of string: " ++ input))
    else enterArg utf8Error bytes turns s.args s.pos argEnd false argEnd

/-- The loop over the arguments. -/
def parseArgs : ℕ → Cursor → Except Halt (List String)
  | 0, _ => .error .outOfTurns
  | more + 1, s =>
      if s.pos < bytes.length then do
        let turn ← parseTurn utf8Error input bytes turns s
        match turn with
        | .again s => parseArgs more s
        | .done s => .ok s.args
      else .ok s.args

end

/-- A record: its time, module, event and arguments. -/
structure Record (τ : Type) where
  time : τ
  moduleId : String
  eventType : String
  args : List String
  deriving DecidableEq

/-- What is made of the arguments. -/
def makeRecord {τ : Type} (parseF32 : String → Except String τ) (args : List String) :
    Except Halt (Option (Record τ)) :=
  if args.isEmpty then .ok none
  else
    match args with
    | time :: moduleId :: eventType :: args =>
        match parseF32 time with
        | .ok value => .ok (some ⟨value, moduleId, eventType, args⟩)
        | .error error => .error (.refused ("Invalid event time " ++ time ++ ": " ++ error))
    | _ => .ok none

/-- `EelInputParser::parse`, with each loop for at most `turns` turns. -/
def parse {τ : Type} (parseF32 : String → Except String τ) (utf8Error : List UInt8 → String) (turns : ℕ)
    (input : String) : Except Halt (Option (Record τ)) := do
  let bytes := utf8Bytes input.toList
  let pos ← scan bytes isBlank turns 0
  let args ← parseArgs utf8Error input bytes turns turns ⟨pos, []⟩
  makeRecord parseF32 args

end Emane.Eel
