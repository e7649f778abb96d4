import AnyCase.Json.Number

/-!
# `Json.Token` — the tokens of a JSON text

A text is read one character at a time: `Lexer.step` takes the state of the reading and a character, so
that the tokens of a text are a fold over it and reading splits at any place (`List.foldlM_append`).

Inside a string the lexer collects code units: characters stand for themselves, and `\uXXXX` names one
unit of UTF-16. `unitsText?` joins surrogate pairs at the end; a string with half a pair is the token
`torn`.

## Contents

* `Token` — brackets, punctuation and scalars;
* `Lexer`, `Lexer.step`, `tokens?` — the fold.
-/

namespace AnyCase.Json

/-- A token of a JSON text. -/
inductive Token
  | openArr
  | closeArr
  | openObj
  | closeObj
  | comma
  | colon
  | null
  | bool (value : Bool)
  | int (value : Int)
  /-- A number that is not a whole number of 64 bits, as it is spelled; `huge` if it is out of the range
  of double-precision floats. -/
  | real (spelling : String) (huge : Bool)
  | str (text : String)
  | torn
  deriving DecidableEq, Repr

/-- Whether a token has a value wherever it stands. -/
def Token.isSound : Token → Bool
  | torn => false
  | real _ huge => !huge
  | _ => true

/-! ## Strings -/

/-- Whether a unit is the first half of a surrogate pair. -/
def isHighSurrogate (u : Nat) : Bool := 0xD800 ≤ u && u < 0xDC00

/-- Whether a unit is the second half of a surrogate pair. -/
def isLowSurrogate (u : Nat) : Bool := 0xDC00 ≤ u && u < 0xE000

/-- The code point of a surrogate pair. -/
def pairCodePoint (high low : Nat) : Nat := 0x10000 + (high - 0xD800) * 0x400 + (low - 0xDC00)

/-- The text of a list of units; none if a surrogate stands alone. -/
def unitsText? : List Nat → Option (List Char)
  | [] => some []
  | u :: rest =>
    if isHighSurrogate u then
      match rest with
      | [] => none
      | low :: rest' =>
        if isLowSurrogate low then (unitsText? rest').map (Char.ofNat (pairCodePoint u low) :: ·)
        else none
    else if isLowSurrogate u then none
    else (unitsText? rest).map (Char.ofNat u :: ·)

/-- The token of a string with the given units. -/
def stringToken (units : List Nat) : Token :=
  match unitsText? units with
  | some text => .str (String.ofList text)
  | none => .torn

/-- The unit of a short escape. -/
def shortEscape? : Char → Option Nat
  | '"' => some 0x22
  | '\\' => some 0x5C
  | '/' => some 0x2F
  | 'b' => some 0x08
  | 'f' => some 0x0C
  | 'n' => some 0x0A
  | 'r' => some 0x0D
  | 't' => some 0x09
  | _ => none

/-- The value of a hexadecimal digit. -/
def hexDigit? (c : Char) : Option Nat :=
  if c.isDigit then some (c.toNat - 0x30)
  else if 'a' ≤ c ∧ c ≤ 'f' then some (c.toNat - 0x61 + 10)
  else if 'A' ≤ c ∧ c ≤ 'F' then some (c.toNat - 0x41 + 10)
  else none

/-! ## Numbers and words -/

/-- The token of a number. -/
def numberToken? (spelling : List Char) : Option Token :=
  (Numeral.read? spelling).map fun n =>
    match n.int? with
    | some i => .int i
    | none => .real (String.ofList spelling) n.isHuge

/-- The token of a word. -/
def wordToken? (word : List Char) : Option Token :=
  if word = "true".toList then some (.bool true)
  else if word = "false".toList then some (.bool false)
  else if word = "null".toList then some .null
  else none

/-! ## The fold -/

/-- What is being read. Collected characters and units are in reverse. -/
inductive Mode
  | between
  | word (letters : List Char)
  | number (characters : List Char)
  | text (units : List Nat)
  | escape (units : List Nat)
  /-- Inside `\uXXXX`: how many digits are missing, and the value of those read. -/
  | unit (units : List Nat) (missing : Nat) (value : Nat)
  deriving DecidableEq, Repr

/-- The state of the reading: the tokens completed, in reverse, and what is being read. -/
structure Lexer where
  done : List Token
  mode : Mode
  deriving Repr

namespace Lexer

/-- The state before the first character. -/
def start : Lexer := ⟨[], .between⟩

/-- The character of a number after its first one. -/
def isNumberChar (c : Char) : Bool :=
  c.isDigit || c = '.' || c = '-' || c = '+' || c = 'e' || c = 'E'

/-- White space between tokens. -/
def isBlank (c : Char) : Bool := c = ' ' || c = '\n' || c = '\t' || c = '\r'

/-- The token that one character makes. -/
def punctuation? : Char → Option Token
  | '[' => some .openArr
  | ']' => some .closeArr
  | '{' => some .openObj
  | '}' => some .closeObj
  | ',' => some .comma
  | ':' => some .colon
  | _ => none

/-- A character between two tokens. -/
def stepBetween (done : List Token) (c : Char) : Option Lexer :=
  if isBlank c then some ⟨done, .between⟩
  else if c = '"' then some ⟨done, .text []⟩
  else if c.isDigit || c = '-' then some ⟨done, .number [c]⟩
  else if c.isLower then some ⟨done, .word [c]⟩
  else (punctuation? c).map (fun t => ⟨t :: done, .between⟩)

/-- The reading after one more character. -/
def step (s : Lexer) (c : Char) : Option Lexer :=
  match s.mode with
  | .between => stepBetween s.done c
  | .word letters =>
    if c.isLower then some { s with mode := .word (c :: letters) }
    else (wordToken? letters.reverse).bind (fun t => stepBetween (t :: s.done) c)
  | .number characters =>
    if isNumberChar c then some { s with mode := .number (c :: characters) }
    else (numberToken? characters.reverse).bind (fun t => stepBetween (t :: s.done) c)
  | .text units =>
    if c = '"' then some ⟨stringToken units.reverse :: s.done, .between⟩
    else if c = '\\' then some { s with mode := .escape units }
    else if c.toNat < 0x20 then none
    else some { s with mode := .text (c.toNat :: units) }
  | .escape units =>
    if c = 'u' then some { s with mode := .unit units 4 0 }
    else (shortEscape? c).map (fun u => { s with mode := .text (u :: units) })
  | .unit units missing value =>
    (hexDigit? c).map fun d =>
      if missing ≤ 1 then { s with mode := .text ((16 * value + d) :: units) }
      else { s with mode := .unit units (missing - 1) (16 * value + d) }

/-- The tokens at the end of the text, if none is left unfinished. -/
def finish (s : Lexer) : Option (List Token) :=
  match s.mode with
  | .between => some s.done.reverse
  | .word letters => (wordToken? letters.reverse).map (fun t => (t :: s.done).reverse)
  | .number characters => (numberToken? characters.reverse).map (fun t => (t :: s.done).reverse)
  | _ => none

end Lexer

/-- The tokens of a text. -/
def tokens? (text : List Char) : Option (List Token) :=
  (text.foldlM Lexer.step Lexer.start).bind Lexer.finish

end AnyCase.Json
