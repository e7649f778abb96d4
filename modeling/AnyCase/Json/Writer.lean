import AnyCase.Json.Basic
import AnyCase.Decimal

/-!
# `Json.Writer` — from values to texts

Two layouts. Messages are written without any spaces (`Json.compact`). The persisted state is written
for people too (`Json.pretty`): each item and member on a line of its own, indented by two spaces per
level, and a space after a colon; empty arrays and objects stay on one line.

In both a string escapes the quotation mark, the backslash and the characters below U+0020, and no
other: the five that have a short escape by it, the others as `\u00xx` with lower-case digits.
-/

namespace AnyCase.Json

/-! ## Scalars -/

/-- A hexadecimal digit in lower case. -/
def hexChar (n : Nat) : Char := if n < 10 then Char.ofNat (0x30 + n) else Char.ofNat (0x61 + (n - 10))

/-- A character as it is written inside a string. -/
def escapeChar (c : Char) : List Char :=
  if c = '"' then ['\\', '"']
  else if c = '\\' then ['\\', '\\']
  else if c = '\x08' then ['\\', 'b']
  else if c = '\t' then ['\\', 't']
  else if c = '\n' then ['\\', 'n']
  else if c = '\x0c' then ['\\', 'f']
  else if c = '\r' then ['\\', 'r']
  else if c.toNat < 0x20 then ['\\', 'u', '0', '0', hexChar (c.toNat / 16), hexChar (c.toNat % 16)]
  else [c]

/-- A string with its quotation marks. -/
def quoted (text : String) : List Char := '"' :: text.toList.flatMap escapeChar ++ ['"']

/-- A whole number. -/
def intChars : Int → List Char
  | .ofNat n => Decimal.numeral n
  | .negSucc n => '-' :: Decimal.numeral (n + 1)

/-! ## Without spaces -/

mutual

/-- A value without spaces. -/
def compactChars : Json → List Char
  | null => "null".toList
  | bool true => "true".toList
  | bool false => "false".toList
  | int i => intChars i
  | real spelling => spelling.toList
  | str text => quoted text
  | torn => quoted "\uFFFD"
  | arr items => '[' :: compactItems items ++ [']']
  | obj members => '{' :: compactMembers members ++ ['}']

/-- The items of an array, separated by commas. -/
def compactItems : List Json → List Char
  | [] => []
  | [v] => compactChars v
  | v :: w :: rest => compactChars v ++ ',' :: compactItems (w :: rest)

/-- The members of an object, separated by commas. -/
def compactMembers : List (String × Json) → List Char
  | [] => []
  | [(k, v)] => quoted k ++ ':' :: compactChars v
  | (k, v) :: m :: rest => quoted k ++ ':' :: compactChars v ++ ',' :: compactMembers (m :: rest)

end

/-- The text of a value without spaces. -/
def compact (v : Json) : String := String.ofList (compactChars v)

/-! ## On lines of their own -/

/-- The start of a line at a level. -/
def newLine (level : Nat) : List Char := '\n' :: List.replicate (2 * level) ' '

mutual

/-- A value whose lines are indented from a level on. -/
def prettyChars (level : Nat) : Json → List Char
  | null => "null".toList
  | bool true => "true".toList
  | bool false => "false".toList
  | int i => intChars i
  | real spelling => spelling.toList
  | str text => quoted text
  | torn => quoted "\uFFFD"
  | arr [] => "[]".toList
  | arr (v :: rest) =>
    '[' :: newLine (level + 1) ++ prettyChars (level + 1) v ++ prettyItems (level + 1) rest
      ++ newLine level ++ [']']
  | obj [] => ['{', '}']
  | obj ((k, v) :: rest) =>
    '{' :: newLine (level + 1) ++ quoted k ++ ':' :: ' ' :: prettyChars (level + 1) v
      ++ prettyMembers (level + 1) rest ++ newLine level ++ ['}']

/-- The items of an array after the first one, each after a comma on a line of its own. -/
def prettyItems (level : Nat) : List Json → List Char
  | [] => []
  | v :: rest => ',' :: newLine level ++ prettyChars level v ++ prettyItems level rest

/-- The members of an object after the first one, each after a comma on a line of its own. -/
def prettyMembers (level : Nat) : List (String × Json) → List Char
  | [] => []
  | (k, v) :: rest =>
    ',' :: newLine level ++ quoted k ++ ':' :: ' ' :: prettyChars level v ++ prettyMembers level rest

end

/-- The text of a value on indented lines. -/
def pretty (v : Json) : String := String.ofList (prettyChars 0 v)

end AnyCase.Json
