import AnyCase.Json.Token

/-!
# `Toml.Text` — blanks, comments and strings of TOML

Readers take the characters that are left and return what they read with the characters after it, or
none if the text is not TOML. A reader that loops takes an amount of fuel; the number of characters left
is enough, since each round consumes at least one.

There are four kinds of strings. Basic strings (`"…"`) have escapes, literal strings (`'…'`) have not;
either kind may be written over several lines between three quotation marks, and then a line break right
after the opening marks is left out, and up to two quotation marks may stand right before the closing
ones.
-/

namespace AnyCase.Toml

/-- A reader of a part of a text: what it read, and the characters after it. -/
abbrev Reads (α : Type) := List Char → Option (α × List Char)

/-! ## Blanks, lines and comments -/

/-- A blank within a line. -/
def isBlank (c : Char) : Bool := c = ' ' || c = '\t'

/-- The text without the blanks it begins with. -/
def dropBlanks (cs : List Char) : List Char := cs.dropWhile isBlank

/-- A character that a comment may hold: a tab, or one that is not a control character. -/
def isCommentChar (c : Char) : Bool := c = '\t' || (0x20 ≤ c.toNat && c.toNat ≠ 0x7F)

/-- A line break: a line feed, with or without a carriage return before it. -/
def newline? : List Char → Option (List Char)
  | '\n' :: rest => some rest
  | '\r' :: '\n' :: rest => some rest
  | _ => none

/-- The text after a comment, if it begins with one. -/
def dropComment : List Char → List Char
  | '#' :: rest => rest.dropWhile isCommentChar
  | cs => cs

/-- The rest of a line that holds nothing more than blanks and a comment, with its line break. -/
def endLine? (cs : List Char) : Option (List Char) :=
  match dropComment (dropBlanks cs) with
  | [] => some []
  | rest => newline? rest

/-- The text without the blanks, line breaks and comments it begins with, as they may stand between the
items of an array; `inComment` says that it begins within a comment. -/
def dropFiller? (inComment : Bool) : List Char → Option (List Char)
  | [] => if inComment then none else some []
  | '\r' :: '\n' :: rest => dropFiller? false rest
  | c :: rest =>
    if c = '\n' then dropFiller? false rest
    else if inComment then (if isCommentChar c then dropFiller? true rest else none)
    else if isBlank c then dropFiller? false rest
    else if c = '#' then dropFiller? true rest
    else some (c :: rest)

/-! ## Strings -/

/-- The value of hexadecimal digits. -/
def hexValue? (digits : List Char) : Option Nat :=
  digits.foldlM (fun n c => (Json.hexDigit? c).map (fun d => 16 * n + d)) 0

/-- The character named by a given number of hexadecimal digits; halves of surrogate pairs are no
characters. -/
def codePoint? (count : Nat) : Reads Char := fun cs =>
  let digits := cs.take count
  if digits.length < count then none
  else do
    let n ← hexValue? digits
    if n < 0xD800 ∨ (0xDFFF < n ∧ n < 0x110000) then some (Char.ofNat n, cs.drop count) else none

/-- The character that an escape names, after its backslash. -/
def escape? : Reads Char
  | 'b' :: rest => some ('\x08', rest)
  | 't' :: rest => some ('\t', rest)
  | 'n' :: rest => some ('\n', rest)
  | 'f' :: rest => some ('\x0c', rest)
  | 'r' :: rest => some ('\r', rest)
  | '"' :: rest => some ('"', rest)
  | '\\' :: rest => some ('\\', rest)
  | 'u' :: rest => codePoint? 4 rest
  | 'U' :: rest => codePoint? 8 rest
  | _ => none

/-- The rest of a basic string on one line. -/
def basicBody? : Nat → Reads (List Char)
  | 0, _ => none
  | _ + 1, [] => none
  | fuel + 1, c :: rest =>
    if c = '"' then some ([], rest)
    else if c = '\\' then do
      let (e, rest') ← escape? rest
      let (body, rest'') ← basicBody? fuel rest'
      some (e :: body, rest'')
    else if isCommentChar c then do
      let (body, rest') ← basicBody? fuel rest
      some (c :: body, rest')
    else none

/-- The rest of a literal string on one line. -/
def literalBody? : Reads (List Char)
  | [] => none
  | c :: rest =>
    if c = '\'' then some ([], rest)
    else if isCommentChar c then (literalBody? rest).map (fun (body, rest') => (c :: body, rest'))
    else none

/-- The quotation marks that a text begins with, up to five of them, and the text after them. -/
def quoteRun (quote : Char) (cs : List Char) : Nat × List Char :=
  let run := (cs.take 5).takeWhile (fun c => c = quote)
  (run.length, cs.drop run.length)

/-- The text without the blanks and line breaks it begins with. -/
def dropBlankLines : List Char → List Char
  | '\r' :: '\n' :: rest => dropBlankLines rest
  | c :: rest => if isBlank c || c = '\n' then dropBlankLines rest else c :: rest
  | [] => []

/-- The text after blanks that a line break follows, without the blank lines and blanks after it. -/
def continueLine? (cs : List Char) : Option (List Char) :=
  (newline? (dropBlanks cs)).map dropBlankLines

/-- The rest of a string over several lines; `escapes` tells a basic one from a literal one. Line breaks
are read as line feeds. -/
def linesBody? (quote : Char) (escapes : Bool) : Nat → Reads (List Char)
  | 0, _ => none
  | _ + 1, [] => none
  | fuel + 1, c :: rest =>
    if c = quote then
      let (count, rest') := quoteRun quote (c :: rest)
      if 3 ≤ count then some (List.replicate (count - 3) quote, rest')
      else do
        let (body, rest'') ← linesBody? quote escapes fuel rest'
        some (List.replicate count quote ++ body, rest'')
    else if escapes && c = '\\' then
      match continueLine? rest with
      | some rest' => linesBody? quote escapes fuel rest'
      | none => do
        let (e, rest') ← escape? rest
        let (body, rest'') ← linesBody? quote escapes fuel rest'
        some (e :: body, rest'')
    else if isCommentChar c then do
      let (body, rest') ← linesBody? quote escapes fuel rest
      some (c :: body, rest')
    else do
      let rest' ← newline? (c :: rest)
      let (body, rest'') ← linesBody? quote escapes fuel rest'
      some ('\n' :: body, rest'')

/-- The text without a line break at its start. -/
def dropNewline (cs : List Char) : List Char := (newline? cs).getD cs

/-- A string on one line; keys may be written so too. -/
def lineString? : Reads (List Char)
  | '"' :: rest => basicBody? (rest.length + 1) rest
  | '\'' :: rest => literalBody? rest
  | _ => none

/-- A string of any kind. -/
def string? : Reads (List Char)
  | '"' :: '"' :: '"' :: rest => linesBody? '"' true (rest.length + 1) (dropNewline rest)
  | '\'' :: '\'' :: '\'' :: rest => linesBody? '\'' false (rest.length + 1) (dropNewline rest)
  | cs => lineString? cs

end AnyCase.Toml
