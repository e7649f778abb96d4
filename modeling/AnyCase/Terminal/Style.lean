/-!
# `Terminal.Style` — styled texts

A text may be bold and have a colour. On a terminal with colours it is put between the escape sequences
of its style and the one that resets it; a reset inside the text is followed by the style again, so that
styled texts can be nested. Elsewhere, and without a style, a text stands for itself.
-/

namespace AnyCase.Terminal

/-- The colours in use. -/
inductive Color
  | black
  | red
  | green
  | yellow
  | blue
  | cyan
  deriving DecidableEq, Repr

/-- The code of a colour in an escape sequence. -/
def Color.code : Color → String
  | black => "30"
  | red => "31"
  | green => "32"
  | yellow => "33"
  | blue => "34"
  | cyan => "36"

/-- Whether the terminal shows colours. -/
inductive Mode
  | plain
  | colored
  deriving DecidableEq, Repr, Inhabited

/-- A text with a style. -/
structure Styled where
  text : String
  color : Option Color
  bold : Bool
  deriving DecidableEq, Repr, Inhabited

/-- The sequence that ends a style. -/
def reset : String := "\x1b[0m"

namespace Styled

/-- A text without a style. -/
def plain (text : String) : Styled := ⟨text, none, false⟩

/-- A text in a colour. -/
def colored (color : Color) (text : String) : Styled := ⟨text, some color, false⟩

/-- A bold text. -/
def ofBold (text : String) : Styled := ⟨text, none, true⟩

/-- A styled text in bold. -/
def embolden (s : Styled) : Styled := { s with bold := true }

/-- The codes of a style. -/
def codes (s : Styled) : List String :=
  (if s.bold then ["1"] else []) ++ (s.color.map Color.code).toList

/-- The sequence that begins a style. -/
def opening (s : Styled) : String := "\x1b[" ++ ";".intercalate s.codes ++ "m"

/-- What is written for a styled text. -/
def render (mode : Mode) (s : Styled) : String :=
  match mode with
  | .plain => s.text
  | .colored =>
    if s.codes.isEmpty then s.text
    else s.opening ++ (reset ++ s.opening).intercalate (s.text.splitOn reset) ++ reset

end Styled

end AnyCase.Terminal
