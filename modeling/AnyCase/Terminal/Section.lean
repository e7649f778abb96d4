import AnyCase.Line
import AnyCase.Terminal.Table

/-!
# `Terminal.Section` — titled blocks

What a command prints is a list of sections. A section has a bold title and fields: a value under a key,
a value after an icon, or a table. Fields are indented below the title, and each line of a table is
indented once more.
-/

namespace AnyCase.Terminal

/-- The sign at the start of a line. -/
inductive Icon
  | selected
  | unselected
  | disabled
  | success
  | failure
  | warning
  | info
  deriving DecidableEq, Repr, Inhabited

namespace Icon

/-- The sign of a checkbox. -/
def checkbox (selected enabled : Bool) : Icon :=
  if enabled then (if selected then .selected else .unselected) else .disabled

/-- An icon as a styled text. -/
def styled : Icon → Styled
  | selected => .colored .green "[x]"
  | unselected => .plain "[ ]"
  | disabled => .colored .black "[-]"
  | success => .colored .green "✔"
  | failure => .colored .red "✘"
  | warning => .colored .yellow "⚠"
  | info => .colored .blue "ℹ"

/-- What is written for an icon. -/
def render (mode : Mode) (i : Icon) : String := i.styled.render mode

end Icon

/-- A value: one text or a list of texts. -/
inductive Value
  | one (text : Styled)
  | list (texts : List Styled)
  deriving DecidableEq, Repr, Inhabited

/-- A punctuation mark. -/
def mark (mode : Mode) (text : String) : String := (Styled.colored .black text).render mode

/-- What is written for a value. -/
def Value.render (mode : Mode) : Value → String
  | one text => text.render mode
  | list texts =>
    mark mode "[" ++ (mark mode "," ++ " ").intercalate (texts.map (·.render mode)) ++ mark mode "]"

/-- A field of a section. -/
inductive Field
  /-- A value under a key. -/
  | entry (key : Styled) (value : Value) (indent : Nat)
  /-- A value after an icon. -/
  | status (icon : Icon) (value : Value) (indent : Nat)
  | table (table : Table)
  deriving DecidableEq, Repr, Inhabited

namespace Field

/-- Two blanks for each level. -/
def indentation (levels : Nat) : String := String.ofList (List.replicate (2 * levels) ' ')

/-- What is written for a field by itself. -/
def render (mode : Mode) : Field → String
  | entry key value indent =>
    indentation indent ++ key.render mode ++ mark mode ":" ++ " " ++ value.render mode
  | status icon value indent =>
    indentation indent ++ icon.render mode ++ " " ++ value.render mode
  | table t => t.render mode

/-- A field one level further in; tables stay where they are. -/
def indented : Field → Field
  | entry key value indent => entry key value (indent + 1)
  | status icon value indent => status icon value (indent + 1)
  | table t => table t

end Field

/-- A titled block. -/
structure Section where
  title : Styled
  fields : List Field
  deriving DecidableEq, Repr, Inhabited

namespace Section

/-- The lines of a field below a title. -/
def fieldLines (mode : Mode) (f : Field) : List String :=
  match f with
  | .table t => (linesOf (t.render mode)).map (Field.indentation 2 ++ ·)
  | f => [Field.indentation 1 ++ f.render mode]

/-- The lines of a section. -/
def lines (mode : Mode) (s : Section) : List String :=
  ((Styled.ofBold "·").render mode ++ " " ++ s.title.embolden.render mode)
    :: s.fields.flatMap (fieldLines mode)

/-- What is written for a section. -/
def render (mode : Mode) (s : Section) : String := "".intercalate ((s.lines mode).map (· ++ "\n"))

end Section

end AnyCase.Terminal
