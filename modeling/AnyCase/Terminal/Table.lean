import AnyCase.Cluster.Basic
import AnyCase.Terminal.Style

/-!
# `Terminal.Table` — aligned tables

A table has as many columns as its header has cells. Each column is as wide as its widest cell, and
every other cell is filled up to that width. Cells beyond the header are not shown; a row may have fewer.

A `Grid` is such a table of any `Content` that has a width. A `Table` is one of styled texts; their width is
counted in clusters of the text, without the style.
-/

namespace AnyCase.Terminal

/-- What can stand in a grid. -/
class Content (α : Type) where
  /-- The width of a content. -/
  width : α → Nat
  /-- What is written for it. -/
  write : Mode → α → String
  /-- The empty content. -/
  blank : α
  width_blank : width blank = 0

instance : Content Styled where
  width s := Cluster.count s.text
  write := Styled.render
  blank := .plain ""
  width_blank := rfl

/-- A content, and the character it is filled up with. -/
structure Filled (α : Type) where
  content : α
  fill : Char
  deriving DecidableEq, Repr, Inhabited

/-- A header and rows of cells. -/
structure Grid (α : Type) where
  header : List (Filled α)
  rows : List (List (Filled α))
  deriving DecidableEq, Repr, Inhabited

/-- A cell of a table. -/
abbrev Cell := Filled Styled

/-- A table of styled texts. -/
abbrev Table := Grid Styled

variable {α : Type}

/-- A content that is filled up with blanks. -/
def Filled.of (content : α) : Filled α := ⟨content, ' '⟩

variable [Content α]

namespace Filled

/-- The width of the content. -/
def width (c : Filled α) : Nat := Content.width c.content

/-- What fills a cell up to a width. -/
def padding (c : Filled α) (width : Nat) : String :=
  String.ofList (List.replicate (width - c.width) c.fill)

/-- What is written for a cell of a width. -/
def render (mode : Mode) (c : Filled α) (width : Nat) : String := Content.write mode c.content ++ c.padding width

end Filled

namespace Grid

/-- The number of columns. -/
def columns (t : Grid α) : Nat := t.header.length

/-- The cells of a column. -/
def column (t : Grid α) (i : Nat) : List (Filled α) := (t.rows ++ [t.header]).filterMap (·[i]?)

/-- The width of a column. -/
def width (t : Grid α) (i : Nat) : Nat := ((t.column i).map Filled.width).foldr max 0

/-- The widths of the columns. -/
def widths (t : Grid α) : List Nat := (List.range t.columns).map t.width

/-- The cells of a row as they are shown. -/
def renderCells (mode : Mode) (widths : List Nat) (row : List (Filled α)) : List String :=
  List.zipWith (Filled.render mode) row widths

/-- A row on a line. -/
def renderRow (mode : Mode) (widths : List Nat) (row : List (Filled α)) : String :=
  " | ".intercalate (renderCells mode widths row) ++ "\n"

/-- The row below the header. -/
def rule (t : Grid α) : List (Filled α) := List.replicate t.columns ⟨Content.blank, '-'⟩

/-- The lines of a grid. -/
def render (mode : Mode) (t : Grid α) : String :=
  "".intercalate ((t.header :: t.rule :: t.rows).map (renderRow mode t.widths))

end Grid

end AnyCase.Terminal
