import AnyCase.Convention

/-!
# `Pattern` — the regular expression of a query

A query is searched for in every selected convention at once. The pattern is an alternation with one
variant per convention. Where word boundaries are asked for, a variant is put between lookarounds whose
class holds letters, digits and the separator of its own convention: so the end of a `kebab-case` name
is not taken for the end of a `snake_case` one.

Without any selected convention the query itself is the pattern, with `\b` at the edge asked for; when
both edges are, matching whole words is left to the search program.

## Contents

* `Edges` — the boundaries asked for;
* `Alternative`, `Alternative.render` — one variant and its text;
* `Pattern.alternatives`, `Pattern.compile` — the variants of a query and the whole pattern.
-/

namespace AnyCase

/-- The edges at which a match has to be a whole word. -/
structure Edges where
  atStart : Bool
  atEnd : Bool
  deriving DecidableEq, Repr, Inhabited

/-- One way of writing the query: the text to match and the separator of its convention. -/
structure Alternative where
  body : List Char
  separator : List Char
  deriving DecidableEq

/-- What the search program is given. -/
structure Compiled where
  pattern : String
  /-- Whether the search program has to match whole words by itself. -/
  hostWholeWord : Bool
  deriving DecidableEq, Repr

namespace Alternative

/-- The class of the characters that continue a word written with a separator. -/
def wordChars (separator : List Char) : List Char :=
  "[a-zA-Z0-9".toList ++ separator ++ [']']

/-- The text of an alternative: its body between the lookarounds asked for. -/
def render (edges : Edges) (a : Alternative) : List Char :=
  (if edges.atStart then "(?<!".toList ++ wordChars a.separator ++ [')'] else [])
    ++ a.body
    ++ (if edges.atEnd then "(?!".toList ++ wordChars a.separator ++ [')'] else [])

/-- The query in a convention; a query without words stands for itself. -/
def ofQuery (query : String) (k : Convention) : Alternative :=
  let written := k.join (wordsOf query.toList)
  ⟨if written.isEmpty then query.toList else written, k.separator⟩

end Alternative

namespace Pattern

/-- The texts of the alternatives of a query, in the order of the conventions, each once. -/
def alternatives (query : String) (selected : List Convention) (edges : Edges) : List (List Char) :=
  (selected.map (fun k => (Alternative.ofQuery query k).render edges)).eraseDups

/-- The pattern of a query searched for as it stands. -/
def literal (query : String) (edges : Edges) : Compiled :=
  match edges.atStart, edges.atEnd with
  | true, true => ⟨query, true⟩
  | true, false => ⟨"\\b" ++ query, false⟩
  | false, true => ⟨query ++ "\\b", false⟩
  | false, false => ⟨query, false⟩

/-- The pattern of a query for the selected conventions. -/
def compile (query : String) (selected : List Convention) (edges : Edges) : Compiled :=
  if selected.isEmpty then literal query edges
  else ⟨String.ofList (['|'].intercalate (alternatives query selected edges)), false⟩

end Pattern

end AnyCase
