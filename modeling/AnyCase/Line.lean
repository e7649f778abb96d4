/-!
# `Line` — the lines of a text

A line ends with a line feed, or with a carriage return and a line feed; the last one may end with the
text. What ends a line does not belong to it.
-/

namespace AnyCase

/-- Some lines with a character put before the first one. -/
def consLine (c : Char) : List (List Char) → List (List Char)
  | [] => [[c]]
  | line :: rest => (c :: line) :: rest

/-- The lines of a list of characters. -/
def linesOfChars : List Char → List (List Char)
  | [] => []
  | '\r' :: '\n' :: rest => [] :: linesOfChars rest
  | '\n' :: rest => [] :: linesOfChars rest
  | c :: rest => consLine c (linesOfChars rest)

/-- The lines of a text. -/
def linesOf (text : String) : List String := (linesOfChars text.toList).map String.ofList

end AnyCase
