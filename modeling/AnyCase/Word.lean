/-!
# `Word` — the words of a text

An identifier such as `parseHTTPRequest2` and a phrase such as `parse http request 2` name the same
words. This module finds them. Marks are put between words in three passes, and the words are the
non-empty pieces between marks:

* `markLowerUpper` — a lower-case letter or digit, then an upper-case letter: `parse·HTTP`;
* `markAcronym` — an upper-case letter, then an upper-case and a lower-case one: `HTTP·Request`;
* `markOther` — every run of characters that are not ASCII letters or digits becomes one mark.

Only ASCII letters and digits are word characters, so the classes and case maps of `Char` are the
right ones. The mark itself is not a word character: one that stands in the text separates words too.
-/

namespace AnyCase

/-- The character put between words. -/
def wordMark : Char := '\x00'

/-- Whether an upper-case letter after `c` starts a word. -/
def endsLowerRun (c : Char) : Bool := c.isLower || c.isDigit

/-- A mark between each lower-case letter or digit and an upper-case letter right after it. The two
characters of a match are not looked at again. -/
def markLowerUpper : List Char → List Char
  | a :: b :: rest =>
    if endsLowerRun a && b.isUpper then a :: wordMark :: b :: markLowerUpper rest
    else a :: markLowerUpper (b :: rest)
  | rest => rest

/-- A mark between an upper-case letter and the upper-case letter after it that begins a capitalised
word. The three characters of a match are not looked at again. -/
def markAcronym : List Char → List Char
  | a :: b :: c :: rest =>
    if a.isUpper && b.isUpper && c.isLower then a :: wordMark :: b :: c :: markAcronym rest
    else a :: markAcronym (b :: c :: rest)
  | rest => rest

/-- Each run of characters other than ASCII letters and digits replaced by one mark; `inRun` says that
the character before belonged to a run. -/
def markOther (inRun : Bool) : List Char → List Char
  | [] => []
  | c :: rest =>
    if c.isAlphanum then c :: markOther false rest
    else if inRun then markOther true rest
    else wordMark :: markOther true rest

/-- The pieces of a text between the occurrences of a character, empty ones included. -/
def piecesBetween (mark : Char) : List Char → List (List Char)
  | [] => [[]]
  | c :: rest =>
    if c = mark then [] :: piecesBetween mark rest
    else
      match piecesBetween mark rest with
      | [] => [[c]]
      | piece :: pieces => (c :: piece) :: pieces

/-- The words of a text, in order. -/
def wordsOf (text : List Char) : List (List Char) :=
  (piecesBetween wordMark (markOther false (markAcronym (markLowerUpper text)))).filter
    (fun piece => !piece.isEmpty)

end AnyCase
