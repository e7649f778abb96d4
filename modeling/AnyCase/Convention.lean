import AnyCase.Word

/-!
# `Convention` — the conventions for writing identifiers

A convention says how the words of a text are written as one identifier: how each word is cased and
what stands between two words. `Convention.convert` takes the words of any text (`wordsOf`) and writes
them so; a text without ASCII letters and digits has no words and becomes the empty text.

## Contents

* `Convention`, `Convention.all` — the seven conventions, in the order of the panel;
* `id`, `label`, `separator`, `ofId?` — their names and the text between two words;
* `convert` — a text written in a convention.
-/

namespace AnyCase

/-- A convention for writing identifiers. -/
inductive Convention
  | kebab
  | camel
  | pascal
  | snake
  | upperSnake
  | capital
  | path
  deriving DecidableEq, Repr, Inhabited

namespace Convention

/-- The conventions in the order in which the panel shows them. -/
def all : List Convention := [kebab, camel, pascal, snake, upperSnake, capital, path]

/-- The name that messages and the persisted state use. -/
def id : Convention → String
  | kebab => "kebabCase"
  | camel => "camelCase"
  | pascal => "pascalCase"
  | snake => "snakeCase"
  | upperSnake => "upperSnakeCase"
  | capital => "capitalCase"
  | path => "pathCase"

/-- The name shown to the user: itself written in the convention. -/
def label : Convention → String
  | kebab => "kebab-case"
  | camel => "camelCase"
  | pascal => "PascalCase"
  | snake => "snake_case"
  | upperSnake => "UPPER_SNAKE_CASE"
  | capital => "Capital Case"
  | path => "path/case"

/-- What stands between two words; nothing where capitals tell the words apart. -/
def separator : Convention → List Char
  | kebab => ['-']
  | camel => []
  | pascal => []
  | snake => ['_']
  | upperSnake => ['_']
  | capital => [' ']
  | path => ['/']

/-- The convention of a given name. -/
def ofId? (name : String) : Option Convention := all.find? (fun k => k.id = name)

/-- The place of a convention in `all`. -/
def index (k : Convention) : Nat := all.idxOf k

/-! ## Writing words -/

/-- A word in lower case. -/
def lowerWord (word : List Char) : List Char := word.map Char.toLower

/-- A word in upper case. -/
def upperWord (word : List Char) : List Char := word.map Char.toUpper

/-- A word with its first letter in upper case and the others in lower case. -/
def capitalWord : List Char → List Char
  | [] => []
  | c :: rest => c.toUpper :: lowerWord rest

/-- A capitalised word that follows another one: since a capital does not show where a word that begins
with a digit starts, an underscore does. -/
def followingWord : List Char → List Char
  | [] => []
  | c :: rest => if c.isDigit then '_' :: c :: lowerWord rest else capitalWord (c :: rest)

/-- Words run together; the first one is written by `first`. -/
def runTogether (first : List Char → List Char) : List (List Char) → List Char
  | [] => []
  | word :: rest => first word ++ (rest.map followingWord).flatten

/-- Words in a convention. -/
def join (k : Convention) (words : List (List Char)) : List Char :=
  match k with
  | camel => runTogether lowerWord words
  | pascal => runTogether capitalWord words
  | upperSnake => k.separator.intercalate (words.map upperWord)
  | capital => k.separator.intercalate (words.map capitalWord)
  | kebab | snake | path => k.separator.intercalate (words.map lowerWord)

/-- A text in a convention. -/
def convert (k : Convention) (text : String) : String :=
  String.ofList (k.join (wordsOf text.toList))

end Convention

end AnyCase
