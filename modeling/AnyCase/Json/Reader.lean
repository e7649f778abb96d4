import AnyCase.Json.Basic
import AnyCase.Json.Token

/-!
# `Json.Reader` — from tokens to values

The reader is a machine with a stack of unfinished arrays and objects. Each token changes its state
(`Reader.step`), so a document is a fold over its tokens, and what follows a value is read in a state
that depends on the value and the stack only.

A document is accepted in two ways. `Json.read?` asks that every token has a value and that arrays and
objects are nested at most `maxDepth` deep. `Json.skim?` asks for the grammar alone; it is for documents
some of whose members are not looked at. Only the keys of the outermost object have to be texts then.
-/

namespace AnyCase.Json

/-- An array or object that is not finished. Its parts so far are in reverse; the one being read is
missing. -/
inductive Frame
  | arr (items : List Json)
  | obj (members : List (String × Json)) (key : String)

/-- What the next token may be. -/
inductive Reader
  /-- A value. -/
  | value (stack : List Frame)
  /-- The first item of an array, or its end. -/
  | firstItem (stack : List Frame)
  /-- The first key of an object, or its end. -/
  | firstKey (stack : List Frame)
  /-- The next key of an object. -/
  | key (members : List (String × Json)) (stack : List Frame)
  /-- The colon after a key. -/
  | colon (members : List (String × Json)) (key : String) (stack : List Frame)
  /-- A comma or an end, after a value. -/
  | after (value : Json) (stack : List Frame)

namespace Reader

/-- The state before the first token. -/
def start : Reader := value []

/-- The start of a value. -/
def begin (stack : List Frame) : Token → Option Reader
  | .null => some (after .null stack)
  | .bool b => some (after (.bool b) stack)
  | .int i => some (after (.int i) stack)
  | .real spelling _ => some (after (.real spelling) stack)
  | .str text => some (after (.str text) stack)
  | .torn => some (after .torn stack)
  | .openArr => some (firstItem stack)
  | .openObj => some (firstKey stack)
  | _ => none

/-- A key of an object. One without a text stands only in an object whose members are not looked at. -/
def readKey (members : List (String × Json)) (stack : List Frame) : Token → Option Reader
  | .str text => some (colon members text stack)
  | .torn => if stack.isEmpty then none else some (colon members "\uFFFD" stack)
  | _ => none

/-- The state after one more token. -/
def step (s : Reader) (t : Token) : Option Reader :=
  match s with
  | value stack => begin stack t
  | firstItem stack =>
    match t with
    | .closeArr => some (after (.arr []) stack)
    | t => begin (.arr [] :: stack) t
  | firstKey stack =>
    match t with
    | .closeObj => some (after (.obj []) stack)
    | t => readKey [] stack t
  | key members stack => readKey members stack t
  | colon members k stack =>
    match t with
    | .colon => some (value (.obj members k :: stack))
    | _ => none
  | after v (.arr items :: stack) =>
    match t with
    | .comma => some (value (.arr (v :: items) :: stack))
    | .closeArr => some (after (.arr (v :: items).reverse) stack)
    | _ => none
  | after v (.obj members k :: stack) =>
    match t with
    | .comma => some (key ((k, v) :: members) stack)
    | .closeObj => some (after (.obj ((k, v) :: members).reverse) stack)
    | _ => none
  | after _ [] => none

/-- The document at the end of the tokens, if it is complete. -/
def finish : Reader → Option Json
  | after v [] => some v
  | _ => none

end Reader

/-- The value of a list of tokens. -/
def ofTokens? (tokens : List Token) : Option Json :=
  (tokens.foldlM Reader.step Reader.start).bind Reader.finish

/-- How deep arrays and objects may be nested. -/
def maxDepth : Nat := 127

/-- The value of a text that follows the grammar. -/
def skim? (text : String) : Option Json :=
  (tokens? text.toList).bind ofTokens?

/-- The value of a text, all of whose parts have values, nested at most `maxDepth` deep. -/
def read? (text : String) : Option Json := do
  let tokens ← tokens? text.toList
  if tokens.all Token.isSound then (ofTokens? tokens).filter (fun v => v.depth ≤ maxDepth) else none

end AnyCase.Json
