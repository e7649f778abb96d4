import AnyCase.Dict

/-!
# `Json.Basic` — JSON values

A `Json` is what a JSON text says, with the members of an object in the order in which they were
written, repeated keys included. Whole numbers of 64 bits are numbers; every other number keeps its
spelling, since nothing computes with it.

## Contents

* `Json` — the values;
* `Json.depth` — how deep arrays and objects are nested;
* `Json.settled` — objects as maps: keys in order, of two members with one key the later one;
* `text?`, `flag?`, `texts?`, `flags?` — the values the application exchanges.
-/

namespace AnyCase

/-- A JSON value. -/
inductive Json
  | null
  | bool (value : Bool)
  /-- A whole number between `-2^63` and `2^64 - 1`. -/
  | int (value : Int)
  /-- Any other number, as it is spelled. -/
  | real (spelling : String)
  | str (text : String)
  /-- A string that names half of a surrogate pair: it stands for no text. -/
  | torn
  | arr (items : List Json)
  | obj (members : List (String × Json))
  deriving BEq, Inhabited

namespace Json

/-! ## Nesting -/

mutual

/-- The number of arrays and objects around the innermost value, the value itself included. -/
def depth : Json → Nat
  | arr items => depthOfItems items + 1
  | obj members => depthOfMembers members + 1
  | _ => 0

/-- The greatest depth in a list. -/
def depthOfItems : List Json → Nat
  | [] => 0
  | v :: rest => max (depth v) (depthOfItems rest)

/-- The greatest depth among members. -/
def depthOfMembers : List (String × Json) → Nat
  | [] => 0
  | (_, v) :: rest => max (depth v) (depthOfMembers rest)

end

/-! ## Objects as maps -/

mutual

/-- The value with each object as a map: its members in key order, each key once. -/
def settled : Json → Json
  | arr items => arr (settledItems items)
  | obj members => obj (Dict.ofList (settledMembers members)).toList
  | v => v

/-- A list of values, each settled. -/
def settledItems : List Json → List Json
  | [] => []
  | v :: rest => settled v :: settledItems rest

/-- A list of members, each value settled. -/
def settledMembers : List (String × Json) → List (String × Json)
  | [] => []
  | (k, v) :: rest => (k, settled v) :: settledMembers rest

end

/-! ## Reading values -/

/-- The text of a string. -/
def text? : Json → Option String
  | str s => some s
  | _ => none

/-- The truth value of a boolean. -/
def flag? : Json → Option Bool
  | bool b => some b
  | _ => none

/-- The number of a whole number. -/
def int? : Json → Option Int
  | int i => some i
  | _ => none

/-- The number of a whole number between two bounds. -/
def intBetween? (low high : Int) (v : Json) : Option Int :=
  v.int?.filter (fun i => low ≤ i && i ≤ high)

/-- The texts of an array of strings. -/
def texts? : Json → Option (List String)
  | arr items => items.mapM text?
  | _ => none

/-- The truth values of members that are all boolean; of two with one key the later one. -/
def flagsOf? (members : List (String × Json)) : Option (Dict Bool) :=
  (members.mapM (fun m => (flag? m.2).map (fun b => (m.1, b)))).map Dict.ofList

/-- The truth values of an object of booleans. -/
def flags? : Json → Option (Dict Bool)
  | obj members => flagsOf? members
  | _ => none

/-- A value that may be null. -/
def optional? {α : Type} (read : Json → Option α) : Json → Option (Option α)
  | null => some none
  | v => (read v).map some

/-! ## Building values -/

/-- An array of strings. -/
def ofTexts (texts : List String) : Json := arr (texts.map str)

/-- An object of booleans. -/
def ofFlags (flags : Dict Bool) : Json := obj (flags.toList.map (fun e => (e.1, bool e.2)))

/-- A member that is written only if it has a value. -/
def optionalMember (key : String) (value : Option Json) : List (String × Json) :=
  value.toList.map (fun v => (key, v))

end Json

end AnyCase
