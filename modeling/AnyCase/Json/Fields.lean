import AnyCase.Json.Basic

/-!
# `Json.Fields` — messages as fields

A message with named parts is written as an object or, without the names, as an array of the parts in
order. `Fields` is either form. `Fields.get?` looks a part up by name in the one and by place in the
other:

* a part that is missing takes its default, and is an error without one;
* a name that occurs twice is an error;
* names that no part has are ignored, surplus items of an array are an error (`Fields.fits`).

A message of one of several kinds is tagged: a member with a fixed key, or the first item, names the
kind (`Json.tagged?`).
-/

namespace AnyCase.Json

/-- The parts of a message. -/
inductive Fields
  | named (members : List (String × Json))
  | listed (items : List Json)

/-- The parts of an object or an array. -/
def fields? : Json → Option Fields
  | obj members => some (.named members)
  | arr items => some (.listed items)
  | _ => none

namespace Fields

/-- The values of the members with a key. -/
def valuesOf (key : String) (members : List (String × Json)) : List Json :=
  (members.filter (fun m => m.1 = key)).map (·.2)

/-- The part with a name, which is the one at `place` of an array; `absent` is its default. -/
def get? {α : Type} (fs : Fields) (place : Nat) (name : String) (read : Json → Option α)
    (absent : Option α) : Option α :=
  match fs with
  | named members =>
    match valuesOf name members with
    | [] => absent
    | [v] => read v
    | _ => none
  | listed items =>
    match items[place]? with
    | some v => read v
    | none => absent

/-- The part with a name, which has to be there. -/
def need? {α : Type} (fs : Fields) (place : Nat) (name : String) (read : Json → Option α) :
    Option α :=
  fs.get? place name read none

/-- Whether the parts are at most `count`; an object may have members of any other name. -/
def fits (fs : Fields) (count : Nat) : Bool :=
  match fs with
  | named _ => true
  | listed items => items.length ≤ count

end Fields

/-- The kind of a tagged message, and its other parts. -/
def tagged? (tag : String) : Json → Option (Json × Fields)
  | obj members =>
    match Fields.valuesOf tag members with
    | [kind] => some (kind, .named (members.filter (fun m => m.1 ≠ tag)))
    | _ => none
  | arr (kind :: items) => some (kind, .listed items)
  | _ => none

end AnyCase.Json
