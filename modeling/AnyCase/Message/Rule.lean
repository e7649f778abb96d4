import AnyCase.Form.Rule
import AnyCase.Json.Fields

/-!
# `Message.Rule` — rules in messages and settings

A rule is an object tagged by `kind`. In a message the kind may also be given by its number.
-/

namespace AnyCase.Rule

/-- The names of the kinds. -/
def exclusiveKind : String := "exclusive"

/-- The name of the kind that enables. -/
def enabledKind : String := "enabled-when-any"

/-- The name of the kind that disables. -/
def disabledKind : String := "disabled-when-any"

/-- A rule as JSON. -/
def toJson : Rule → Json
  | exclusive a b => .obj [("kind", .str exclusiveKind), ("a", .str a), ("b", .str b)]
  | enabledWhenAny group target =>
    .obj [("kind", .str enabledKind), ("group", .str group), ("target", .str target)]
  | disabledWhenAny group target =>
    .obj [("kind", .str disabledKind), ("group", .str group), ("target", .str target)]

/-- The name of a kind that is given by its number. -/
def kindOfNumber? : Int → Option String
  | 0 => some exclusiveKind
  | 1 => some enabledKind
  | 2 => some disabledKind
  | _ => none

/-- The kind of a rule; `numbered` says whether it may be a number. -/
def kind? (numbered : Bool) : Json → Option String
  | .str kind => some kind
  | .int n => if numbered then kindOfNumber? n else none
  | _ => none

/-- The rule of a JSON value. -/
def ofJson? (numbered : Bool) (v : Json) : Option Rule := do
  let (tag, fields) ← Json.tagged? "kind" v
  let kind ← kind? numbered tag
  if !fields.fits 2 then none
  else if kind = exclusiveKind then
    some (exclusive (← fields.need? 0 "a" Json.text?) (← fields.need? 1 "b" Json.text?))
  else if kind = enabledKind then
    some (enabledWhenAny (← fields.need? 0 "group" Json.text?) (← fields.need? 1 "target" Json.text?))
  else if kind = disabledKind then
    some (disabledWhenAny (← fields.need? 0 "group" Json.text?) (← fields.need? 1 "target" Json.text?))
  else none

end AnyCase.Rule
