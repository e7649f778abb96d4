import AnyCase.Form.Basic
import AnyCase.Message.Rule

/-!
# `Message.State` — the state of a panel in a message

A `PanelState` tells the text, case sensitivity, groups and rules of a panel. A form can be made from it
(`PanelState.form`): main checkboxes and enablement are computed again, so a state that contradicts
itself cannot make a form that does.
-/

namespace AnyCase

/-- The state of a group. -/
structure GroupState where
  id : String
  main : Option Main
  enabled : Bool
  dynamic : Bool
  /-- Whether the elements of the group were never stored. -/
  firstStart : Bool
  members : List Checkbox
  deriving DecidableEq, Repr, Inhabited

/-- The state of a panel. -/
structure PanelState where
  text : String
  sensitiveCase : Bool
  groups : List GroupState
  rules : List Rule
  deriving DecidableEq, Repr, Inhabited

/-! ## Groups and forms -/

namespace GroupState

/-- The state of a group, whose elements were never stored if `firstStart` says so. -/
def ofGroup (g : Group) (firstStart : Bool) : GroupState :=
  ⟨g.id, g.main, g.enabled, g.isDynamic, firstStart, g.members⟩

/-- The group of a state. -/
def group (s : GroupState) : Group :=
  let label := s.main.map (·.label)
  let g := if s.dynamic then Group.dynamic s.id label s.members else Group.fixed s.id label s.members
  { g with enabled := s.enabled }

end GroupState

/-- The form of a state. -/
def PanelState.form (s : PanelState) : Form :=
  Form.make (s.groups.map GroupState.group) s.rules

/-! ## Writing -/

/-- A checkbox as JSON. -/
def Checkbox.toJson (c : Checkbox) : Json :=
  .obj [("id", .str c.id), ("label", .str c.label), ("selected", .bool c.selected),
    ("editable", .bool c.editable)]

/-- A main checkbox as JSON. -/
def Main.toJson (m : Main) : Json := .obj [("label", .str m.label), ("selected", .bool m.selected)]

/-- The state of a group as JSON. -/
def GroupState.toJson (s : GroupState) : Json :=
  .obj ([("id", .str s.id)]
    ++ Json.optionalMember "main" (s.main.map Main.toJson)
    ++ [("enabled", .bool s.enabled), ("dynamic", .bool s.dynamic),
      ("firstStart", .bool s.firstStart), ("elts", .arr (s.members.map Checkbox.toJson))])

/-- The members of the state of a panel. -/
def PanelState.members (s : PanelState) : List (String × Json) :=
  [("text", .str s.text), ("sensitiveCase", .bool s.sensitiveCase),
    ("groups", .arr (s.groups.map GroupState.toJson)), ("rules", .arr (s.rules.map Rule.toJson))]

/-! ## Reading -/

/-- The values of an array, each read by itself. -/
def Json.list? {α : Type} (read : Json → Option α) : Json → Option (List α)
  | .arr items => items.mapM read
  | _ => none

/-- The checkbox of a JSON value. -/
def Checkbox.ofJson? (v : Json) : Option Checkbox := do
  let fields ← Json.fields? v
  let id ← fields.need? 0 "id" Json.text?
  let label ← fields.need? 1 "label" Json.text?
  let selected ← fields.need? 2 "selected" Json.flag?
  let editable ← fields.need? 3 "editable" Json.flag?
  if fields.fits 4 then some ⟨id, label, selected, editable⟩ else none

/-- The main checkbox of a JSON value. -/
def Main.ofJson? (v : Json) : Option Main := do
  let fields ← Json.fields? v
  let label ← fields.need? 0 "label" Json.text?
  let selected ← fields.need? 1 "selected" Json.flag?
  if fields.fits 2 then some ⟨label, selected⟩ else none

/-- The state of a group of a JSON value. -/
def GroupState.ofJson? (v : Json) : Option GroupState := do
  let fields ← Json.fields? v
  let id ← fields.need? 0 "id" Json.text?
  let main ← fields.get? 1 "main" (Json.optional? Main.ofJson?) (some none)
  let enabled ← fields.need? 2 "enabled" Json.flag?
  let dynamic ← fields.need? 3 "dynamic" Json.flag?
  let firstStart ← fields.get? 4 "firstStart" Json.flag? (some false)
  let members ← fields.need? 5 "elts" (Json.list? Checkbox.ofJson?)
  if fields.fits 6 then some ⟨id, main, enabled, dynamic, firstStart, members⟩ else none

/-- The state of a panel of the parts of a message. -/
def PanelState.ofFields? (fields : Json.Fields) : Option PanelState := do
  let text ← fields.need? 0 "text" Json.text?
  let sensitiveCase ← fields.need? 1 "sensitiveCase" Json.flag?
  let groups ← fields.need? 2 "groups" (Json.list? GroupState.ofJson?)
  let rules ← fields.get? 3 "rules" (Json.list? (Rule.ofJson? true)) (some [])
  if fields.fits 4 then some ⟨text, sensitiveCase, groups, rules⟩ else none

end AnyCase
