import AnyCase.Form.Edit
import AnyCase.Json.Fields
import AnyCase.Json.Reader
import AnyCase.Json.Writer

/-!
# `Message.Request` — what a client asks of the daemon

A request is a JSON object tagged by `command`, with the members in a fixed order and those without a
value left out. `main-instant` carries the main form: beside its text and case sensitivity every other
member is a checkbox. All other requests may also be given as an array, and ignore members they do not
have.

## Contents

* `MainForm`, `Request` — the types;
* `Request.toJson`, `Request.write` — as JSON and as text;
* `Request.ofJson?`, `Request.read?` — back.
-/

namespace AnyCase

/-- The main form: the text to search for, case sensitivity, and the values of the fixed checkboxes. -/
structure MainForm where
  text : String
  sensitiveCase : Bool
  checks : Dict Bool
  deriving DecidableEq, Inhabited

/-- What a client asks. -/
inductive Request
  /-- Open the panel, or show it if it is open. -/
  | openPanel
  /-- Close the panel. -/
  | close
  /-- Tell the state of the panel. -/
  | snapshot
  /-- Stop the daemon. -/
  | shutdown
  /-- The main form was changed: search. -/
  | mainInstant (form : MainForm)
  /-- Replace the history. -/
  | history (fieldId : Option String) (texts : List String)
  /-- Change the elements of a dynamic group. -/
  | edit (group : String) (change : Edit)
  deriving DecidableEq

namespace Request

/-- The dynamic group that the request is about. -/
def group? : Request → Option String
  | edit group _ => some group
  | _ => none

/-! ## Writing -/

/-- The name of the command of a change. -/
def editCommand : Edit → String
  | .set _ => "exec"
  | .add .. => "add"
  | .amend .. => "mod"
  | .remove _ => "remove"
  | .reorder _ => "list-order"

/-- The members of a change. -/
def editMembers : Edit → List (String × Json)
  | .set values => [("values", Json.ofFlags values)]
  | .add label selected proposed =>
    [("label", .str label), ("selected", .bool selected)]
      ++ Json.optionalMember "eltIdToAdd" (proposed.map .str)
  | .amend id label selected =>
    [("eltId", .str id), ("label", .str label), ("selected", .bool selected)]
  | .remove id => [("eltId", .str id)]
  | .reorder ids => [("eltIds", Json.ofTexts ids)]

/-- The name of the command. -/
def command : Request → String
  | openPanel => "open"
  | close => "close"
  | snapshot => "snapshot"
  | shutdown => "shutdown"
  | mainInstant _ => "main-instant"
  | history .. => "history"
  | edit _ change => editCommand change

/-- The members after the command. -/
def members : Request → List (String × Json)
  | openPanel | close | snapshot | shutdown => []
  | mainInstant form =>
    [("text", .str form.text), ("sensitiveCase", .bool form.sensitiveCase)]
      ++ form.checks.toList.map (fun e => (e.1, .bool e.2))
  | history fieldId texts =>
    Json.optionalMember "fieldId" (fieldId.map .str) ++ [("history", Json.ofTexts texts)]
  | edit group change => ("manager", .str group) :: editMembers change

/-- A request as JSON. -/
def toJson (r : Request) : Json := .obj (("command", .str r.command) :: r.members)

/-- The text of a request. -/
def write (r : Request) : String := r.toJson.compact

/-! ## Reading -/

/-- The main form of the members after the command: those without a place of their own are
checkboxes. -/
def mainForm? : Json.Fields → Option MainForm
  | .listed _ => none
  | .named members => do
    let fields := Json.Fields.named members
    let text ← fields.need? 0 "text" Json.text?
    let sensitiveCase ← fields.need? 1 "sensitiveCase" Json.flag?
    let checks ← Json.flagsOf? (members.filter (fun m => m.1 ≠ "text" && m.1 ≠ "sensitiveCase"))
    some ⟨text, sensitiveCase, checks⟩

/-- A request without parts. -/
def bare? (r : Request) (fields : Json.Fields) : Option Request :=
  if fields.fits 0 then some r else none

/-- The change of a command and its parts. -/
def edit? (command : String) (fields : Json.Fields) : Option Edit :=
  match command with
  | "exec" => do
    let values ← fields.need? 1 "values" Json.flags?
    if fields.fits 2 then some (.set values) else none
  | "add" => do
    let label ← fields.need? 1 "label" Json.text?
    let selected ← fields.get? 2 "selected" Json.flag? (some false)
    let proposed ← fields.get? 3 "eltIdToAdd" (Json.optional? Json.text?) (some none)
    if fields.fits 4 then some (.add label selected proposed) else none
  | "mod" => do
    let id ← fields.need? 1 "eltId" Json.text?
    let label ← fields.need? 2 "label" Json.text?
    let selected ← fields.need? 3 "selected" Json.flag?
    if fields.fits 4 then some (.amend id label selected) else none
  | "remove" => do
    let id ← fields.need? 1 "eltId" Json.text?
    if fields.fits 2 then some (.remove id) else none
  | "list-order" => do
    let ids ← fields.need? 1 "eltIds" Json.texts?
    if fields.fits 2 then some (.reorder ids) else none
  | _ => none

/-- The request of a command and its parts. -/
def ofFields? (command : String) (fields : Json.Fields) : Option Request :=
  match command with
  | "open" => bare? openPanel fields
  | "close" => bare? close fields
  | "snapshot" => bare? snapshot fields
  | "shutdown" => bare? shutdown fields
  | "main-instant" => (mainForm? fields).map mainInstant
  | "history" => do
    let fieldId ← fields.get? 0 "fieldId" (Json.optional? Json.text?) (some none)
    let texts ← fields.need? 1 "history" Json.texts?
    if fields.fits 2 then some (history fieldId texts) else none
  | command => do
    let group ← fields.need? 0 "manager" Json.text?
    let change ← edit? command fields
    some (edit group change)

/-- The request of a JSON value. -/
def ofJson? (v : Json) : Option Request := do
  let (tag, fields) ← Json.tagged? "command" v
  ofFields? (← tag.text?) fields

/-- The request of a text. -/
def read? (text : String) : Option Request := (Json.read? text).bind ofJson?

end Request

end AnyCase
