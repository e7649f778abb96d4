import AnyCase.Json.Reader
import AnyCase.Json.Writer
import AnyCase.Line
import AnyCase.Message.State

/-!
# `Message.Reply` — what the daemon answers

A reply is a JSON object tagged by `command`. Replies are sent one per line; since no line break stands
in the text of a reply, the lines of what was sent are the replies.
-/

namespace AnyCase

/-- An answer of the daemon. -/
inductive Reply
  /-- Give the keyboard focus back to the text. -/
  | focus
  /-- The history of a field. -/
  | history (fieldId : String) (texts : List String)
  /-- The state of the panel. -/
  | state (snapshot : PanelState)
  /-- The panel was open already: bring it to the front. -/
  | reveal
  /-- The request was refused. -/
  | rejected (reason : String)
  deriving DecidableEq, Repr

namespace Reply

/-- The field that the history belongs to. -/
def textField : String := "text-to-search"

/-- The history of the text. -/
def textHistory (texts : List String) : Reply := history textField texts

/-! ## Writing -/

/-- The name of the reply. -/
def command : Reply → String
  | focus => "focus"
  | history .. => "history"
  | state _ => "state"
  | reveal => "reveal"
  | rejected _ => "rejected"

/-- The members after the name. -/
def members : Reply → List (String × Json)
  | focus | reveal => []
  | history fieldId texts => [("fieldId", .str fieldId), ("history", Json.ofTexts texts)]
  | state snapshot => snapshot.members
  | rejected reason => [("reason", .str reason)]

/-- A reply as JSON. -/
def toJson (r : Reply) : Json := .obj (("command", .str r.command) :: r.members)

/-- The text of a reply. -/
def write (r : Reply) : String := r.toJson.compact

/-! ## Reading -/

/-- The reply of a name and its parts. -/
def ofFields? (command : String) (fields : Json.Fields) : Option Reply :=
  match command with
  | "focus" => if fields.fits 0 then some focus else none
  | "reveal" => if fields.fits 0 then some reveal else none
  | "history" => do
    let fieldId ← fields.need? 0 "fieldId" Json.text?
    let texts ← fields.need? 1 "history" Json.texts?
    if fields.fits 2 then some (history fieldId texts) else none
  | "state" => (PanelState.ofFields? fields).map state
  | "rejected" => do
    let reason ← fields.need? 0 "reason" Json.text?
    if fields.fits 1 then some (rejected reason) else none
  | _ => none

/-- The reply of a JSON value. -/
def ofJson? (v : Json) : Option Reply := do
  let (tag, fields) ← Json.tagged? "command" v
  ofFields? (← tag.text?) fields

/-- The reply of a text. -/
def read? (text : String) : Option Reply := (Json.read? text).bind ofJson?

/-! ## Lines -/

/-- Replies as they are sent: each on a line. -/
def writeLines (replies : List Reply) : String := "".intercalate (replies.map (fun r => r.write ++ "\n"))

/-- The replies of the lines of a text, or the first line that is none. -/
def readLines (text : String) : Except String (List Reply) :=
  (linesOf text).mapM (fun line => (read? line).elim (.error line) .ok)

end Reply

end AnyCase
