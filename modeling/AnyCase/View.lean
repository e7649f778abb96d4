import AnyCase.Form.Edit
import AnyCase.History
import AnyCase.Message.Reply
import AnyCase.Message.Request

/-!
# `View` — what a client shows of a panel

A view is built from the state that the daemon tells. What the user does is done in the view first, with
the rules of the form, and gives the request to send; a refused action leaves no trace. Replies bring
the view up to date (`View.receive`): the state replaces all that the daemon knows, and keeps what only
the client knows, which is the history and the labels being typed.

Nothing is persisted here. A view can be thrown away and built again at any time.
-/

namespace AnyCase

/-- What a client shows of a panel. -/
structure View where
  text : String
  sensitiveCase : Bool
  form : Form
  /-- By group: whether its elements were never stored. -/
  firstStart : Dict Bool
  history : History
  /-- By group: the label being typed for a new element. -/
  typed : Dict String
  deriving DecidableEq, Inhabited

/-- Whether the label being typed can be added. -/
inductive Availability
  | empty
  /-- An element of the group has that label. -/
  | duplicate
  | ready
  deriving DecidableEq, Repr

namespace View

/-! ## Building -/

/-- The view of a state. -/
def ofState (s : PanelState) : View where
  text := s.text
  sensitiveCase := s.sensitiveCase
  form := s.form
  firstStart := Dict.ofList (s.groups.map (fun g => (g.id, g.firstStart)))
  history := .empty
  typed := Dict.empty

/-- The view of another state, with what only the client knows. -/
def refresh (v : View) (s : PanelState) : View :=
  { ofState s with history := v.history, typed := v.typed }

/-- The view after a reply. -/
def receive (v : View) : Reply → View
  | .state s => v.refresh s
  | .history _ texts => { v with history := .ofList texts.length texts }
  | .focus | .reveal | .rejected _ => v

/-- The view after some replies. -/
def receiveAll (v : View) (replies : List Reply) : View := replies.foldl receive v

/-! ## Reading -/

/-- Whether the elements of a group were never stored. -/
def isFirstStart (v : View) (group : String) : Bool := (v.firstStart.get? group).getD false

/-- The first group that has an id or has a member with that id. -/
def ownerOf? (v : View) (id : String) : Option Group :=
  v.form.groups.find? (fun g => g.id = id || g.contains id)

/-- The main form: the values of all members of fixed groups. -/
def mainForm (v : View) : MainForm where
  text := v.text
  sensitiveCase := v.sensitiveCase
  checks := Dict.ofList ((v.form.groups.filter (!·.isDynamic)).flatMap Group.values)

/-- The label being typed for a group. -/
def typedLabel (v : View) (group : String) : String := (v.typed.get? group).getD ""

/-- Whether the label being typed for a group can be added to it. -/
def availability (v : View) (group : String) : Availability :=
  let label := v.typedLabel group
  if label = "" then .empty
  else if (v.form.group? group).any (·.hasLabel label) then .duplicate
  else .ready

/-! ## The main form -/

/-- Sets the text. -/
def enterText (v : View) (text : String) : Request × View :=
  let v' := { v with text }
  (.mainInstant v'.mainForm, v')

/-- Switches case sensitivity. -/
def switchSensitivity (v : View) : Request × View :=
  let v' := { v with sensitiveCase := !v.sensitiveCase }
  (.mainInstant v'.mainForm, v')

/-- Puts a text on top of the history, which is cut to a length. -/
def recordText (v : View) (text : String) (length : Nat) : Request × View :=
  let v' := { v with history := v.history.push length text }
  (.history (some Reply.textField) v'.history.entries, v')

/-- Toggles a checkbox; a main checkbox has the id of its group. -/
def toggle (v : View) (id : String) : Except Refusal (Request × View) :=
  match v.ownerOf? id with
  | none => .error (.noCheckbox id)
  | some g => do
    let v' := { v with form := ← v.form.toggle id }
    if g.isDynamic then
      let values := ((v'.form.group? g.id).map Group.values).getD []
      .ok (.edit g.id (.set (Dict.ofList values)), v')
    else .ok (.mainInstant v'.mainForm, v')

/-! ## Elements -/

/-- Types a label for a new element of a group. -/
def typeLabel (v : View) (group label : String) : View :=
  { v with typed := v.typed.insert group label }

/-- Adds the element being typed. Its label stays typed, so that it cannot be added twice in a row. -/
def add (v : View) (group : String) (selected : Bool) : Except Refusal (Request × View) :=
  let label := v.typedLabel group
  match v.availability group with
  | .empty => .error .nothingToAdd
  | .duplicate => .error (.alreadyThere label group)
  | .ready => do
    let (id, form) ← v.form.add? group label selected none
    .ok (.edit group (.add label selected (some id)), { v with form })

/-- Relabels and sets an element. -/
def amend (v : View) (group id label : String) (selected : Bool) :
    Except Refusal (Request × View) := do
  let form ← v.form.amend? group id label selected
  .ok (.edit group (.amend id label selected), { v with form })

/-- Removes an element. -/
def remove (v : View) (group id : String) : Except Refusal (Request × View) := do
  let (_, form) ← v.form.remove? group id
  .ok (.edit group (.remove id), { v with form })

/-- Reorders the elements of a group; the request names all of them. -/
def reorder (v : View) (group : String) (ids : List String) : Except Refusal (Request × View) := do
  let form ← v.form.reorder? group ids
  .ok (.edit group (.reorder (← form.order? group)), { v with form })

/-- An element of a list moved to a place, or to the end. -/
def moveTo (id : String) (place : Nat) (order : List String) : List String :=
  (order.erase id).insertIdx (min place (order.erase id).length) id

/-- Moves an element of a group to a place, or to the end. -/
def move (v : View) (group id : String) (place : Nat) : Except Refusal (Request × View) := do
  let order ← v.form.order? group
  if order.contains id then v.reorder group (moveTo id place order)
  else .error (.noElement group id)

end View

end AnyCase
