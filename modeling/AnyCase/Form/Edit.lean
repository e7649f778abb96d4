import AnyCase.Form.Basic

/-!
# `Form.Edit` — changes to the elements of dynamic groups

The elements of a dynamic group are set, added, amended, removed and arranged by the user. An `Edit`
says what is asked for; the operations here make the change in a form and evaluate the rules after it.
Each is made as a whole or refused.

The daemon and its clients make their changes with the same operations, so a client that knows the
state of the daemon foresees the outcome.
-/

namespace AnyCase

/-- A change to the elements of a dynamic group. -/
inductive Edit
  /-- Set elements. -/
  | set (values : Dict Bool)
  /-- Add an element, with the proposed id if that can be taken. -/
  | add (label : String) (selected : Bool) (proposed : Option String)
  /-- Relabel and set an element. -/
  | amend (id label : String) (selected : Bool)
  /-- Remove an element. -/
  | remove (id : String)
  /-- Move the named elements to the front, in that order. -/
  | reorder (ids : List String)
  deriving DecidableEq

namespace Form

/-- The dynamic group with an id. -/
def dynamic? (f : Form) (group : String) : Except Refusal Group :=
  match f.group? group with
  | none => .error (.noGroup group)
  | some g => if g.isDynamic then .ok g else .error (.notDynamic group)

/-- The form with another group in the place of the one that has its id. -/
def replace (f : Form) (g : Group) : Form := f.modifyGroup g.id (fun _ => g)

/-- Sets elements of a group, all or none of them. The main checkbox follows, so a value for it is left
out. -/
def setElements? (f : Form) (group : String) (values : Dict Bool) : Except Refusal Form := do
  let g ← f.dynamic? group
  let given := values.toList.filter (fun e => e.1 ≠ group)
  if !g.enabled then .error (.disabledMembers group)
  else .ok ((f.replace (← g.setEach? given)).reconcile group (given.any (·.2)))

/-- Adds an element to a group and returns its id. -/
def add? (f : Form) (group label : String) (selected : Bool) (proposed : Option String) :
    Except Refusal (String × Form) := do
  let g ← f.dynamic? group
  let (id, g') ← g.add? label selected proposed
  .ok (id, (f.replace g').reconcile group selected)

/-- Relabels and sets an element of a group. -/
def amend? (f : Form) (group id label : String) (selected : Bool) : Except Refusal Form := do
  let g ← f.dynamic? group
  let g' ← (← g.relabel? id label).set? id selected
  .ok ((f.replace g').reconcile group selected)

/-- Removes an element from a group and returns it. -/
def remove? (f : Form) (group id : String) : Except Refusal (Checkbox × Form) := do
  let g ← f.dynamic? group
  let (c, g') ← g.remove? id
  .ok (c, (f.replace g').reconcile group false)

/-- Reorders the elements of a group; no rule depends on their order. -/
def reorder? (f : Form) (group : String) (ids : List String) : Except Refusal Form := do
  let g ← f.dynamic? group
  .ok (f.replace (← g.reorder? ids))

/-- The ids of the elements of a group, in order. -/
def order? (f : Form) (group : String) : Except Refusal (List String) :=
  match f.group? group with
  | none => .error (.noGroup group)
  | some g => .ok g.order

end Form

end AnyCase
