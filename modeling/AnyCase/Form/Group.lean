import AnyCase.Form.Numbering
import AnyCase.Form.Refusal

/-!
# `Form.Group` — groups of checkboxes

A group is an ordered list of checkboxes. Its main checkbox, if it has one, is selected exactly when the
group has members and all of them are (`Group.aggregate`). The members of a fixed group are given once;
those of a dynamic group are added, removed, relabelled and reordered by the user, and numbered by a
`Numbering`.

## Contents

* `Checkbox`, `Main`, `Group` — the types;
* `set?`, `setEach?`, `setAll`, `add?`, `remove?`, `relabel?`, `reorder?` — the changes, each of which is made as a
  whole or refused;
* `filter` — the labels of the selected members, as the search program gets them.
-/

namespace AnyCase

/-! ## Lists -/

/-- A list with the first element that satisfies `p` replaced by its image. -/
def modifyFirst {α : Type} (p : α → Bool) (f : α → α) : List α → List α
  | [] => []
  | x :: rest => if p x then f x :: rest else x :: modifyFirst p f rest

/-! ## Types -/

/-- An option that is selected or not. -/
structure Checkbox where
  id : String
  label : String
  selected : Bool
  /-- Whether the user may change the label. -/
  editable : Bool
  deriving DecidableEq, Repr, Inhabited

/-- The checkbox that stands for all members of a group. -/
structure Main where
  label : String
  selected : Bool
  deriving DecidableEq, Repr, Inhabited

/-- A group of checkboxes. -/
structure Group where
  id : String
  main : Option Main
  members : List Checkbox
  enabled : Bool
  /-- The numbers of the elements of a dynamic group; a fixed group has none. -/
  numbering : Option Numbering
  deriving DecidableEq, Repr, Inhabited

namespace Group

/-! ## Reading -/

/-- Whether members come and go. -/
def isDynamic (g : Group) : Bool := g.numbering.isSome

/-- The member with an id. -/
def member? (g : Group) (id : String) : Option Checkbox := g.members.find? (fun c => c.id = id)

/-- Whether a member has an id. -/
def contains (g : Group) (id : String) : Bool := (g.member? id).isSome

/-- Whether a member has a label. -/
def hasLabel (g : Group) (label : String) : Bool := g.members.any (fun c => c.label = label)

/-- Whether a member is selected. -/
def hasSelection (g : Group) : Bool := g.members.any (·.selected)

/-- Whether the group has members and all of them are selected. -/
def allSelected (g : Group) : Bool := !g.members.isEmpty && g.members.all (·.selected)

/-- The ids of the members, in order. -/
def order (g : Group) : List String := g.members.map (·.id)

/-- The labels of the selected members, in order, separated by commas. -/
def filter (g : Group) : String :=
  ",".intercalate ((g.members.filter (·.selected)).map (·.label))

/-- The values of the members. -/
def values (g : Group) : List (String × Bool) := g.members.map (fun c => (c.id, c.selected))

/-- The values of all checkboxes; that of the main checkbox stands first, under the id of the group. -/
def allValues (g : Group) : List (String × Bool) :=
  (g.main.map (fun m => (g.id, m.selected))).toList ++ g.values

/-! ## Building -/

/-- The group with its main checkbox recomputed. -/
def aggregate (g : Group) : Group :=
  { g with main := g.main.map (fun m => { m with selected := g.allSelected }) }

/-- An enabled group; its main checkbox has the given label. -/
def make (id : String) (mainLabel : Option String) (members : List Checkbox)
    (numbering : Option Numbering) : Group :=
  aggregate ⟨id, mainLabel.map (fun label => ⟨label, false⟩), members, true, numbering⟩

/-- A group whose members never change. -/
def fixed (id : String) (mainLabel : Option String) (members : List Checkbox) : Group :=
  make id mainLabel members none

/-- A group whose members come and go; new elements are numbered after the given ones. -/
def dynamic (id : String) (mainLabel : Option String) (members : List Checkbox) : Group :=
  make id mainLabel members (some (Numbering.after id (members.map (·.id))))

/-! ## Changing values -/

/-- The group with the member of an id changed; `f` must not change what the main checkbox depends on,
or is followed by `aggregate`. -/
def modifyMember (g : Group) (id : String) (f : Checkbox → Checkbox) : Group :=
  { g with members := modifyFirst (fun c => c.id = id) f g.members }

/-- Sets one member. -/
def set? (g : Group) (id : String) (selected : Bool) : Except Refusal Group :=
  if g.contains id then
    .ok (g.modifyMember id (fun c => { c with selected := selected })).aggregate
  else .error (.noElement g.id id)

/-- Sets members one after the other, all or none of them: that they are all there is checked before the first
one is set. -/
def setEach? (g : Group) (given : List (String × Bool)) : Except Refusal Group :=
  match given.find? (fun e => !g.contains e.1) with
  | some e => .error (.noElement g.id e.1)
  | none => given.foldlM (fun g e => g.set? e.1 e.2) g

/-- Sets all members. -/
def setAll (g : Group) (selected : Bool) : Group :=
  aggregate { g with members := g.members.map (fun c => { c with selected := selected }) }

/-! ## Changing members -/

/-- Appends an element with a label and returns its id, which is the proposed one if that can be
taken. -/
def add? (g : Group) (label : String) (selected : Bool) (proposed : Option String) :
    Except Refusal (String × Group) :=
  match g.numbering with
  | none => .error (.notDynamic g.id)
  | some numbering =>
    if label = "" then .error (.unlabelled g.id)
    else
      let (id, numbering') := numbering.issue g.id proposed
      .ok (id, aggregate { g with
        members := g.members ++ [⟨id, label, selected, true⟩]
        numbering := some numbering' })

/-- Removes a member and returns it. -/
def remove? (g : Group) (id : String) : Except Refusal (Checkbox × Group) :=
  if g.isDynamic then
    match g.member? id with
    | none => .error (.noElement g.id id)
    | some c => .ok (c, aggregate { g with members := g.members.eraseP (fun c => c.id = id) })
  else .error (.notDynamic g.id)

/-- Gives a member another label. -/
def relabel? (g : Group) (id label : String) : Except Refusal Group :=
  match g.member? id with
  | none => .error (.noElement g.id id)
  | some c =>
    if !c.editable then .error (.labelFixed id)
    else if label = "" then .error (.labelEmptied id)
    else .ok (g.modifyMember id (fun c => { c with label := label }))

/-- The members with the given ids taken out one after the other, followed by those that are left. -/
def drawFirst : List String → List Checkbox → List Checkbox
  | [], rest => rest
  | id :: ids, rest =>
    match rest.find? (fun c => c.id = id) with
    | some c => c :: drawFirst ids (rest.eraseP (fun c => c.id = id))
    | none => drawFirst ids rest

/-- Moves the members with the given ids to the front, in that order; the others follow in the order
they had. -/
def reorder? (g : Group) (ids : List String) : Except Refusal Group :=
  if g.isDynamic then
    match ids.find? (fun id => !g.contains id) with
    | some id => .error (.noElement g.id id)
    | none => .ok { g with members := drawFirst ids g.members }
  else .error (.notDynamic g.id)

end Group

end AnyCase
