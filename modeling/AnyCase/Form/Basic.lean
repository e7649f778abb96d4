import AnyCase.Dict
import AnyCase.Form.Group
import AnyCase.Form.Rule

/-!
# `Form.Basic` — forms

A form holds groups of checkboxes and the rules between them. After every change the rules are
evaluated in three phases:

1. exclusion — what the changed group excludes is unselected (`unselect`);
2. aggregation — main checkboxes are recomputed (`aggregate`), after exclusion may have changed members;
3. enablement — groups that depend on the selection in others are enabled or disabled (`enable`).

`Form.reconcile` does so knowing which group was changed; that group wins its exclusions.
`Form.settle` does so without knowing: of two groups that exclude each other, the one that the rule
names first wins.

Groups are named by id. Where several have one id, the first one is meant.
-/

namespace AnyCase

/-- Groups of checkboxes and the rules between them. -/
structure Form where
  groups : List Group
  rules : List Rule
  deriving DecidableEq, Repr, Inhabited

/-- What an id stands for in a group. -/
inductive Spot
  | main
  | member
  deriving DecidableEq, Repr

/-- Where a checkbox is: the place of its group and what it is there. -/
structure Location where
  place : Nat
  group : Group
  spot : Spot
  deriving DecidableEq, Repr

/-- What an id stands for in a group: the main checkbox has the id of the group. -/
def Group.spot? (g : Group) (id : String) : Option Spot :=
  if g.id = id && g.main.isSome then some .main
  else if g.contains id then some .member
  else none

namespace Form

/-! ## Reading -/

/-- The group with an id. -/
def group? (f : Form) (id : String) : Option Group := f.groups.find? (fun g => g.id = id)

/-- The first place in a list of groups where an id stands for a checkbox. -/
def locateIn (id : String) : List Group → Option Location
  | [] => none
  | g :: rest =>
    match g.spot? id with
    | some spot => some ⟨0, g, spot⟩
    | none => (locateIn id rest).map (fun l => { l with place := l.place + 1 })

/-- Where the checkbox with an id is. -/
def locate? (f : Form) (id : String) : Option Location := locateIn id f.groups

/-- The value of a checkbox. -/
def value? (f : Form) (id : String) : Option Bool :=
  match f.locate? id with
  | some ⟨_, g, .main⟩ => g.main.map (·.selected)
  | some ⟨_, g, .member⟩ => (g.member? id).map (·.selected)
  | none => none

/-- Whether a member is selected and its group is enabled. -/
def isEffective (f : Form) (id : String) : Bool :=
  match f.locate? id with
  | some ⟨_, g, .member⟩ => g.enabled && (g.member? id).any (·.selected)
  | _ => false

/-- Whether a member of a group is selected. -/
def hasSelection (f : Form) (group : String) : Bool := (f.group? group).any Group.hasSelection

/-- The values of all checkboxes, main checkboxes under the id of their group. -/
def values (f : Form) : Dict Bool := Dict.ofList (f.groups.flatMap Group.allValues)

/-! ## Evaluating the rules -/

/-- The form with the group of an id changed. -/
def modifyGroup (f : Form) (id : String) (change : Group → Group) : Form :=
  { f with groups := modifyFirst (fun g => g.id = id) change f.groups }

/-- The form with all members of the given groups unselected. -/
def unselect (f : Form) (ids : List String) : Form :=
  ids.foldl (fun f id => f.modifyGroup id (fun g => g.setAll false)) f

/-- The form with all main checkboxes recomputed. -/
def aggregate (f : Form) : Form := { f with groups := f.groups.map Group.aggregate }

/-- The form with all groups enabled or disabled as the rules say. -/
def enable (f : Form) : Form :=
  { f with
    groups := f.groups.map fun g =>
      { g with enabled := f.rules.all (Rule.allows f.hasSelection g.id) } }

/-- Evaluates the rules after something in `group` was set to `selected`. -/
def reconcile (f : Form) (group : String) (selected : Bool) : Form :=
  let f' := if selected then f.unselect (f.rules.filterMap (Rule.rivalOf group)) else f
  f'.aggregate.enable

/-- The groups that lose an exclusion: both sides have a selected member, and they are named second. -/
def losers (f : Form) : List String :=
  f.rules.filterMap fun rule =>
    match rule with
    | .exclusive a b => if f.hasSelection a && f.hasSelection b then some b else none
    | _ => none

/-- Evaluates the rules without knowing what was changed. -/
def settle (f : Form) : Form := (f.unselect f.losers).aggregate.enable

/-- The form of some groups, with the rules between groups it has, evaluated. -/
def make (groups : List Group) (rules : List Rule) : Form :=
  let known := rules.filter (fun rule => rule.groups.all (fun id => groups.any (fun g => g.id = id)))
  settle ⟨groups, known⟩

/-! ## Changing values -/

/-- Sets a checkbox; the main checkbox of a group sets all of its members. -/
def set (f : Form) (id : String) (selected : Bool) : Except Refusal Form :=
  match f.locate? id with
  | none => .error (.noCheckbox id)
  | some ⟨place, g, spot⟩ =>
    if !g.enabled then .error (.disabled id g.id)
    else do
      let g' ← match spot with
        | .main => pure (g.setAll selected)
        | .member => g.set? id selected
      pure ({ f with groups := f.groups.set place g' }.reconcile g.id g'.hasSelection)

/-- Sets a checkbox to the other value. -/
def toggle (f : Form) (id : String) : Except Refusal Form :=
  match f.value? id with
  | none => .error (.noCheckbox id)
  | some selected => f.set id !selected

/-- Sets all members of a group, enabled or not. -/
def setGroup (f : Form) (group : String) (selected : Bool) : Except Refusal Form :=
  match f.group? group with
  | none => .error (.noGroup group)
  | some g =>
    let g' := g.setAll selected
    .ok ((f.modifyGroup group (fun g => g.setAll selected)).reconcile group g'.hasSelection)

/-- Overwrites one member; main checkboxes follow their members, so their ids are left out, as are ids
that stand for nothing. -/
def overwrite (f : Form) (id : String) (selected : Bool) : Form :=
  match f.locate? id with
  | some ⟨place, g, .member⟩ =>
    match g.set? id selected with
    | .ok g' => { f with groups := f.groups.set place g' }
    | .error _ => f
  | _ => f

/-- Overwrites the values of members, then evaluates the rules. -/
def overwriteAll (f : Form) (values : Dict Bool) : Form :=
  (values.toList.foldl (fun f e => f.overwrite e.1 e.2) f).settle

end Form

end AnyCase
