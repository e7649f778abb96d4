/-!
# `Form.Refusal` — why a change is refused

A refused change changes nothing. `Refusal.message` has the words for the user; refusals of values that
break a rule of the form, rather than of names that stand for nothing, say so (`Refusal.reason?`).
-/

namespace AnyCase

/-- Why a change is refused. -/
inductive Refusal
  | noElement (group id : String)
  | noCheckbox (id : String)
  | noGroup (group : String)
  | notDynamic (group : String)
  /-- A new element of the group would have an empty label. -/
  | unlabelled (group : String)
  /-- The label of the element is not editable. -/
  | labelFixed (id : String)
  /-- The element would get an empty label. -/
  | labelEmptied (id : String)
  /-- The checkbox belongs to a disabled group. -/
  | disabled (id group : String)
  /-- The members of a disabled group would be set. -/
  | disabledMembers (group : String)
  /-- No label was entered. -/
  | nothingToAdd
  /-- The group has an element with the label already. -/
  | alreadyThere (label group : String)
  deriving DecidableEq, Repr

namespace Refusal

/-- Which rule of the form a refused value breaks; none for names that stand for nothing. -/
def reason? : Refusal → Option String
  | noElement .. | noCheckbox _ | noGroup _ | notDynamic _ => none
  | unlabelled group => some ("cannot add an element with an empty label to " ++ group)
  | labelFixed id => some (id ++ " cannot be relabeled")
  | labelEmptied id => some ("cannot give an empty label to " ++ id)
  | disabled id group => some (id ++ " belongs to the disabled group " ++ group)
  | disabledMembers group => some ("cannot set members of the disabled group " ++ group)
  | nothingToAdd => some "nothing to add"
  | alreadyThere label group => some (label ++ " is already in " ++ group)

/-- The refusal in words. -/
def message (r : Refusal) : String :=
  match r with
  | noElement group id => "no element " ++ id ++ " in group " ++ group
  | noCheckbox id => "no checkbox " ++ id
  | noGroup group => "no group " ++ group
  | notDynamic group =>
    "group " ++ group ++ " does not support adding, removing or reordering elements"
  | r => "rejected: " ++ r.reason?.getD ""

end Refusal

end AnyCase
