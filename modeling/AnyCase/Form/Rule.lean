/-!
# `Form.Rule` — rules between groups

Rules are declared in the settings and evaluated after every change of a form. They name groups by id.
-/

namespace AnyCase

/-- A rule between two groups. -/
inductive Rule
  /-- A selection in one of the groups unselects the other one. -/
  | exclusive (a b : String)
  /-- `group` is enabled only while something in `target` is selected. -/
  | enabledWhenAny (group target : String)
  /-- `group` is disabled while something in `target` is selected. -/
  | disabledWhenAny (group target : String)
  deriving DecidableEq, Repr

namespace Rule

/-- The groups that a rule names. -/
def groups : Rule → List String
  | exclusive a b => [a, b]
  | enabledWhenAny group target | disabledWhenAny group target => [group, target]

/-- The group that a selection in `group` unselects, if the rule is an exclusion of it. -/
def rivalOf (group : String) : Rule → Option String
  | exclusive a b => if a = group then some b else if b = group then some a else none
  | _ => none

/-- Whether a rule lets `group` be enabled, when `any` says which groups have a selected member. -/
def allows (any : String → Bool) (group : String) : Rule → Bool
  | enabledWhenAny g target => if g = group then any target else true
  | disabledWhenAny g target => if g = group then !any target else true
  | exclusive .. => true

end Rule

end AnyCase
