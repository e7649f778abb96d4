import AnyCase.Convention
import AnyCase.Dict
import AnyCase.Form.Rule

/-!
# `Settings.Basic` — settings and the changes a user makes to them

`Settings` has a value for every option. `Overrides` has the options that a user's file gives; applying
them (`Settings.override`) replaces those options, adds to the defaults of the conventions, and appends
the rules. A rule of a group with itself is refused (`Rule.fault?`).
-/

namespace AnyCase

/-! ## Types -/

/-- The values of the fixed checkboxes as long as none are stored. -/
structure Defaults where
  sensitiveCase : Bool
  beginWord : Bool
  endWord : Bool
  /-- By id of the convention. -/
  cases : Dict Bool
  deriving DecidableEq, Inhabited

/-- All options. -/
structure Settings where
  defaults : Defaults
  /-- The program that gets every search, with its arguments; searches are printed without one. -/
  searchCommand : Option (List String)
  /-- How many texts the history remembers. -/
  historyLength : Nat
  /-- The file of the persisted state. -/
  statePath : Option String
  rules : List Rule
  deriving DecidableEq, Inhabited

/-- The defaults that a user's file gives. -/
structure DefaultOverrides where
  sensitiveCase : Option Bool
  beginWord : Option Bool
  endWord : Option Bool
  cases : Dict Bool
  deriving DecidableEq, Inhabited

/-- The options that a user's file gives. The options of one section are absent together if the section
is. -/
structure Overrides where
  defaults : Option DefaultOverrides
  searchCommand : Option (Option (List String))
  historyLength : Option (Option Nat)
  statePath : Option (Option String)
  rules : Option (List Rule)
  deriving DecidableEq, Inhabited

/-- Why settings cannot be used. -/
inductive SettingsError
  | unreadable
  | malformed
  | invalidRule (rule reason : String)
  deriving DecidableEq, Repr

/-! ## Rules -/

/-- What is wrong with a rule of a group with itself. -/
def Rule.fault? : Rule → Option SettingsError
  | .exclusive a b =>
    if a = b then some (.invalidRule ("exclusive " ++ a ++ "/" ++ b) "a group cannot exclude itself")
    else none
  | .enabledWhenAny group target | .disabledWhenAny group target =>
    if group = target then
      some (.invalidRule (group ++ " on " ++ target) "a group cannot depend on itself")
    else none

namespace Defaults

/-- The default of a convention; one that is not mentioned is selected. -/
def case (d : Defaults) (id : String) : Bool := (d.cases.get? id).getD true

/-- The defaults with those of a user. -/
def override (d : Defaults) (u : DefaultOverrides) : Defaults where
  sensitiveCase := u.sensitiveCase.getD d.sensitiveCase
  beginWord := u.beginWord.getD d.beginWord
  endWord := u.endWord.getD d.endWord
  cases := d.cases.insertAll u.cases.toList

end Defaults

/-- No options at all. -/
def Overrides.empty : Overrides := ⟨none, none, none, none, none⟩

namespace Settings

/-- The settings without a user's file: every search is case sensitive and in every convention. -/
def standard : Settings where
  defaults := ⟨true, false, false, Dict.ofList (Convention.all.map (fun k => (k.id, true)))⟩
  searchCommand := none
  historyLength := 20
  statePath := none
  rules := []

/-- The settings, if none of their rules has a fault; the first fault otherwise. -/
def check (s : Settings) : Except SettingsError Settings :=
  match s.rules.findSome? Rule.fault? with
  | some e => .error e
  | none => .ok s

/-- The settings with those of a user. -/
def override (s : Settings) (u : Overrides) : Except SettingsError Settings :=
  check {
    defaults := (u.defaults.map s.defaults.override).getD s.defaults
    searchCommand := (u.searchCommand.getD none).or s.searchCommand
    historyLength := (u.historyLength.getD none).getD s.historyLength
    statePath := (u.statePath.getD none).or s.statePath
    rules := s.rules ++ u.rules.getD [] }

/-- The file of the persisted state, by default one in the directory for data. -/
def stateFile (s : Settings) (dataDirectory : String) : String :=
  s.statePath.getD (dataDirectory ++ "/case-search/state.json")

end Settings

/-- The error in words. -/
def SettingsError.message : SettingsError → String
  | unreadable => "cannot read configuration"
  | malformed => "cannot parse configuration"
  | invalidRule rule reason => "invalid rule " ++ rule ++ ": " ++ reason

end AnyCase
