import AnyCase.Message.Rule
import AnyCase.Settings.Basic
import AnyCase.Toml.Reader

/-!
# `Settings.Reader` — settings files

A settings file is a TOML document with the sections `defaults`, `search`, `history` and `state` and
the list `rules`. Names that no option has are ignored. A user's file (`Overrides.read?`) may leave out
any option; a complete file (`Settings.read`) must have the four sections, the three defaults of the
form and the length of the history.

A section may also be written as an array of its options in order.
-/

namespace AnyCase

/-! ## Options -/

namespace Settings

/-- A length: a whole number that is not negative. -/
def length? (v : Json) : Option Nat :=
  match v with
  | .int (.ofNat n) => some n
  | _ => none

/-- The rules of a list. -/
def rules? : Json → Option (List Rule)
  | .arr items => items.mapM (Rule.ofJson? false)
  | _ => none

/-- An option that may be left out of a section, unless the section is written as an array. -/
def optional? {α : Type} (fields : Json.Fields) (place : Nat) (name : String)
    (read : Json → Option α) : Option (Option α) :=
  match fields with
  | .named _ => fields.get? place name (Json.optional? read) (some none)
  | .listed _ => fields.need? place name (Json.optional? read)

/-- The section for the search program. -/
def searchOptions? (v : Json) : Option (Option (List String)) := do
  optional? (← Json.fields? v) 0 "command" Json.texts?

/-- The section for the persisted state. -/
def stateOptions? (v : Json) : Option (Option String) := do
  optional? (← Json.fields? v) 0 "path" Json.text?

end Settings

open Settings

/-! ## A user's file -/

/-- The defaults of a user's file. -/
def DefaultOverrides.ofJson? (v : Json) : Option DefaultOverrides := do
  let fields ← Json.fields? v
  let sensitiveCase ← optional? fields 0 "sensitive_case" Json.flag?
  let beginWord ← optional? fields 1 "begin_word" Json.flag?
  let endWord ← optional? fields 2 "end_word" Json.flag?
  let cases ← fields.get? 3 "cases" Json.flags? (some Dict.empty)
  some ⟨sensitiveCase, beginWord, endWord, cases⟩

/-- The options of a user's file. -/
def Overrides.ofJson? (v : Json) : Option Overrides := do
  let fields ← Json.fields? v
  let defaults ← optional? fields 0 "defaults" DefaultOverrides.ofJson?
  let searchCommand ← optional? fields 1 "search" searchOptions?
  let historyLength ← optional? fields 2 "history"
    (fun v => do optional? (← Json.fields? v) 0 "max_len" length?)
  let statePath ← optional? fields 3 "state" stateOptions?
  let rules ← optional? fields 4 "rules" rules?
  some ⟨defaults, searchCommand, historyLength, statePath, rules⟩

/-- The options of the text of a user's file. -/
def Overrides.read? (text : String) : Option Overrides := (Toml.read? text).bind Overrides.ofJson?

/-! ## A complete file -/

/-- The defaults of a complete file. -/
def Defaults.ofJson? (v : Json) : Option Defaults := do
  let fields ← Json.fields? v
  let sensitiveCase ← fields.need? 0 "sensitive_case" Json.flag?
  let beginWord ← fields.need? 1 "begin_word" Json.flag?
  let endWord ← fields.need? 2 "end_word" Json.flag?
  let cases ← fields.get? 3 "cases" Json.flags? (some Dict.empty)
  some ⟨sensitiveCase, beginWord, endWord, cases⟩

/-- The options of a complete file. -/
def Settings.ofJson? (v : Json) : Option Settings := do
  let fields ← Json.fields? v
  let defaults ← fields.need? 0 "defaults" Defaults.ofJson?
  let searchCommand ← fields.need? 1 "search" searchOptions?
  let historyLength ← fields.need? 2 "history"
    (fun v => do (← Json.fields? v).need? 0 "max_len" length?)
  let statePath ← fields.need? 3 "state" stateOptions?
  let rules ← fields.get? 4 "rules" rules? (some [])
  some ⟨defaults, searchCommand, historyLength, statePath, rules⟩

/-- The settings of the text of a complete file. -/
def Settings.read (text : Option String) : Except SettingsError Settings :=
  match text with
  | none => .error .unreadable
  | some text =>
    match (Toml.read? text).bind Settings.ofJson? with
    | some s => s.check
    | none => .error .malformed

/-- The options of a user's file, which has to be there. -/
def Overrides.read (text : Option String) : Except SettingsError Overrides :=
  match text with
  | none => .error .unreadable
  | some text => (Overrides.read? text).elim (.error .malformed) .ok

/-- The standard settings with those of a user's file; a file that is missing or malformed counts for
nothing. -/
def Settings.load (text : Option String) : Except SettingsError Settings :=
  Settings.standard.override ((text.bind Overrides.read?).getD Overrides.empty)

end AnyCase
