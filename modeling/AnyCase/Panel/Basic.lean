import AnyCase.Form.Edit
import AnyCase.History
import AnyCase.Message.Request
import AnyCase.Message.Search
import AnyCase.Message.State
import AnyCase.Panel.Layout

/-!
# `Panel.Basic` — the open panel

A `Panel` is the state of an open panel together with the store in which it is persisted. It is
restored from a store (`Panel.restore`), changed by the main form, by the history and by edits of the
filters, and writes every change to the store.

Each change that may ask for a new search says so: the main form always does (`Panel.search`), an edit
when it matters for the files searched (`Panel.edit?`).
-/

namespace AnyCase

/-- The state of an open panel. -/
structure Panel where
  store : Store
  form : Form
  text : String
  sensitiveCase : Bool
  history : History
  /-- How many texts the history remembers. -/
  historyLength : Nat
  /-- The groups of filters whose elements were never stored. -/
  unstored : List String
  deriving Inhabited

namespace Panel

/-! ## Reading -/

/-- The filters of a group as one text; none if the group is disabled. -/
def filter (p : Panel) (group : String) : String :=
  match p.form.group? group with
  | some g => if g.enabled then g.filter else ""
  | none => ""

/-- The filters of the files to search in and of those to leave out. -/
def filters (p : Panel) : List String := Layout.filterGroups.map p.filter

/-- A filter as a search has it: the empty one is left out. -/
def filter? (p : Panel) (group : String) : Option String :=
  match p.filter group with
  | "" => none
  | filter => some filter

/-- The search that the panel describes. -/
def search (p : Panel) : Search :=
  let compiled := Layout.compile p.text p.form
  { query := compiled.pattern
    triggerSearch := true
    isRegex := true
    isCaseSensitive := p.sensitiveCase
    matchWholeWord := compiled.hostWholeWord
    filesToInclude := p.filter? Layout.included
    filesToExclude := p.filter? Layout.excluded }

/-- The panel as clients see it. -/
def state (p : Panel) : PanelState where
  text := p.text
  sensitiveCase := p.sensitiveCase
  groups := p.form.groups.map (fun g => .ofGroup g (p.unstored.contains g.id))
  rules := p.form.rules

/-! ## Persistence -/

/-- The panel with a key of its store set. -/
def record (p : Panel) (key : String) (v : Json) : Panel := { p with store := p.store.set key v }

/-- The panel with a key of its store deleted. -/
def forget (p : Panel) (key : String) : Panel := { p with store := p.store.delete key }

/-- Stores the values of checkboxes. -/
def saveAll (p : Panel) (members : List Checkbox) : Panel :=
  members.foldl (fun p c => p.record c.id (.bool c.selected)) p

/-- Stores the value of every member that differs from the one it had. -/
def saveChanges (p : Panel) (before : Dict Bool) : Panel :=
  p.saveAll ((p.form.groups.flatMap (·.members)).filter
    (fun c => before.get? c.id ≠ some c.selected))

/-- Stores the values of the members of a group. -/
def saveGroup (p : Panel) (group : String) : Panel :=
  match p.form.group? group with
  | some g => p.saveAll g.members
  | none => p

/-- Stores the ids of the elements of a group. -/
def saveOrder (p : Panel) (group : String) : Panel :=
  match p.form.group? group with
  | some g =>
    { p.record (Layout.elementsKey group) (Json.ofTexts g.order) with
      unstored := p.unstored.filter (· ≠ group) }
  | none => p

/-! ## Opening -/

/-- The panel of a store. The rules may have changed what was stored; this is stored again. -/
def restore (store : Store) (settings : Settings) : Panel :=
  let groups := Layout.groups store settings.defaults
  let p : Panel := {
    store
    form := Form.make groups settings.rules
    text := store.get Layout.textKey Json.text? ""
    sensitiveCase := store.get Layout.sensitiveKey Json.flag? settings.defaults.sensitiveCase
    history := History.ofList settings.historyLength (store.get Layout.historyKey Json.texts? [])
    historyLength := settings.historyLength
    unstored := Layout.unstored store }
  p.saveChanges (Dict.ofList (groups.flatMap Group.allValues))

/-! ## Changes -/

/-- Replaces the history. -/
def replaceHistory (p : Panel) (texts : List String) : Panel :=
  let history := History.ofList p.historyLength texts
  { p with history }.record Layout.historyKey (Json.ofTexts history.entries)

/-- Applies the main form; it is stored as a whole. -/
def submit (p : Panel) (main : MainForm) : Panel :=
  let p' := ({ p with text := main.text, sensitiveCase := main.sensitiveCase }.record
    Layout.textKey (.str main.text)).record Layout.sensitiveKey (.bool main.sensitiveCase)
  let p' := { p' with form := p.form.overwriteAll main.checks }
  (Layout.fixedGroups.foldl saveGroup p').saveChanges p.form.values

/-- Whether a search is due after an edit, before its effect on the filters is considered. -/
inductive Due
  /-- A search is due. -/
  | yes
  /-- A search is due if the filters are others now. -/
  | ifFiltersChanged
  /-- No search is due. -/
  | no
  deriving DecidableEq, Repr

/-- Makes an edit and stores its elements, but not yet the values that changed. Amending an element
matters only if it was selected before. -/
def change? (p : Panel) (group : String) : Edit → Except Refusal (Due × Panel)
  | .set values => do
    .ok (.yes, { p with form := ← p.form.setElements? group values })
  | .add label selected proposed => do
    let (id, form) ← p.form.add? group label selected proposed
    .ok (.yes, (({ p with form }).record (Layout.labelKey id) (.str label)).saveOrder group)
  | .amend id label selected => do
    let form ← p.form.amend? group id label selected
    let wasSelected := ((p.form.group? group).bind (·.member? id)).any (·.selected)
    .ok (if wasSelected then .yes else .no,
      { p with form }.record (Layout.labelKey id) (.str label))
  | .remove id => do
    let (removed, form) ← p.form.remove? group id
    .ok (if removed.selected then .yes else .ifFiltersChanged,
      (({ p with form }.forget id).forget (Layout.labelKey id)).saveOrder group)
  | .reorder ids => do
    let form ← p.form.reorder? group ids
    .ok (.ifFiltersChanged, { p with form }.saveOrder group)

/-- Makes an edit and tells whether to search again. -/
def edit? (p : Panel) (group : String) (e : Edit) : Except Refusal (Bool × Panel) := do
  let (due, p') ← p.change? group e
  let p' := p'.saveChanges p.form.values
  .ok (match due with
    | .yes => true
    | .ifFiltersChanged => p'.filters ≠ p.filters
    | .no => false, p')

end Panel

end AnyCase
