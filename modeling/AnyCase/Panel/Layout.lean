import AnyCase.Convention
import AnyCase.Form.Basic
import AnyCase.Pattern
import AnyCase.Settings.Basic
import AnyCase.Store

/-!
# `Panel.Layout` — the groups of a panel and how they are stored

A panel has four groups: the conventions and the word edges are fixed, the files to search in and the
files to leave out are lists of filters that the user makes. The store has

* a boolean per member under its id;
* per group of filters, the list of its elements (`elementsKey`) and a label per element (`labelKey`);
* the text, case sensitivity and the history.

Main checkboxes follow their members and are not stored.
-/

namespace AnyCase.Layout

/-! ## Names -/

/-- The group of the conventions. -/
def conventions : String := "case"

/-- The group of the word edges. -/
def edges : String := "word"

/-- The checkbox for the edge at the start of a word. -/
def startEdge : String := "beginWord"

/-- The checkbox for the edge at the end of a word. -/
def endEdge : String := "endWord"

/-- The filters of the files to search in. -/
def included : String := "filesToInclude"

/-- The filters of the files not to search in. -/
def excluded : String := "filesToExclude"

/-- The groups that the main form carries. -/
def fixedGroups : List String := [conventions, edges]

/-- The groups of filters. -/
def filterGroups : List String := [included, excluded]

/-- The key of the text. -/
def textKey : String := "text"

/-- The key of case sensitivity. -/
def sensitiveKey : String := "sensitiveCase"

/-- The key of the history. -/
def historyKey : String := "textToSearchHistory"

/-- The key of the ids of the elements of a group, in order. -/
def elementsKey (group : String) : String := group ++ "Elts"

/-- The key of the label of an element. -/
def labelKey (id : String) : String := id ++ "-label"

/-! ## Groups from a store -/

/-- The group of the conventions. -/
def conventionGroup (store : Store) (defaults : Defaults) : Group :=
  Group.fixed conventions (some "All") <| Convention.all.map fun k =>
    ⟨k.id, k.label, store.get k.id Json.flag? (defaults.case k.id), false⟩

/-- The group of the word edges. -/
def edgeGroup (store : Store) (defaults : Defaults) : Group :=
  Group.fixed edges (some "Whole word")
    [⟨startEdge, "Begin word", store.get startEdge Json.flag? defaults.beginWord, false⟩,
      ⟨endEdge, "End word", store.get endEdge Json.flag? defaults.endWord, false⟩]

/-- The stored element with an id; one without a label is none. -/
def element? (store : Store) (id : String) : Option Checkbox :=
  match store.get (labelKey id) Json.text? "" with
  | "" => none
  | label => some ⟨id, label, store.get id Json.flag? false, true⟩

/-- The group of filters with an id. -/
def filterGroup (store : Store) (group : String) : Group :=
  Group.dynamic group (some "All")
    ((store.get (elementsKey group) Json.texts? []).filterMap (element? store))

/-- The groups as they are stored; what is not stored has its default. -/
def groups (store : Store) (defaults : Defaults) : List Group :=
  conventionGroup store defaults :: edgeGroup store defaults :: filterGroups.map (filterGroup store)

/-- The groups of filters whose elements were never stored. -/
def unstored (store : Store) : List String :=
  filterGroups.filter (fun group => !store.contains (elementsKey group))

/-! ## The pattern of a form -/

/-- The conventions in which a form asks to search, in the order of the panel. -/
def selectedConventions (form : Form) : List Convention :=
  Convention.all.filter (fun k => form.isEffective k.id)

/-- The word edges that a form asks for. -/
def selectedEdges (form : Form) : Edges := ⟨form.isEffective startEdge, form.isEffective endEdge⟩

/-- The pattern of a text, as a form asks for it. -/
def compile (text : String) (form : Form) : Compiled :=
  Pattern.compile text (selectedConventions form) (selectedEdges form)

end AnyCase.Layout
