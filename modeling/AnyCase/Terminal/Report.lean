import AnyCase.Panel.Layout
import AnyCase.Terminal.Section
import AnyCase.View

/-!
# `Terminal.Report` — a panel on the terminal

A panel is shown as a section for the main form and one for each group; the history has a section of its
own.
-/

namespace AnyCase.Report

open Terminal

/-- The section of the main form. The program compiles the pattern twice: here from what the view knows, to show it, and
in the daemon from the panel, to search for it. Both are the same expression in the text, the conventions and the
edges, and `Layout.compile` stands for both. -/
def search (v : View) (withPattern : Bool) : Section where
  title := .plain "Search"
  fields :=
    [.entry (.colored .blue "Text") (.one (.colored .green v.text)) 0,
      .status (.checkbox v.sensitiveCase true) (.one (.plain "Case sensitive (sensitiveCase)")) 0]
    ++ if withPattern then
      [.entry (.colored .blue "Pattern") (.one (.colored .cyan (Layout.compile v.text v.form).pattern)) 0]
    else []

/-- The title of a group: its id and its main checkbox. -/
def title (mode : Mode) (g : Group) : String :=
  match g.main with
  | some main =>
    g.id ++ " " ++ (Icon.checkbox main.selected g.enabled).render mode ++ " " ++ main.label
  | none => g.id

/-- A member of a fixed group. -/
def memberField (mode : Mode) (g : Group) (c : Checkbox) : Field :=
  .status (.checkbox c.selected g.enabled)
    (.one (.plain (c.label ++ " " ++ (Styled.colored .black ("(" ++ c.id ++ ")")).render mode))) 0

/-- The elements of a dynamic group with their places. -/
def elementTable (g : Group) : Table where
  header := ["#", "", "Id", "Label"].map (fun title => .of (.ofBold title))
  rows := g.members.zipIdx.map fun (c, i) =>
    [.of (.colored .black (String.ofList (Decimal.numeral i))),
      .of (Icon.checkbox c.selected g.enabled).styled,
      .of (.plain c.id), .of (.colored .green c.label)]

/-- What is said of a dynamic group without elements. -/
def emptyHint (mode : Mode) (v : View) (g : Group) : String :=
  if v.isFirstStart g.id then
    "nothing yet; add a filter with "
      ++ (Styled.ofBold ("csctl add " ++ g.id ++ " <glob>")).render mode
  else "empty"

/-- The elements of a dynamic group, and the filter they make. -/
def elementFields (mode : Mode) (v : View) (g : Group) : List Field :=
  if g.members.isEmpty then [.status .info (.one (.plain (emptyHint mode v g))) 0]
  else
    .table (elementTable g) ::
      (if g.filter = "" then []
      else [.entry (.colored .blue "Filter") (.one (.colored .cyan g.filter)) 0])

/-- The warning that the label being typed is there already. -/
def duplicateFields (v : View) (g : Group) : List Field :=
  if v.availability g.id = .duplicate then
    [.status .warning (.one (.plain (v.typedLabel g.id ++ " is already in the group"))) 0]
  else []

/-- The section of a group. -/
def group (mode : Mode) (v : View) (g : Group) : Section where
  title := .plain (title mode g)
  fields :=
    if g.isDynamic then elementFields mode v g ++ duplicateFields v g
    else g.members.map (memberField mode g)

/-- The sections of a panel. -/
def sections (mode : Mode) (v : View) (withPattern : Bool) : List Section :=
  search v withPattern :: v.form.groups.map (group mode v)

/-- The section of the history. -/
def history (v : View) : Section where
  title := .plain "History"
  fields := [.entry (.colored .blue "Texts") (.list (v.history.entries.map (.colored .green))) 0]

/-- A panel as it is printed. -/
def panel (mode : Mode) (v : View) (withPattern : Bool) : String :=
  "".intercalate ((sections mode v withPattern).map (·.render mode))

/-- The section of one message. -/
def status (icon : Icon) (message : String) : Section where
  title := .plain "csctl"
  fields := [.status icon (.one (.plain message)) 0]

end AnyCase.Report
