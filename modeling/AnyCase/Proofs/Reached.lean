import AnyCase.Proofs.Restore

/-!
# `Proofs.Reached` — every panel that is ever open

A panel is opened on a store without values, changed by any operations, closed, and opened again under any
settings: `Panel.Reached` is the panels that come about so, each with the trail of the panels before it. A panel
is intact and numbers its elements above those it has (`Reached.intact`), as long as no element on the trail has
the last number. After that the numbering starts over, and two elements may have one id.

Two results follow. Closing a panel and opening it again under the same settings changes nothing that a
client or the search program sees, nor the store (`reopened_panel_eq`). And the form is always in order
(`reached_form_in_order`): main checkboxes, exclusions and enablement agree with the values, and the ids of
all checkboxes are distinct.
-/

namespace AnyCase

/-! ## What clients and searches see -/

namespace Form

/-- Numbers have no part in where a checkbox is. -/
theorem locateIn_unnumbered (id : String) (groups : List Group) :
    locateIn id (groups.map Group.unnumbered)
      = (locateIn id groups).map fun l => { l with group := l.group.unnumbered } := by
  induction groups with
  | nil => rfl
  | cons g rest ih =>
    have hspot : g.unnumbered.spot? id = g.spot? id := rfl
    rw [List.map_cons, locateIn, locateIn, hspot, ih]
    cases g.spot? id with
    | some spot => rfl
    | none => cases locateIn id rest <;> rfl

theorem isEffective_unnumbered (f : Form) (id : String) : f.unnumbered.isEffective id = f.isEffective id := by
  have hlocate := locateIn_unnumbered id f.groups
  unfold isEffective locate?
  rw [show f.unnumbered.groups = f.groups.map Group.unnumbered from rfl, hlocate]
  cases locateIn id f.groups with
  | none => rfl
  | some l =>
    obtain ⟨place, g, spot⟩ := l
    cases spot <;> rfl

/-- The groups of a form, told as those of a state. -/
def contents (f : Form) : List GroupState := f.groups.map fun g => GroupState.ofGroup g false

/-- The selection of a group is told by its contents. -/
theorem hasSelection_of_contents {f f' : Form} (h : f.contents = f'.contents) (x : String) :
    f.hasSelection x = f'.hasSelection x := by
  have hread : ∀ f : Form, f.hasSelection x
      = (f.contents.find? (fun g => g.id = x)).any (fun g => g.members.any (·.selected)) := by
    intro f
    rw [contents, List.find?_map, Option.any_map]
    rfl
  rw [hread, hread, h]

end Form

/-- The groups of a state, but for what only the daemon knows, which is whether their elements were ever
stored. -/
def PanelState.contents (s : PanelState) : List GroupState := s.groups.map fun g => { g with firstStart := false }

namespace Panel

open Layout

variable {settings : Settings} {p q : Panel}

/-- Numbers have no part in the states of groups. -/
theorem groupStates_unnumbered (f : Form) (first : String → Bool) :
    f.groups.map (fun g => GroupState.ofGroup g (first g.id))
      = f.unnumbered.groups.map fun g => GroupState.ofGroup g (first g.id) := by
  show _ = (f.groups.map Group.unnumbered).map _
  rw [List.map_map]
  refine List.map_congr_left fun g _ => ?_
  obtain ⟨id, main, members, enabled, numbering⟩ := g
  cases numbering <;> rfl

/-- Numbers have no part in what clients see. -/
theorem state_eq (hform : q.form.unnumbered = p.form.unnumbered) (htext : q.text = p.text)
    (hsensitive : q.sensitiveCase = p.sensitiveCase) (hunstored : q.unstored = p.unstored) :
    q.state = p.state := by
  have hrules : q.form.rules = p.form.rules := (Form.mk.inj hform).2
  rw [state, state, htext, hsensitive, hunstored, hrules, groupStates_unnumbered q.form p.unstored.contains,
    hform, ← groupStates_unnumbered p.form p.unstored.contains]

theorem contents_state (p : Panel) : p.state.contents = p.form.contents := by
  show (List.map _ p.form.groups).map _ = _
  rw [List.map_map]
  rfl

/-- Numbers have no part in what a form contains. -/
theorem contents_eq {f f' : Form} (h : f.unnumbered = f'.unnumbered) : f.contents = f'.contents := by
  rw [Form.contents, Form.contents, groupStates_unnumbered f fun _ => false, h,
    ← groupStates_unnumbered f' fun _ => false]

theorem hasSelection_of_state (h : q.state = p.state) (x : String) :
    q.form.hasSelection x = p.form.hasSelection x := by
  apply Form.hasSelection_of_contents
  rw [← contents_state, ← contents_state, h]

theorem filter_eq (hform : q.form.unnumbered = p.form.unnumbered) : q.filter = p.filter := by
  funext group
  have hlook : ∀ r : Panel, r.filter group
      = ((r.form.unnumbered.group? group).map fun g => if g.enabled then g.filter else "").getD "" := by
    intro r
    have hmap : r.form.unnumbered.group? group = (r.form.group? group).map Group.unnumbered :=
      Form.group?_map Group.unnumbered (fun _ => rfl) r.form.rules r.form.groups group
    rw [hmap, filter]
    cases r.form.group? group <;> rfl
  rw [hlook, hlook, hform]

/-- Numbers have no part in patterns. -/
theorem compile_eq {f f' : Form} (h : f.unnumbered = f'.unnumbered) (text : String) :
    Layout.compile text f = Layout.compile text f' := by
  have heffective : f.isEffective = f'.isEffective := by
    funext id
    rw [← Form.isEffective_unnumbered, h, Form.isEffective_unnumbered]
  rw [Layout.compile, Layout.compile, selectedConventions, selectedConventions, selectedEdges, selectedEdges,
    heffective]

/-- Numbers have no part in searches. -/
theorem search_eq (hform : q.form.unnumbered = p.form.unnumbered) (htext : q.text = p.text)
    (hsensitive : q.sensitiveCase = p.sensitiveCase) : q.search = p.search := by
  rw [search, search, htext, compile_eq hform, hsensitive, filter?, filter?, filter?, filter?, filter_eq hform]

/-! ## Panels that are ever open -/

/-- What is done with an open panel. -/
inductive Operation
  | submit (main : MainForm)
  | replaceHistory (texts : List String)
  | edit (group : String) (e : Edit)

/-- The panel after an operation; a refused edit leaves it as it is. -/
def perform (p : Panel) : Operation → Panel
  | .submit main => p.submit main
  | .replaceHistory texts => p.replaceHistory texts
  | .edit group e =>
    match p.edit? group e with
    | .ok (_, p') => p'
    | .error _ => p

/-- An edit is refused, and leaves the panel as it is, or it is made. -/
theorem perform_edit (p : Panel) (group : String) (e : Edit) :
    p.perform (.edit group e) = p ∨
      ∃ due p', p.edit? group e = .ok (due, p') ∧ p.perform (.edit group e) = p' := by
  cases hedit : p.edit? group e with
  | ok made =>
    right
    exact ⟨made.1, made.2, rfl, by simp only [perform, hedit]⟩
  | error refusal =>
    left
    simp only [perform, hedit]

/-- The panels that are ever open, with the settings of their sessions. The trail has the panel itself and those it
has come about from, the last one first. -/
inductive Reached : List Panel → Settings → Panel → Prop
  /-- The first panel is opened on a store without values. -/
  | first {store : Store} (hempty : store.values = Dict.empty) (settings : Settings) :
      Reached [restore store settings] settings (restore store settings)
  /-- A panel is changed. -/
  | perform {trail : List Panel} {settings : Settings} {p : Panel} (h : Reached trail settings p)
      (op : Operation) : Reached (p.perform op :: trail) settings (p.perform op)
  /-- A panel is closed and opened again, under other settings or the same. -/
  | reopen {trail : List Panel} {settings : Settings} {p : Panel} (h : Reached trail settings p)
      (settings' : Settings) : Reached (restore p.store settings' :: trail) settings' (restore p.store settings')

theorem Shaped.perform (h : p.Shaped settings) (op : Operation) : (p.perform op).Shaped settings := by
  cases op with
  | submit main => exact h.submit main
  | replaceHistory texts => exact ⟨h.fits, h.consistent, h.rules⟩
  | edit group e =>
    rcases perform_edit p group e with hsame | ⟨due, p', hedit, hmade⟩
    · rwa [hsame]
    · rw [hmade]
      exact h.edit? hedit

/-- An operation keeps a panel intact if the elements have numbers below the next ones. -/
theorem Intact.perform (h : p.Intact settings) (hn : ∀ g ∈ p.form.groups, g.Numbered) (op : Operation) :
    (p.perform op).Intact settings := by
  cases op with
  | submit main => exact h.submit main
  | replaceHistory texts => exact h.replaceHistory texts
  | edit group e =>
    rcases perform_edit p group e with hsame | ⟨due, p', hedit, hmade⟩
    · rwa [hsame]
    · rw [hmade]
      exact h.edit? (Form.numberedAt_of_forall hn group) hedit

/-- An operation keeps the elements of a panel numbered, unless one of them has the last number after it. -/
theorem Shaped.numbered_perform (h : p.Shaped settings) (hn : ∀ g ∈ p.form.groups, g.Numbered) (op : Operation)
    (hrange : (p.perform op).InRange) : ∀ g ∈ (p.perform op).form.groups, g.Numbered := by
  cases op with
  | submit main =>
    obtain ⟨s, hs⟩ := submit_frame p main
    show ∀ g ∈ (p.submit main).form.groups, g.Numbered
    rw [hs]
    exact Form.numbered_of_blank hn (Form.blank_overwriteAll p.form main.checks)
  | replaceHistory texts => exact hn
  | edit group e =>
    rcases perform_edit p group e with hsame | ⟨due, p', hedit, hmade⟩
    · rwa [hsame]
    · rw [hmade] at hrange ⊢
      exact Form.numbered_edit? hn (form_of_edit? h.consistent hedit) hrange

variable {trail : List Panel}

/-- **Every panel that is ever open has the shape of one.** -/
theorem Reached.shaped (h : Reached trail settings p) : p.Shaped settings := by
  induction h with
  | first _ settings => exact shaped_restore _ settings
  | perform _ op ih => exact ih.perform op
  | reopen _ settings' => exact shaped_restore _ settings'

/-- **Every panel that is ever open is intact**, and its elements have numbers below the next ones, as long as no
element of it or of a panel before it has the last number. -/
theorem Reached.intact (h : Reached trail settings p) (hrange : ∀ q ∈ trail, q.InRange) :
    p.Intact settings ∧ ∀ g ∈ p.form.groups, g.Numbered := by
  induction h with
  | first hempty settings =>
    have hsound := sound_of_empty hempty
    exact ⟨intact_restore hsound settings, numbered_restore hsound (hrange _ List.mem_cons_self)⟩
  | perform _ op ih =>
    obtain ⟨hintact, hn⟩ := ih fun q hq => hrange q (List.mem_cons_of_mem _ hq)
    exact ⟨hintact.perform hn op, hintact.numbered_perform hn op (hrange _ List.mem_cons_self)⟩
  | reopen _ settings' ih =>
    have hsound := (ih fun q hq => hrange q (List.mem_cons_of_mem _ hq)).1.sound
    exact ⟨intact_restore hsound settings', numbered_restore hsound (hrange _ List.mem_cons_self)⟩

/-! ## Closing and opening again -/

theorem Intact.search_restore (h : p.Intact settings) : (restore p.store settings).search = p.search := by
  obtain ⟨hform, heq⟩ := h.restore_eq
  apply search_eq hform
  · rw [heq]
  · rw [heq]

/-- **A panel that is closed and opened again is the same**: clients see the same state and history, the
next search is the same, and the store is left alone. -/
theorem reopened_panel_eq (h : Reached trail settings p) (hrange : ∀ q ∈ trail, q.InRange) :
    (restore p.store settings).state = p.state ∧ (restore p.store settings).history = p.history ∧
      (restore p.store settings).search = p.search ∧ (restore p.store settings).store = p.store := by
  have hintact := (h.intact hrange).1
  -- the panel is the same but for numbers, which no client and no search sees
  obtain ⟨hform, heq⟩ := hintact.restore_eq
  refine ⟨state_eq hform ?_ ?_ ?_, ?_, hintact.search_restore, ?_⟩
  all_goals rw [heq]

/-- A filter is added and another one that excludes it, the main form is applied, and the panel is closed and
opened again. -/
theorem reopened_panel_with_filters :
    let settings := { Settings.standard with rules := [.exclusive included excluded] }
    let p := (((restore Store.empty settings).perform (.edit included (.add "*.rs" true none))).perform
      (.edit excluded (.add "target/" true none))).perform
      (.submit ⟨"word", false, Dict.ofList [("kebabCase", false)]⟩)
    p.filters = ["", "target/"] ∧
      (restore p.store settings).state = p.state ∧ (restore p.store settings).history = p.history ∧
      (restore p.store settings).search = p.search ∧ (restore p.store settings).store = p.store :=
  ⟨by decide, reopened_panel_eq (.perform (.perform (.perform (.first rfl _) _) _) _) (by decide)⟩

/-! ## The form is always in order -/

/-- **The form of a panel is always in order.** Main checkboxes are selected exactly when their groups have
members and all of them are; no exclusion has a selection on both sides; groups are enabled exactly as the
rules say; all ids are distinct; and the elements of the filters are numbered below the next number, have
labels, and can be relabelled. -/
theorem reached_form_in_order (h : Reached trail settings p) (hrange : ∀ q ∈ trail, q.InRange) :
    (∀ g ∈ p.form.groups, ∀ m, g.main = some m →
      (m.selected = true ↔ g.members ≠ [] ∧ ∀ c ∈ g.members, c.selected = true)) ∧
    (∀ a b, .exclusive a b ∈ p.form.rules →
      ¬(p.form.hasSelection a = true ∧ p.form.hasSelection b = true)) ∧
    (∀ g ∈ p.form.groups, g.enabled = true ↔
      (∀ target, .enabledWhenAny g.id target ∈ p.form.rules → p.form.hasSelection target = true) ∧
        (∀ target, .disabledWhenAny g.id target ∈ p.form.rules → p.form.hasSelection target = false)) ∧
    (p.form.groups.flatMap Group.order ++ p.form.groups.map (·.id)).Nodup ∧
    (∀ g ∈ p.form.groups, ∀ s, g.numbering = some s → ∀ c ∈ g.members,
      (∃ n, n < s.next ∧ c.id = Numbering.idOf g.id n) ∧ c.label ≠ "" ∧ c.editable = true) := by
  obtain ⟨hintact, hn⟩ := h.intact hrange
  have hcons := hintact.consistent
  refine ⟨?_, hcons.exclusive, ?_, hintact.fits.ids_nodup hintact.named, ?_⟩
  · intro g hg m hm
    exact (hcons.aggregated g hg).main_selected hm
  · intro g hg
    rw [hcons.enabled g hg]
    exact Form.all_allows_iff _ _ _
  · intro g hg s hs c hc
    have hdyn : g.isDynamic = true := by
      rw [Group.isDynamic, hs]
      rfl
    obtain ⟨hlabel, heditable, n, hlt, hid⟩ := (hn g hg).element hdyn c hc
    exact ⟨⟨n, (hn g hg).below s hs n ⟨hlt, hid ▸ List.mem_map_of_mem hc⟩, hid⟩, hlabel, heditable⟩

/-- The same after elements were added, amended and removed over two sessions. -/
theorem form_in_order_after_two_sessions :
    let settings := { Settings.standard with
      rules := [.exclusive included conventions, .enabledWhenAny excluded included] }
    let p := ((restore Store.empty Settings.standard).perform
      (.edit excluded (.add "target/" true none))).perform (.edit included (.add "*.rs" false none))
    let q := ((restore p.store settings).perform (.edit included (.amend "filesToInclude-0" "*.ts" true))).perform
      (.edit excluded (.remove "filesToExclude-0"))
    (q.form.hasSelection included = true ∧ q.form.hasSelection conventions = false) ∧
      (q.form.groups.flatMap Group.order ++ q.form.groups.map (·.id)).Nodup := by
  intro settings p q
  have hq : Reached _ settings q :=
    .perform (.perform (.reopen (.perform (.perform (.first rfl Settings.standard) _) _) settings) _) _
  exact ⟨by decide, (reached_form_in_order hq (by decide)).2.2.2.1⟩

end Panel

end AnyCase
