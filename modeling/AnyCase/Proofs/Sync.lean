import AnyCase.Proofs.Overwrite
import AnyCase.Proofs.Session

/-!
# `Proofs.Sync` — a view and the panel after the main form was sent

A view makes a change of the main form first and then sends the fixed groups. The panel overwrites its own
with them and evaluates the rules again, knowing less: the view lets the changed group win its exclusions,
the panel lets the group win that the rule names first. The only answer is that the view may take the focus,
so nothing brings the two together when they disagree.

They disagree in one case, and `main_form_in_sync_iff` says that it is the only one: the view has a
selection in a fixed group that a filter with a selection excludes, and the rule names the filter first
(`Overruled`). Then the view has unselected the filter and the panel unselects the fixed group.
`main_form_out_of_sync` is such a case.
-/

namespace AnyCase

open Layout

/-! ## The view of a panel -/

namespace GroupState

/-- The group that is made of the state of a group has its outline and its members. -/
theorem outline_group_ofGroup (g : Group) (firstStart : Bool) :
    (ofGroup g firstStart).group.outline = g.outline := by
  obtain ⟨id, main, members, enabled, numbering⟩ := g
  cases numbering <;> cases main <;> rfl

theorem members_group_ofGroup (g : Group) (firstStart : Bool) :
    (ofGroup g firstStart).group.members = g.members := by
  obtain ⟨id, main, members, enabled, numbering⟩ := g
  cases numbering <;> rfl

end GroupState

namespace Panel

variable {settings : Settings} {p : Panel}

/-- The form that a view is built from is that of the panel, but for the numbers that are free. -/
theorem Shaped.form_state (h : p.Shaped settings) : p.state.form.unnumbered = p.form.unnumbered := by
  -- the panel has kept only rules that are about its groups, so none is left out again
  have hrules : p.state.rules.filter (fun rule => rule.groups.all (fun id =>
      (p.state.groups.map GroupState.group).any (fun g => g.id = id))) = p.form.rules := by
    refine List.filter_eq_self.mpr fun rule hrule => ?_
    have hkept : rule ∈ keptRules settings.rules := h.rules ▸ hrule
    have hknown := (List.mem_filter.mp hkept).2
    rw [List.all_eq_true] at hknown ⊢
    intro id hid
    obtain ⟨g, hg, rfl⟩ := h.fits.exists_group (of_decide_eq_true (hknown id hid))
    rw [List.any_eq_true]
    refine ⟨(GroupState.ofGroup g (p.unstored.contains g.id)).group, ?_, ?_⟩
    · exact List.mem_map_of_mem (List.mem_map_of_mem hg)
    · exact decide_eq_true (Group.id_eq_of_outline (GroupState.outline_group_ofGroup g _))
  refine (h.consistent.settle_of_bare ?_).2
  show Form.mk _ _ = Form.mk _ _
  rw [hrules]
  congr 1
  show ((List.map _ (List.map _ p.form.groups)).map Group.unnumbered).map Group.bare = _
  rw [Form.unnumbered, List.map_map, List.map_map, List.map_map, List.map_map]
  refine List.map_congr_left fun g _ => ?_
  exact Group.unnumbered_bare_eq (GroupState.outline_group_ofGroup g _)
    (GroupState.members_group_ofGroup g _)

end Panel

namespace View

/-- What a view shows, told as the state of a panel. -/
def shown (v : View) : PanelState where
  text := v.text
  sensitiveCase := v.sensitiveCase
  groups := v.form.groups.map fun g => GroupState.ofGroup g (v.isFirstStart g.id)
  rules := v.form.rules

/-- The actions of a view that send the main form. -/
inductive MainAction
  | enterText (text : String)
  | switchSensitivity
  | toggle (id : String)

/-- The request and the view after an action; toggling may be refused. -/
def act? (v : View) : MainAction → Except Refusal (Request × View)
  | .enterText text => .ok (v.enterText text)
  | .switchSensitivity => .ok v.switchSensitivity
  | .toggle id => v.toggle id

/-- What a view sends after a checkbox was toggled, for the group that it takes for the owner: the values in the group
of that id, or the main form. -/
def toldOf (v : View) (owner : Group) : Request :=
  if owner.isDynamic then .edit owner.id (.set (Dict.ofList (((v.form.group? owner.id).map Group.values).getD [])))
  else .mainInstant v.mainForm

/-- The owner is looked up before the checkbox is toggled, and its values after that. -/
theorem toggle_eq (v : View) (id : String) : v.toggle id = match v.ownerOf? id with
    | none => .error (.noCheckbox id)
    | some o => v.form.toggle id >>= fun form => .ok ({ v with form }.toldOf o, { v with form }) := by
  unfold toggle toldOf
  cases v.ownerOf? id with
  | none => rfl
  | some o =>
    cases hdyn : o.isDynamic with
    | false =>
      simp only [hdyn]
      rfl
    | true =>
      simp only [hdyn]
      rfl

theorem toggle_spec {v v' : View} {id : String} {r : Request} (h : v.toggle id = .ok (r, v')) :
    ∃ o, v.ownerOf? id = some o ∧ v.form.toggle id = .ok v'.form ∧ v' = { v with form := v'.form } ∧
      r = v'.toldOf o := by
  rw [toggle_eq] at h
  split at h
  · exact absurd h (by simp)
  · rename_i o howner
    obtain ⟨form, htoggle, h⟩ := bind_eq_ok_iff.mp h
    obtain ⟨rfl, rfl⟩ := Prod.mk.inj (Except.ok.inj h)
    exact ⟨o, howner, htoggle, rfl, rfl⟩

end View

/-! ## Where they disagree -/

/-- A filter with a selection excludes a fixed group that has one in the view, and the rule names the filter
first. -/
def Overruled (f shown : Form) : Prop :=
  ∃ a ∈ filterGroups, ∃ b ∈ fixedGroups, .exclusive a b ∈ f.rules ∧ f.hasSelection a = true ∧
    shown.hasSelection b = true

instance (f shown : Form) : Decidable (Overruled f shown) :=
  inferInstanceAs (Decidable (∃ a ∈ filterGroups, ∃ b ∈ fixedGroups, _ ∧ _ ∧ _))

/-- A form after a change of its fixed groups in a view: every filter is as it was, or it was unselected for
a fixed group that it excludes or is excluded by. -/
structure Follows (f shown : Form) : Prop where
  fits : Fits shown
  consistent : shown.Consistent
  rules : shown.rules = f.rules
  filters : ∀ x ∈ filterGroups, shown.membersOf x = f.membersOf x ∨
    (shown.membersOf x = (f.membersOf x).map Checkbox.cleared ∧ ∃ k ∈ fixedGroups,
      shown.hasSelection k = true ∧ (.exclusive k x ∈ f.rules ∨ .exclusive x k ∈ f.rules))

namespace Follows

variable {f shown : Form}

/-- What the panel starts from: the fixed groups of the view and its own filters. -/
def Meets (f shown : Form) (f₁ : Form) : Prop :=
  f₁.rules = f.rules ∧ ∀ x, f₁.membersOf x = if x ∈ fixedGroups then shown.membersOf x else f.membersOf x

/-- **Where no filter overrules the view, the panel comes to the same members.** -/
theorem membersOf_eq (h : Follows f shown) (hf : f.Exclusive)
    (hknown : ∀ a b, .exclusive a b ∈ f.rules → a ∈ fixedGroups ++ filterGroups) {f₁ : Form}
    (hmeets : Meets f shown f₁) (hnot : ¬Overruled f shown) {x : String}
    (hx : x ∈ fixedGroups ++ filterGroups) : f₁.settle.membersOf x = shown.membersOf x := by
  have hexcl := h.consistent.exclusive
  rw [Form.Exclusive, h.rules] at hexcl
  have hfixed : ∀ k ∈ fixedGroups, f₁.hasSelection k = shown.hasSelection k := by
    intro k hk
    rw [Form.hasSelection_eq, Form.hasSelection_eq, hmeets.2, if_pos hk]
  have hfilter : ∀ k ∈ filterGroups, f₁.hasSelection k = f.hasSelection k := by
    intro k hk
    rw [Form.hasSelection_eq, Form.hasSelection_eq, hmeets.2, if_neg (not_mem_fixedGroups k hk)]
  rw [Form.membersOf_settle, hmeets.2]
  rcases List.mem_append.mp hx with hx | hx
  · -- a fixed group loses to a filter only, and that would overrule the view
    have hwins : x ∉ f₁.losers := by
      intro hlose
      obtain ⟨a, hrule, ha, hxsel⟩ := Form.mem_losers.mp hlose
      rw [hmeets.1] at hrule
      rw [hfixed x hx] at hxsel
      rcases List.mem_append.mp (hknown a x hrule) with hak | hak
      · rw [hfixed a hak] at ha
        exact hexcl a x hrule ⟨ha, hxsel⟩
      · rw [hfilter a hak] at ha
        exact hnot ⟨a, hak, x, hx, hrule, ha, hxsel⟩
    rw [if_neg hwins, if_pos hx]
  · rw [if_neg (not_mem_fixedGroups x hx)]
    by_cases hlose : x ∈ f₁.losers
    · rw [if_pos hlose]
      obtain ⟨a, hrule, ha, hxsel⟩ := Form.mem_losers.mp hlose
      rw [hmeets.1] at hrule
      rw [hfilter x hx] at hxsel
      -- the winner is a fixed group, so the view has unselected the filter too
      have hak : a ∈ fixedGroups := by
        rcases List.mem_append.mp (hknown a x hrule) with hak | hak
        · exact hak
        · rw [hfilter a hak] at ha
          exact absurd ⟨ha, hxsel⟩ (hf a x hrule)
      rw [hfixed a hak] at ha
      rcases h.filters x hx with hsame | ⟨hcleared, -⟩
      · rw [Form.hasSelection_eq, ← hsame, ← Form.hasSelection_eq] at hxsel
        exact absurd ⟨ha, hxsel⟩ (hexcl a x hrule)
      · exact hcleared.symm
    · rw [if_neg hlose]
      rcases h.filters x hx with hsame | ⟨hcleared, k, hk, hksel, hrule⟩
      · exact hsame.symm
      · -- what the view has unselected had no selection
        have hnone : f.hasSelection x = false := by
          rw [Bool.eq_false_iff]
          intro hxsel
          rcases hrule with hrule | hrule
          · refine hlose (Form.mem_losers.mpr ⟨k, hmeets.1 ▸ hrule, ?_, ?_⟩)
            · rw [hfixed k hk]
              exact hksel
            · rw [hfilter x hx]
              exact hxsel
          · exact hnot ⟨x, hx, k, hk, hrule, hxsel, hksel⟩
        rw [Form.hasSelection_eq] at hnone
        rw [hcleared, Form.map_cleared_eq_self hnone]

/-- Where a filter overrules the view, the panel has unselected a fixed group. -/
theorem hasSelection_settle (h : Overruled f shown) {f₁ : Form} (hmeets : Meets f shown f₁) :
    ∃ b ∈ fixedGroups, shown.hasSelection b = true ∧ f₁.settle.hasSelection b = false := by
  obtain ⟨a, ha, b, hb, hrule, hasel, hbsel⟩ := h
  have hlose : b ∈ f₁.losers := by
    refine Form.mem_losers.mpr ⟨a, hmeets.1 ▸ hrule, ?_, ?_⟩
    · rw [Form.hasSelection_eq, hmeets.2, if_neg (not_mem_fixedGroups a ha), ← Form.hasSelection_eq]
      exact hasel
    · rw [Form.hasSelection_eq, hmeets.2, if_pos hb, ← Form.hasSelection_eq]
      exact hbsel
  refine ⟨b, hb, hbsel, ?_⟩
  rw [Form.hasSelection_eq, Form.membersOf_settle, if_pos hlose]
  simp

end Follows

namespace Follows

variable {f shown : Form}

/-- A form that is the same but for numbers follows. -/
theorem of_unnumbered (hfits : Fits f) (hcons : shown.Consistent)
    (heq : shown.unnumbered = f.unnumbered) : Follows f shown where
  fits := hfits.of_unnumbered heq
  consistent := hcons
  rules := (Form.mk.inj heq).2
  filters := by
    intro x _
    left
    rw [← Form.membersOf_unnumbered, heq, Form.membersOf_unnumbered]

theorem congr {f₀ : Form} (h : Follows f₀ shown) (heq : f₀.unnumbered = f.unnumbered) :
    Follows f shown where
  fits := h.fits
  consistent := h.consistent
  rules := h.rules.trans (Form.mk.inj heq).2
  filters := by
    intro x hx
    have hmembers : f₀.membersOf x = f.membersOf x := by
      rw [← Form.membersOf_unnumbered, heq, Form.membersOf_unnumbered]
    rw [← hmembers, ← (Form.mk.inj heq).2]
    exact h.filters x hx

/-- **Setting a checkbox of a fixed group** unselects at most the filters that it excludes or is excluded
by. -/
theorem of_set (hfits : Fits f) (hcons : f.Consistent)
    (hvalid : ∀ a b, .exclusive a b ∈ f.rules → a ≠ b) {id : String} {b : Bool}
    (hlocate : ∀ l, f.locate? id = some l → l.group.id ∈ fixedGroups) (hset : f.set id b = .ok shown) :
    Follows f shown := by
  obtain ⟨place, g, spot, g', hspot, hfound, hblank, rfl, -⟩ := Form.set_spec hfits.groups_nodup hset
  have hfixed : g.id ∈ fixedGroups := hlocate _ hspot
  have hid := Group.id_eq_of_blank hblank
  have hreplaced := Form.blank_replace hfits.groups_nodup hfound hblank
  have hall := (Form.blank_reconcile _ g.id g'.hasSelection).trans hreplaced
  have hrules := Form.rules_eq_of_blank hall
  refine ⟨hfits.of_blank hall, hcons.replaced hfound hid, hrules, fun x hx => ?_⟩
  have hxg : x ≠ g.id := by
    rintro rfl
    exact not_mem_fixedGroups _ hx hfixed
  rw [Form.membersOf_reconcile, Form.membersOf_replace hfound hid, if_neg hxg]
  by_cases hrival : g'.hasSelection = true ∧ x ∈ (f.replace g').rules.filterMap (Rule.rivalOf g.id)
  · right
    rw [if_pos hrival]
    refine ⟨rfl, g.id, hfixed, ?_, Form.mem_rivals.mp hrival.2⟩
    rw [Form.hasSelection_eq, Form.membersOf_reconcile,
      if_neg fun hc => Form.not_mem_rivals_self hvalid hc.2, Form.membersOf_replace hfound hid, if_pos rfl]
    exact hrival.1
  · rw [if_neg hrival]
    exact Or.inl rfl

end Follows

namespace Panel

variable {settings : Settings} {p : Panel} {action : View.MainAction} {form : MainForm} {v : View}

/-- **An action in the view of a panel** sends the main form of the view after it, and changes only what
follows from a fixed group. -/
theorem Shaped.follows (h : p.Shaped settings) (hvalid : settings.check = .ok settings)
    (hact : (View.ofState p.state).act? action = .ok (.mainInstant form, v)) :
    form = v.mainForm ∧ v.firstStart = (View.ofState p.state).firstStart ∧ Follows p.form v.form := by
  have hsame := h.form_state
  have hcons : p.state.form.Consistent := Form.consistent_settle _
  have hstart : Follows p.form p.state.form := .of_unnumbered h.fits hcons hsame
  cases action with
  | enterText text =>
    obtain ⟨hform, rfl⟩ := Prod.mk.inj (Except.ok.inj hact)
    exact ⟨(Request.mainInstant.inj hform).symm, rfl, hstart⟩
  | switchSensitivity =>
    obtain ⟨hform, rfl⟩ := Prod.mk.inj (Except.ok.inj hact)
    exact ⟨(Request.mainInstant.inj hform).symm, rfl, hstart⟩
  | toggle id =>
    obtain ⟨g, howner, hshown, hrest, htold⟩ := View.toggle_spec hact
    unfold View.toldOf at htold
    split at htold
    · exact absurd htold (by simp)
    · rename_i hfix
      refine ⟨Request.mainInstant.inj htold, hrest ▸ rfl, ?_⟩
      obtain ⟨b, hset⟩ := Form.toggle_spec hshown
      refine (Follows.of_set hstart.fits hcons (fun a c hrule => ?_) (fun l hl => ?_) hset).congr hsame
      · exact (h.rules_valid hvalid (hstart.rules ▸ hrule)).2.2
      · -- the checkbox that is set is in the group that the view takes for its owner
        have hmain : ∀ g ∈ p.state.form.groups, g.main.isSome = true :=
          fun g hg => hstart.fits.main_isSome hg
        have hfirst := Form.find?_of_locateIn hmain hl
        have hmem := List.mem_of_getElem? (Form.locateIn_spec hl).1
        have howner' : (View.ofState p.state).ownerOf? id = some l.group := hfirst
        rw [howner] at howner'
        rw [← Option.some.inj howner'] at hmem ⊢
        exact (hstart.fits.fixed_iff hmem).mp (Bool.eq_false_iff.mpr hfix)

/-- What the panel starts from when it gets a main form of a view. -/
theorem meets_mainForm {f : Form} (hf : Fits f) (hv : Fits v.form) :
    Follows.Meets f v.form (v.mainForm.checks.toList.foldl (fun f e => f.overwrite e.1 e.2) f) := by
  constructor
  · exact Form.rules_eq_of_blank (Form.blank_foldl_overwrite f _)
  · exact View.membersOf_mainForm hf hv

/-- What is shown has the selections of the form. -/
theorem hasSelection_of_shown {q : Panel} (h : v.shown = q.state) (x : String) :
    v.form.hasSelection x = q.form.hasSelection x := by
  apply Form.hasSelection_of_contents
  have hshown : v.shown.contents = v.form.contents := List.map_map
  rw [← hshown, h, contents_state]

/-- A view of a panel that differs from it in numbers only shows its state. -/
theorem shown_eq {q : Panel} (hform : v.form.unnumbered = q.form.unnumbered) (htext : v.text = q.text)
    (hsensitive : v.sensitiveCase = q.sensitiveCase)
    (hfirst : ∀ g ∈ v.form.groups, v.isFirstStart g.id = q.unstored.contains g.id) :
    v.shown = q.state := by
  let w : Panel := { q with form := v.form, text := v.text, sensitiveCase := v.sensitiveCase }
  have hw : w.state = q.state := state_eq hform htext hsensitive rfl
  rw [← hw]
  unfold View.shown state
  congr 1
  refine List.map_congr_left fun g hg => ?_
  rw [hfirst g hg]

/-- A view knows which elements of the panel were never stored. -/
theorem Shaped.isFirstStart (h : p.Shaped settings) (hstart : v.firstStart = (View.ofState p.state).firstStart)
    {k : String} (hk : k ∈ fixedGroups ++ filterGroups) : v.isFirstStart k = p.unstored.contains k := by
  have hentries : p.state.groups.map (fun g => (g.id, g.firstStart))
      = (fixedGroups ++ filterGroups).map fun k => (k, p.unstored.contains k) := by
    rw [← h.fits.groups_ids, List.map_map]
    show List.map _ (List.map _ p.form.groups) = _
    rw [List.map_map]
    rfl
  have hget : v.firstStart.get? k = some (p.unstored.contains k) := by
    rw [hstart]
    show (Dict.ofList _).get? k = _
    rw [hentries]
    refine Dict.get?_ofList_of_mem ?_ (List.mem_map_of_mem hk)
    have hkeys : (fixedGroups ++ filterGroups).Nodup := by decide
    exact hkeys
  rw [View.isFirstStart, hget]
  rfl

end Panel

/-! ## The panel after the main form -/

namespace Panel

variable {settings : Settings} {p : Panel} {v : View}

theorem form_submit (p : Panel) (main : MainForm) :
    (p.submit main).form = (main.checks.toList.foldl (fun f e => f.overwrite e.1 e.2) p.form).settle := by
  obtain ⟨s, hs⟩ := submit_frame p main
  rw [hs]
  rfl

/-- Where a filter overrules the view, the panel unselects a fixed group that has a selection in the view. -/
theorem Shaped.overruled_submit (h : p.Shaped settings) (hfollows : Follows p.form v.form)
    (hover : Overruled p.form v.form) :
    ∃ b ∈ fixedGroups, v.form.hasSelection b = true ∧ (p.submit v.mainForm).form.hasSelection b = false := by
  rw [form_submit]
  exact Follows.hasSelection_settle hover (meets_mainForm h.fits hfollows.fits)

/-- **Where no filter overrules the view, the panel comes to the state that the view shows.** -/
theorem Shaped.shown_submit (h : p.Shaped settings) (hvalid : settings.check = .ok settings)
    (hstart : v.firstStart = (View.ofState p.state).firstStart) (hfollows : Follows p.form v.form)
    (hnot : ¬Overruled p.form v.form) : v.shown = (p.submit v.mainForm).state := by
  have hq : (p.submit v.mainForm).Shaped settings := h.submit v.mainForm
  have hmembers : ∀ x ∈ fixedGroups ++ filterGroups,
      v.form.membersOf x = (p.submit v.mainForm).form.membersOf x := by
    intro x hx
    have hmeets := meets_mainForm h.fits hfollows.fits
    rw [form_submit]
    refine (hfollows.membersOf_eq h.consistent.exclusive (fun a b hrule => ?_) hmeets hnot hx).symm
    exact (h.rules_valid hvalid hrule).1
  have hrules : v.form.rules = (p.submit v.mainForm).form.rules := by
    rw [hfollows.rules, h.rules, hq.rules]
  obtain ⟨s, hs⟩ := submit_frame p v.mainForm
  apply shown_eq
  · -- both forms are in order, so their members determine the rest
    exact hfollows.fits.unnumbered_eq_of_members hq.fits hfollows.consistent hq.consistent hrules hmembers
  · rw [hs]
    rfl
  · rw [hs]
    rfl
  · intro g hg
    rw [hs]
    apply h.isFirstStart hstart
    exact hfollows.fits.groups_ids ▸ List.mem_map_of_mem hg

end Panel

namespace Session

open Panel

variable {settings : Settings} {store : Store} {p : Panel} {requests : List Request}
  {action : View.MainAction} {form : MainForm} {v : View}

/-- **A view and the panel agree after the main form was sent, unless a filter overrules the view.** In that
case the view has a selection in a fixed group that the panel has unselected, and keeps it. Settings are
valid, so no rule excludes a group from itself; the panel may have been opened on any store. -/
theorem main_form_in_sync_iff (hvalid : settings.check = .ok settings)
    (hopen : after settings (idle store) requests = active p)
    (hact : (View.ofState p.state).act? action = .ok (.mainInstant form, v)) :
    let o := (active p).respond settings (.mainInstant form)
    ∃ q, o.session = active q ∧
      ((v.receiveAll o.replies).shown = q.state ↔ ¬Overruled p.form v.form) ∧
      (Overruled p.form v.form → ∃ b ∈ fixedGroups,
        (v.receiveAll o.replies).form.hasSelection b = true ∧ q.form.hasSelection b = false) := by
  intro o
  have hp : p.Shaped settings := by
    have hafter : Shapely settings (after settings (idle store) requests) := shapely_after trivial
    rwa [hopen] at hafter
  obtain ⟨rfl, hstart, hfollows⟩ := hp.follows hvalid hact
  -- the only reply is the focus, which leaves the view as it is
  have hreply : v.receiveAll o.replies = v := rfl
  rw [hreply]
  refine ⟨p.submit v.mainForm, rfl, ?_, hp.overruled_submit hfollows⟩
  constructor
  · intro hshown hover
    obtain ⟨b, -, hon, hoff⟩ := hp.overruled_submit hfollows hover
    rw [← hasSelection_of_shown hshown, hon] at hoff
    exact absurd hoff (by simp)
  · exact hp.shown_submit hvalid hstart hfollows

/-- With the exclusion the other way round, turning a convention on unselects the filter in both. -/
theorem main_form_in_sync_other_way :
    let settings := { Settings.standard with rules := [.exclusive conventions included] }
    let p := (restore Store.empty settings).perform (.edit included (.add "*.ts" true none))
    let shown := (p.state.form.toggle "kebabCase").toOption.getD p.form
    let v := { View.ofState p.state with form := shown }
    let o := (active p).respond settings (.mainInstant v.mainForm)
    (p.form.hasSelection included = true ∧ v.form.hasSelection included = false) ∧
      ∃ q, o.session = active q ∧ (v.receiveAll o.replies).shown = q.state := by
  intro settings p shown v o
  have hopen : after settings (idle .empty) [.openPanel, .edit included (.add "*.ts" true none)]
      = active p := by
    rw [after_cons, respond_openPanel_session, after_cons, respond_edit_session]
    rfl
  have hact : (View.ofState p.state).act? (.toggle "kebabCase") = .ok (.mainInstant v.mainForm, v) := by
    decide +kernel
  have hnot : ¬Overruled p.form v.form := by decide +kernel
  obtain ⟨q, hq, hiff, -⟩ := main_form_in_sync_iff rfl hopen hact
  exact ⟨by decide +kernel, q, hq, hiff.mpr hnot⟩

/-- A filter is selected that excludes the conventions. Turning a convention on unselects the filter in the
view, and the panel unselects the convention. -/
theorem main_form_out_of_sync :
    let settings := { Settings.standard with rules := [.exclusive included conventions] }
    let p := (restore Store.empty settings).perform (.edit included (.add "*.ts" true none))
    let shown := (p.state.form.toggle "kebabCase").toOption.getD p.form
    let v := { View.ofState p.state with form := shown }
    let o := (active p).respond settings (.mainInstant v.mainForm)
    settings.check = .ok settings ∧
      after settings (idle .empty) [.openPanel, .edit included (.add "*.ts" true none)] = active p ∧
      (View.ofState p.state).act? (.toggle "kebabCase") = .ok (.mainInstant v.mainForm, v) ∧
      ∃ q, o.session = active q ∧ (v.receiveAll o.replies).form.hasSelection conventions = true ∧
        q.form.hasSelection conventions = false ∧ (v.receiveAll o.replies).shown ≠ q.state := by
  intro settings p shown v o
  refine ⟨rfl, ?_, ?_, p.submit v.mainForm, rfl, ?_, ?_, ?_⟩
  · rw [after_cons, respond_openPanel_session, after_cons, respond_edit_session]
    rfl
  all_goals decide +kernel

end Session

end AnyCase
