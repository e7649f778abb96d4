import AnyCase.Proofs.Elements
import AnyCase.Proofs.Form

/-!
# `Proofs.Edit` — edits of a form

The five edits of a form have one shape: a dynamic group is replaced by `Group.edit?` of it, and the rules
are evaluated with that group as the one that was changed. `Form.edit?` is that shape, and
`setElements?_eq` … `reorder?_eq` say that each operation is a case of it. A reordering does not evaluate
the rules; in a consistent form that makes no difference.

An edit keeps a form consistent (`consistent_edit?`), keeps its elements numbered as long as numbers are in range,
and leaves the outline of every group alone.
-/

namespace AnyCase

namespace Form

variable {f f' : Form} {group : String} {e : Edit}

/-- A form after an edit of one of its dynamic groups. -/
def edit? (f : Form) (group : String) (e : Edit) : Except Refusal Form := do
  let g ← f.dynamic? group
  let g' ← g.edit? e
  .ok ((f.replace g').reconcile group (e.selects group))

theorem dynamic?_eq_ok_iff {g : Group} :
    f.dynamic? group = .ok g ↔ f.group? group = some g ∧ g.isDynamic = true := by
  rw [dynamic?]
  cases f.group? group with
  | none => simp
  | some g₁ =>
    by_cases hdyn : g₁.isDynamic = true
    · simp only [hdyn, if_true, Except.ok.injEq, Option.some.injEq]
      exact ⟨fun h => ⟨h, h ▸ hdyn⟩, fun h => h.1⟩
    · simp only [hdyn, if_false, Option.some.injEq, reduceCtorEq, Bool.false_eq_true, false_iff]
      rintro ⟨rfl, hd⟩
      exact hdyn hd

/-- What an edit of a form is made of. -/
theorem edit?_spec (h : f.edit? group e = .ok f') :
    ∃ g g', f.group? group = some g ∧ g.isDynamic = true ∧ g.id = group ∧ g.edit? e = .ok g' ∧
      g'.id = group ∧ f' = (f.replace g').reconcile group (e.selects group) := by
  obtain ⟨g, hg, h⟩ := bind_eq_ok_iff.mp h
  obtain ⟨g', hg', h⟩ := bind_eq_ok_iff.mp h
  obtain ⟨hfound, hdyn⟩ := dynamic?_eq_ok_iff.mp hg
  have hid := id_of_group? hfound
  have hid' := Group.id_eq_of_outline (Group.outline_edit? hg')
  exact ⟨g, g', hfound, hdyn, hid, hg', hid'.trans hid, (Except.ok.inj h).symm⟩

/-- A form is edited if the group is. -/
theorem edit?_eq_ok {g g' : Group} (hg : f.group? group = some g) (hdyn : g.isDynamic = true)
    (hedit : g.edit? e = .ok g') :
    f.edit? group e = .ok ((f.replace g').reconcile group (e.selects group)) := by
  simp only [edit?, dynamic?_eq_ok_iff.mpr ⟨hg, hdyn⟩, bind, Except.bind, hedit]

/-- The same, where the edited group is known before and after. -/
theorem edit?_of_group? {g g' : Group} (h : f.edit? group e = .ok f') (hg : f.group? group = some g)
    (hedit : g.edit? e = .ok g') :
    g.isDynamic = true ∧ g.id = group ∧ g'.id = group ∧
      f' = (f.replace g').reconcile group (e.selects group) := by
  obtain ⟨g₀, g₀', hg₀, hdyn, hid, hedit₀, hid', hf⟩ := edit?_spec h
  obtain rfl : g = g₀ := Option.some.inj (hg.symm.trans hg₀)
  obtain rfl : g' = g₀' := Except.ok.inj (hedit.symm.trans hedit₀)
  exact ⟨hdyn, hid, hid', hf⟩

/-! ## Replacing a group -/

theorem mem_replace {g h : Group} (hg : g ∈ (f.replace h).groups) : g = h ∨ g ∈ f.groups := by
  rcases mem_modifyFirst hg with hg | ⟨_, _, _, rfl⟩
  · exact Or.inr hg
  · exact Or.inl rfl

/-- A change of the group with an id puts another one in its place. -/
theorem modifyGroup_eq_replace {g : Group} (hg : f.group? group = some g) (change : Group → Group)
    (hid : (change g).id = group) : f.modifyGroup group change = f.replace (change g) := by
  unfold replace modifyGroup
  rw [modifyFirst_of_find? hg, hid]

theorem group?_replace {g g' : Group} (hg : f.group? group = some g) (hid : g'.id = group) (x : String) :
    (f.replace g').group? x = if x = group then some g' else f.group? x := by
  subst hid
  rw [replace, group?_modifyGroup fun _ _ => rfl]
  by_cases hx : x = g'.id
  · rw [if_pos hx, if_pos hx, hx, hg, Option.map_some]
  · rw [if_neg hx, if_neg hx]

theorem hasSelection_replace {g g' : Group} (hg : f.group? group = some g) (hid : g'.id = group)
    (x : String) :
    (f.replace g').hasSelection x = if x = group then g'.hasSelection else f.hasSelection x := by
  rw [hasSelection, group?_replace hg hid]
  split
  · rfl
  · rfl

theorem hasSelection_of_group? {g : Group} (hg : f.group? group = some g) :
    f.hasSelection group = g.hasSelection := by
  rw [hasSelection, hg, Option.any_some]

theorem map_outline_replace {g g' : Group} (hg : f.group? group = some g)
    (houtline : g'.outline = g.outline) (hd : (f.groups.map (·.id)).Nodup) :
    (f.replace g').groups.map Group.outline = f.groups.map Group.outline := by
  have hid := Group.id_eq_of_outline houtline
  rw [replace, modifyGroup]
  simp only
  rw [modifyFirst_eq_map hd, List.map_map]
  refine List.map_congr_left fun h hh => ?_
  by_cases heq : h.id = g'.id
  · have hfound := group?_of_mem hd hh
    rw [heq, hid, id_of_group? hg, hg] at hfound
    rw [Function.comp_apply, if_pos heq, houtline, Option.some.inj hfound]
  · rw [Function.comp_apply, if_neg heq]

/-! ## What an edit keeps -/

/-- **An edit keeps a form consistent.** A conflict after it has the edited group on one side, and that
group is selected by the edit itself. -/
theorem consistent_edit? (hf : f.Consistent) (h : f.edit? group e = .ok f') : f'.Consistent := by
  obtain ⟨g, g', hg, -, hid, hedit, hid', rfl⟩ := edit?_spec h
  refine consistent_reconcile fun a b hrule ha hb => ?_
  have hrule' : .exclusive a b ∈ f.rules := hrule
  -- a selection that the edit did not ask for was there before it
  have hbefore : ∀ {x : String}, (f.replace g').hasSelection x = true →
      ¬(x = group ∧ e.selects group = true) → f.hasSelection x = true := by
    intro x hx hnew
    rw [hasSelection_replace hg hid'] at hx
    by_cases hxg : x = group
    · rw [if_pos hxg] at hx
      rw [hxg, hasSelection_of_group? hg]
      refine Group.hasSelection_of_edit? hedit ?_ hx
      rw [hid]
      exact Bool.eq_false_iff.mpr fun hs => hnew ⟨hxg, hs⟩
    · rwa [if_neg hxg] at hx
  -- so without the edited group on one side both sides were selected before, in a consistent form
  by_cases hasked : e.selects group = true
  · refine ⟨hasked, ?_⟩
    by_cases hag : a = group
    · exact Or.inl hag
    · by_cases hbg : b = group
      · exact Or.inr hbg
      · exact absurd ⟨hbefore ha fun hc => hag hc.1, hbefore hb fun hc => hbg hc.1⟩
          (hf.exclusive a b hrule')
  · exact absurd ⟨hbefore ha fun hc => hasked hc.2, hbefore hb fun hc => hasked hc.2⟩
      (hf.exclusive a b hrule')

/-- Every group after an edit is, but for values, the edited one or another one that was there. -/
theorem mem_groups_edited (hd : (f.groups.map (·.id)).Nodup) {g₁ g' : Group} {selected : Bool}
    (hg' : g' ∈ ((f.replace g₁).reconcile group selected).groups) :
    ∃ g₂, g'.blank = g₂.blank ∧ (g₂ = g₁ ∨ (g₂ ∈ f.groups ∧ g₂.id ≠ g₁.id)) := by
  obtain ⟨g₂, hg₂, hblank⟩ := exists_of_blank (blank_reconcile _ _ _) hg'
  refine ⟨g₂, hblank, ?_⟩
  have hmem : g₂ ∈ f.groups.map fun x => if x.id = g₁.id then g₁ else x := by
    rw [← modifyFirst_eq_map hd]
    exact hg₂
  obtain ⟨x, hx, rfl⟩ := List.mem_map.mp hmem
  by_cases hid : x.id = g₁.id
  · exact Or.inl (if_pos hid)
  · rw [if_neg hid]
    exact Or.inr ⟨hx, hid⟩

theorem mem_groups_edit? (h : f.edit? group e = .ok f') {g' : Group} (hg' : g' ∈ f'.groups) :
    ∃ g₁, g'.blank = g₁.blank ∧
      (g₁ ∈ f.groups ∨ ∃ g, f.group? group = some g ∧ g.isDynamic = true ∧ g.edit? e = .ok g₁) := by
  obtain ⟨g, g₁, hg, hdyn, -, hedit, -, rfl⟩ := edit?_spec h
  obtain ⟨g₂, hg₂, hblank⟩ := exists_of_blank (blank_reconcile _ _ _) hg'
  rcases mem_replace hg₂ with rfl | hg₂
  · exact ⟨g₂, hblank, Or.inr ⟨g, hg, hdyn, hedit⟩⟩
  · exact ⟨g₂, hblank, Or.inl hg₂⟩

/-- The edited group is found under its id, but for values. -/
theorem group?_edited {g g₁ : Group} (hg : f.group? group = some g) (hid : g₁.id = group)
    (selected : Bool) :
    ∃ g₂, ((f.replace g₁).reconcile group selected).group? group = some g₂ ∧ g₂.blank = g₁.blank := by
  have hfound : (f.replace g₁).group? group = some g₁ := by rw [group?_replace hg hid, if_pos rfl]
  exact exists_group?_of_blank (blank_reconcile (f.replace g₁) group selected) hfound

theorem named_of_blank (hf : ∀ g ∈ f.groups, g.Named) (h : f'.blank = f.blank) : ∀ g ∈ f'.groups, g.Named := by
  intro g' hg'
  obtain ⟨g, hg, heq⟩ := exists_of_blank h hg'
  exact (hf g hg).of_blank heq

theorem numbered_of_blank (hf : ∀ g ∈ f.groups, g.Numbered) (h : f'.blank = f.blank) :
    ∀ g ∈ f'.groups, g.Numbered := by
  intro g' hg'
  obtain ⟨g, hg, heq⟩ := exists_of_blank h hg'
  exact (hf g hg).of_blank heq

/-- Whether the group of an id, if there is one, is numbered. -/
def NumberedAt (f : Form) (group : String) : Prop := ∀ g, f.group? group = some g → g.Numbered

theorem numberedAt_of_forall (hf : ∀ g ∈ f.groups, g.Numbered) (group : String) : f.NumberedAt group :=
  fun g hg => hf g (mem_of_group? hg)

theorem named_edit? (hf : ∀ g ∈ f.groups, g.Named) (hn : f.NumberedAt group) (h : f.edit? group e = .ok f') :
    ∀ g ∈ f'.groups, g.Named := by
  intro g' hg'
  obtain ⟨g₁, hblank, hg₁ | ⟨g, hg, -, hedit⟩⟩ := mem_groups_edit? h hg'
  · exact (hf g₁ hg₁).of_blank hblank
  · exact ((hn g hg).named_edit? hedit).of_blank hblank

theorem numbered_edit? (hf : ∀ g ∈ f.groups, g.Numbered) (h : f.edit? group e = .ok f')
    (hrange : ∀ g ∈ f'.groups, Numbering.InRange g.id g.order) : ∀ g ∈ f'.groups, g.Numbered := by
  intro g' hg'
  obtain ⟨g₁, hblank, hg₁ | ⟨g, hg, -, hedit⟩⟩ := mem_groups_edit? h hg'
  · exact (hf g₁ hg₁).of_blank hblank
  · have hrange₁ := hrange g' hg'
    rw [Group.id_eq_of_blank hblank, Group.order_eq_of_blank hblank] at hrange₁
    exact ((hf g (mem_of_group? hg)).edit? hedit hrange₁).of_blank hblank

theorem map_outline_of_blank (h : f'.blank = f.blank) :
    f'.groups.map Group.outline = f.groups.map Group.outline := by
  have hgroups := congrArg (List.map Group.outline) (groups_eq_of_blank h)
  have hcomp : ∀ g : Group, g.blank.outline = g.outline := by
    intro g
    simp [Group.outline, Group.blank, Group.bare, Group.isDynamic, Function.comp_def]
  simpa only [List.map_map, Function.comp_def, hcomp] using hgroups

/-- **An edit leaves the outline of every group alone.** -/
theorem map_outline_edit? (hd : (f.groups.map (·.id)).Nodup) (h : f.edit? group e = .ok f') :
    f'.groups.map Group.outline = f.groups.map Group.outline := by
  obtain ⟨g, g', hg, -, -, hedit, -, rfl⟩ := edit?_spec h
  rw [map_outline_of_blank (blank_reconcile _ _ _),
    map_outline_replace hg (Group.outline_edit? hedit) hd]

theorem rules_edit? (h : f.edit? group e = .ok f') : f'.rules = f.rules := by
  obtain ⟨_, g', _, _, _, _, _, rfl⟩ := edit?_spec h
  have hrules := rules_eq_of_blank (blank_reconcile (f.replace g') group (e.selects group))
  exact hrules

/-! ## The operations as edits -/

theorem setElements?_eq (f : Form) (group : String) (values : Dict Bool) :
    f.setElements? group values = f.edit? group (.set values) := by
  rw [setElements?, edit?]
  cases hg : f.dynamic? group with
  | error refusal => rfl
  | ok g =>
    have hid : g.id = group := id_of_group? (dynamic?_eq_ok_iff.mp hg).1
    subst hid
    simp only [bind, Except.bind, Group.edit?, Edit.given, Edit.selects]
    split <;> rfl

theorem add?_eq (f : Form) (group label : String) (selected : Bool) (proposed : Option String) :
    (f.add? group label selected proposed).map (·.2) = f.edit? group (.add label selected proposed) := by
  rw [add?, edit?]
  cases hg : f.dynamic? group with
  | error refusal => rfl
  | ok g =>
    simp only [bind, Except.bind, Group.edit?]
    cases g.add? label selected proposed <;> rfl

theorem amend?_eq (f : Form) (group id label : String) (selected : Bool) :
    f.amend? group id label selected = f.edit? group (.amend id label selected) := by
  rw [amend?, edit?]
  cases hg : f.dynamic? group with
  | error refusal => rfl
  | ok g =>
    simp only [bind, Except.bind, Group.edit?]
    cases g.relabel? id label <;> rfl

theorem remove?_eq (f : Form) (group id : String) :
    (f.remove? group id).map (·.2) = f.edit? group (.remove id) := by
  rw [remove?, edit?]
  cases hg : f.dynamic? group with
  | error refusal => rfl
  | ok g =>
    simp only [bind, Except.bind, Group.edit?]
    cases g.remove? id <;> rfl

/-- What adding an element to a form is made of. -/
theorem add?_spec {label id : String} {selected : Bool} {proposed : Option String}
    (h : f.add? group label selected proposed = .ok (id, f')) :
    ∃ g g', f.group? group = some g ∧ g.isDynamic = true ∧
      g.add? label selected proposed = .ok (id, g') ∧
      f.edit? group (.add label selected proposed) = .ok f' := by
  have hedit := add?_eq f group label selected proposed
  rw [h] at hedit
  obtain ⟨g, hg, h⟩ := bind_eq_ok_iff.mp h
  obtain ⟨⟨id', g'⟩, hg', h⟩ := bind_eq_ok_iff.mp h
  obtain ⟨rfl, -⟩ := Prod.mk.inj (Except.ok.inj h)
  obtain ⟨hfound, hdyn⟩ := dynamic?_eq_ok_iff.mp hg
  exact ⟨g, g', hfound, hdyn, hg', hedit.symm⟩

/-- What removing an element from a form is made of. -/
theorem remove?_spec {id : String} {c : Checkbox} (h : f.remove? group id = .ok (c, f')) :
    ∃ g g', f.group? group = some g ∧ g.isDynamic = true ∧ g.remove? id = .ok (c, g') ∧
      f.edit? group (.remove id) = .ok f' := by
  have hedit := remove?_eq f group id
  rw [h] at hedit
  obtain ⟨g, hg, h⟩ := bind_eq_ok_iff.mp h
  obtain ⟨⟨c', g'⟩, hg', h⟩ := bind_eq_ok_iff.mp h
  obtain ⟨rfl, -⟩ := Prod.mk.inj (Except.ok.inj h)
  obtain ⟨hfound, hdyn⟩ := dynamic?_eq_ok_iff.mp hg
  exact ⟨g, g', hfound, hdyn, hg', hedit.symm⟩

/-- The same, where the group is known before and after. -/
theorem remove?_of_group? {id : String} {c : Checkbox} {g g' : Group} (h : f.remove? group id = .ok (c, f'))
    (hg : f.group? group = some g) (hedit : g.edit? (.remove id) = .ok g') : g.remove? id = .ok (c, g') := by
  obtain ⟨g₀, g₀', hg₀, -, hremove, -⟩ := remove?_spec h
  obtain rfl : g = g₀ := Option.some.inj (hg.symm.trans hg₀)
  have hedit₀ : g.edit? (.remove id) = .ok g₀' := map_eq_ok_iff.mpr ⟨_, hremove, rfl⟩
  obtain rfl : g' = g₀' := Except.ok.inj (hedit.symm.trans hedit₀)
  exact hremove

/-- A form stays consistent when a group is replaced by one in which as much is selected. -/
theorem Consistent.replace_same (hf : f.Consistent) {g g' : Group} (hg : f.group? group = some g)
    (hid : g'.id = group) (hsel : g'.hasSelection = g.hasSelection) (hagg : g'.Aggregated)
    (henabled : g'.enabled = g.enabled) : (f.replace g').Consistent := by
  have hsame : (f.replace g').hasSelection = f.hasSelection := by
    funext x
    rw [hasSelection_replace hg hid]
    by_cases hx : x = group
    · rw [if_pos hx, hx, hasSelection_of_group? hg, hsel]
    · rw [if_neg hx]
  refine ⟨?_, ?_, ?_⟩
  · intro h hh
    rcases mem_replace hh with rfl | hh
    · exact hagg
    · exact hf.aggregated h hh
  · intro a b hrule
    rw [hsame]
    exact hf.exclusive a b hrule
  · intro h hh
    rw [hsame]
    rcases mem_replace hh with rfl | hh
    · rw [henabled, hid, ← id_of_group? hg]
      exact hf.enabled g (mem_of_group? hg)
    · exact hf.enabled h hh

/-- No rule depends on the order of elements, so no further evaluation is needed when it changes. -/
theorem reorder?_eq (hf : f.Consistent) (group : String) (ids : List String) :
    f.reorder? group ids = f.edit? group (.reorder ids) := by
  rw [reorder?, edit?]
  cases hg : f.dynamic? group with
  | error refusal => rfl
  | ok g =>
    simp only [bind, Except.bind, Group.edit?]
    cases hr : g.reorder? ids with
    | error refusal => rfl
    | ok g' =>
      have hfound := (dynamic?_eq_ok_iff.mp hg).1
      have hg' := Group.reorder?_spec hr
      have hid : g.id = group := id_of_group? hfound
      -- a reordering asks for no selection, so all that is left to evaluate is what the form already has
      have hperm := Group.drawFirst_perm ids g.members
      have hcons : (f.replace g').Consistent := by
        rw [hg']
        refine hf.replace_same hfound hid hperm.any_eq ?_ rfl
        exact (hf.aggregated g (mem_of_group? hfound)).of_perm hperm rfl
      exact congrArg Except.ok hcons.aggregate_enable.symm

end Form

end AnyCase
