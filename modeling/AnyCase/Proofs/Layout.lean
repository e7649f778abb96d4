import AnyCase.Panel.Basic
import AnyCase.Proofs.Edit

/-!
# `Proofs.Layout` — the names of a panel are told apart

A panel has four groups, and only the values of the fixed ones and the elements of the filters ever change.
`Layout.Fits` says that a form has them; every change of a form keeps it (`Fits.of_blank`, `Fits.edit?`).

All names in a panel are told apart by counting dashes: the names of groups, of fixed members and of the
fixed keys of the store have none, the id of an element has one, the key of its label has two. So the ids of
members are distinct from each other and from those of groups (`Fits.ids_nodup`), and no value is stored
under a key that is used for something else.
-/

namespace AnyCase

namespace Layout

/-! ## Fixed names -/

/-- The outlines of the groups of a panel. -/
def outlines : List (String × Option String × Bool) :=
  [(conventions, some "All", false), (edges, some "Whole word", false),
    (included, some "All", true), (excluded, some "All", true)]

/-- The members of a fixed group, not selected. -/
def fixedMembers (group : String) : List Checkbox :=
  if group = conventions then Convention.all.map fun k => ⟨k.id, k.label, false, false⟩
  else if group = edges then
    [⟨startEdge, "Begin word", false, false⟩, ⟨endEdge, "End word", false, false⟩]
  else []

/-- The ids of the members of a fixed group. -/
def fixedIds (group : String) : List String := (fixedMembers group).map (·.id)

/-- The keys of the store that are always the same, those of values left out. -/
def fixedKeys : List String := [textKey, sensitiveKey, historyKey] ++ filterGroups.map elementsKey

/-- The names that no member may have. -/
def reservedNames : List String := fixedKeys ++ outlines.map (·.1)

/-- The names without a dash. -/
def plainNames : List String := reservedNames ++ fixedGroups.flatMap fixedIds

theorem dashes_of_mem_plainNames : ∀ x ∈ plainNames, dashes x = 0 := by decide

theorem mem_fixedKeys_elementsKey {group : String} (h : group ∈ filterGroups) :
    elementsKey group ∈ fixedKeys :=
  List.mem_append_right _ (List.mem_map_of_mem h)

/-- No group is fixed and a filter. -/
theorem not_mem_fixedGroups : ∀ group ∈ filterGroups, group ∉ fixedGroups := by decide

/-- No two fixed groups have an id in common. -/
theorem fixedIds_disjoint : ∀ a ∈ fixedGroups, ∀ b ∈ fixedGroups, ∀ x ∈ fixedIds a, x ∈ fixedIds b →
    a = b := by
  decide

theorem elementsKey_inj {group group' : String} (h : elementsKey group = elementsKey group') :
    group = group' := by
  have hl : group.toList ++ "Elts".toList = group'.toList ++ "Elts".toList := by
    rw [← String.toList_append, ← String.toList_append]
    exact congrArg String.toList h
  exact String.toList_inj.mp (List.append_cancel_right hl)

theorem labelKey_inj {id id' : String} (h : labelKey id = labelKey id') : id = id' := by
  have hl : id.toList ++ "-label".toList = id'.toList ++ "-label".toList := by
    rw [← String.toList_append, ← String.toList_append]
    exact congrArg String.toList h
  exact String.toList_inj.mp (List.append_cancel_right hl)

theorem dashes_labelKey (id : String) : dashes (labelKey id) = dashes id + 1 := by
  rw [labelKey, dashes_append]
  rfl

/-- The key of a label is none of the fixed ones. -/
theorem labelKey_not_mem_fixedKeys (id : String) : labelKey id ∉ fixedKeys := by
  have hplain : ∀ key ∈ fixedKeys, dashes key = 0 := by decide
  intro hmem
  have hdashes := hplain _ hmem
  rw [dashes_labelKey] at hdashes
  omega

theorem labelKey_ne_elementsKey (id : String) {group : String} (h : group ∈ filterGroups) :
    labelKey id ≠ elementsKey group :=
  fun heq => labelKey_not_mem_fixedKeys id (heq ▸ mem_fixedKeys_elementsKey h)

/-! ## Forms of a panel -/

/-- A form with the groups of a panel: the fixed ones have the members they always have. -/
structure Fits (f : Form) : Prop where
  outlines : f.groups.map Group.outline = outlines
  fixed : ∀ g ∈ f.groups, g.isDynamic = false → g.members.map Checkbox.cleared = fixedMembers g.id

namespace Fits

variable {f f' : Form} {g g' : Group}

theorem groups_ids (h : Fits f) : f.groups.map (·.id) = fixedGroups ++ filterGroups := by
  have hids := congrArg (List.map Prod.fst) h.outlines
  rwa [List.map_map] at hids

theorem groups_nodup (h : Fits f) : (f.groups.map (·.id)).Nodup := by
  rw [h.groups_ids]
  decide

/-- There is a group of every name. -/
theorem exists_group (h : Fits f) {group : String} (hgroup : group ∈ fixedGroups ++ filterGroups) :
    ∃ g ∈ f.groups, g.id = group := by
  rw [← h.groups_ids] at hgroup
  exact List.mem_map.mp hgroup

theorem mem_outlines (h : Fits f) (hg : g ∈ f.groups) : g.outline ∈ Layout.outlines :=
  h.outlines ▸ List.mem_map_of_mem hg

/-- The groups of filters are the dynamic ones. -/
theorem dynamic_iff (h : Fits f) (hg : g ∈ f.groups) : g.isDynamic = true ↔ g.id ∈ filterGroups := by
  have hall : ∀ o ∈ Layout.outlines, o.2.2 = true ↔ o.1 ∈ filterGroups := by decide
  exact hall g.outline (h.mem_outlines hg)

theorem fixed_iff (h : Fits f) (hg : g ∈ f.groups) : g.isDynamic = false ↔ g.id ∈ fixedGroups := by
  have hall : ∀ o ∈ Layout.outlines, o.2.2 = false ↔ o.1 ∈ fixedGroups := by decide
  exact hall g.outline (h.mem_outlines hg)

theorem id_mem_reservedNames (h : Fits f) (hg : g ∈ f.groups) : g.id ∈ reservedNames :=
  List.mem_append_right _ (List.mem_map_of_mem (f := Prod.fst) (h.mem_outlines hg))

theorem dashes_id (h : Fits f) (hg : g ∈ f.groups) : dashes g.id = 0 :=
  dashes_of_mem_plainNames _ (List.mem_append_left _ (h.id_mem_reservedNames hg))

/-- Every group has a main checkbox. -/
theorem main_isSome (h : Fits f) (hg : g ∈ f.groups) : g.main.isSome = true := by
  have hall : ∀ o ∈ Layout.outlines, o.2.1.isSome = true := by decide
  have hmain := hall g.outline (h.mem_outlines hg)
  rwa [Group.outline, Option.isSome_map] at hmain

/-- Two groups of one id are the same group. -/
theorem eq_of_id (h : Fits f) (hg : g ∈ f.groups) (hg' : g' ∈ f.groups) (hid : g.id = g'.id) :
    g = g' := by
  have hfound := Form.group?_of_mem h.groups_nodup hg
  rw [hid, Form.group?_of_mem h.groups_nodup hg'] at hfound
  exact (Option.some.inj hfound).symm

theorem order_fixed (h : Fits f) (hg : g ∈ f.groups) (hfix : g.isDynamic = false) :
    g.order = fixedIds g.id := by
  have hids := congrArg (List.map Checkbox.id) (h.fixed g hg hfix)
  rwa [List.map_map] at hids

/-! ### What keeps it -/

theorem of_blank (h : Fits f) (hblank : f'.blank = f.blank) : Fits f' where
  outlines := (Form.map_outline_of_blank hblank).trans h.outlines
  fixed := by
    intro g' hg' hfix
    obtain ⟨g, hg, heq⟩ := Form.exists_of_blank hblank hg'
    rw [Group.cleared_eq_of_blank heq, Group.id_eq_of_blank heq]
    exact h.fixed g hg (Group.isDynamic_of_blank heq ▸ hfix)

/-- A dynamic group has any members. -/
theorem replace (h : Fits f) {group : String} (hg : f.group? group = some g) (hdyn : g.isDynamic = true)
    (houtline : g'.outline = g.outline) : Fits (f.replace g') where
  outlines := (Form.map_outline_replace hg houtline h.groups_nodup).trans h.outlines
  fixed := by
    intro g₁ hg₁ hfix
    rcases Form.mem_replace hg₁ with rfl | hg₁
    · rw [Group.isDynamic_eq_of_outline houtline, hdyn] at hfix
      exact absurd hfix (by decide)
    · exact h.fixed g₁ hg₁ hfix

/-- An edit is of a dynamic group, so fixed groups keep their members. -/
theorem edit? (h : Fits f) {group : String} {e : Edit} (hedit : f.edit? group e = .ok f') : Fits f' := by
  obtain ⟨g, g', hg, hdyn, -, hmade, -, rfl⟩ := Form.edit?_spec hedit
  exact (h.replace hg hdyn (Group.outline_edit? hmade)).of_blank (Form.blank_reconcile _ _ _)

/-! ### The ids of members -/

/-- A member has a fixed id without dashes, or that of an element, which has one. -/
theorem member_id (h : Fits f) (hn : ∀ g ∈ f.groups, g.Named) (hg : g ∈ f.groups) {id : String}
    (hid : id ∈ g.order) :
    (g.id ∈ fixedGroups ∧ id ∈ fixedIds g.id) ∨
      (g.id ∈ filterGroups ∧ ∃ n, id = Numbering.idOf g.id n) := by
  by_cases hdyn : g.isDynamic = true
  · right
    exact ⟨(h.dynamic_iff hg).mp hdyn, (hn g hg).id_of_mem hdyn hid⟩
  · left
    have hfix : g.isDynamic = false := Bool.eq_false_iff.mpr hdyn
    exact ⟨(h.fixed_iff hg).mp hfix, h.order_fixed hg hfix ▸ hid⟩

theorem mem_plainNames_fixedIds {group id : String} (hg : group ∈ fixedGroups)
    (h : id ∈ fixedIds group) : id ∈ plainNames :=
  List.mem_append_right _ (List.mem_flatMap.mpr ⟨group, hg, h⟩)

/-- The id of a member tells its group. -/
theorem eq_of_member_id (h : Fits f) (hn : ∀ g ∈ f.groups, g.Named) (hg : g ∈ f.groups)
    (hg' : g' ∈ f.groups) {id : String} (hid : id ∈ g.order) (hid' : id ∈ g'.order) : g = g' := by
  have hplain : ∀ {a b : Group}, b ∈ f.groups → a.id ∈ fixedGroups → id ∈ fixedIds a.id →
      ∀ n, id ≠ Numbering.idOf b.id n := by
    intro a b hb ha hida n hc
    have hdashes := dashes_of_mem_plainNames id (mem_plainNames_fixedIds ha hida)
    rw [hc, Numbering.dashes_idOf] at hdashes
    omega
  apply h.eq_of_id hg hg'
  -- both fixed, both elements, or one of each, which the dashes rule out
  rcases h.member_id hn hg hid with ⟨hfix, hmem⟩ | ⟨-, n, hnum⟩
  · rcases h.member_id hn hg' hid' with ⟨hfix', hmem'⟩ | ⟨-, n', hnum'⟩
    · exact fixedIds_disjoint _ hfix _ hfix' id hmem hmem'
    · exact absurd hnum' (hplain hg' hfix hmem n')
  · rcases h.member_id hn hg' hid' with ⟨hfix', hmem'⟩ | ⟨-, n', hnum'⟩
    · exact absurd hnum (hplain hg hfix' hmem' n)
    · exact Numbering.idOf_group_inj (h.dashes_id hg) (h.dashes_id hg') (hnum.symm.trans hnum')

/-- No member has a name that is used for something else. -/
theorem member_id_not_reserved (h : Fits f) (hn : ∀ g ∈ f.groups, g.Named) (hg : g ∈ f.groups)
    {id : String} (hid : id ∈ g.order) : id ∉ reservedNames := by
  intro hreserved
  rcases h.member_id hn hg hid with ⟨hfix, hmem⟩ | ⟨-, n, hnum⟩
  · have hdisjoint : ∀ a ∈ fixedGroups, ∀ x ∈ fixedIds a, x ∉ reservedNames := by decide
    exact hdisjoint _ hfix id hmem hreserved
  · have hdashes := dashes_of_mem_plainNames id (List.mem_append_left _ hreserved)
    rw [hnum, Numbering.dashes_idOf] at hdashes
    omega

/-- No member has the id of a group, in whichever form of a panel that is. -/
theorem member_id_ne_group_id (h : Fits f) (hn : ∀ g ∈ f.groups, g.Named) (hg : g ∈ f.groups) {id : String}
    (hid : id ∈ g.order) {f' : Form} (h' : Fits f') {g' : Group} (hg' : g' ∈ f'.groups) : g'.id ≠ id := fun heq =>
  h.member_id_not_reserved hn hg hid (heq ▸ h'.id_mem_reservedNames hg')

/-- No member has the key of a label as its id. -/
theorem member_id_ne_labelKey (h : Fits f) (hn : ∀ g ∈ f.groups, g.Named) (hg : g ∈ f.groups)
    {id id' : String} (hid : id ∈ g.order) (hid' : 1 ≤ dashes id') : id ≠ labelKey id' := by
  -- the key of a label has a dash more than the id in it
  have hle : dashes id ≤ 1 := by
    rcases h.member_id hn hg hid with ⟨hfix, hmem⟩ | ⟨-, n, rfl⟩
    · rw [dashes_of_mem_plainNames id (mem_plainNames_fixedIds hfix hmem)]
      exact Nat.zero_le 1
    · rw [Numbering.dashes_idOf, h.dashes_id hg]
  rintro rfl
  rw [dashes_labelKey] at hle
  omega

/-- **All ids of a panel are distinct**: those of members from each other and from those of groups. -/
theorem ids_nodup (h : Fits f) (hn : ∀ g ∈ f.groups, g.Named) :
    (f.groups.flatMap Group.order ++ f.groups.map (·.id)).Nodup := by
  rw [List.nodup_append']
  refine ⟨?_, h.groups_nodup, ?_⟩
  · rw [List.nodup_flatMap]
    refine ⟨fun g hg => (hn g hg).distinct, ?_⟩
    have hpairs : f.groups.Pairwise fun g g' => g.id ≠ g'.id :=
      List.pairwise_map.mp h.groups_nodup
    refine hpairs.imp_of_mem fun hg hg' hne => ?_
    intro id hid hid'
    exact hne (congrArg Group.id (h.eq_of_member_id hn hg hg' hid hid'))
  · intro id hid hid'
    obtain ⟨g, hg, hidg⟩ := List.mem_flatMap.mp hid
    obtain ⟨g', hg', rfl⟩ := List.mem_map.mp hid'
    exact h.member_id_ne_group_id hn hg hidg h hg' rfl

end Fits

end Layout

end AnyCase
