import AnyCase.Proofs.Filters

/-!
# `Proofs.Restore` — opening a panel

A panel is opened by reading its form from a store, evaluating the rules and saving what they changed.
`Layout.storedForm` is the form as it is read.

Two things are shown of it. If elements are in the store as they were written (`Layout.Sound`), the panel
that is opened is intact (`intact_restore`), and it numbers its elements above those it has read unless one of
them has the last number (`numbered_restore`). And opening a panel from the store of an intact one gives the
same panel, up to the numbers that are free, and writes nothing (`Intact.restore_eq`).
-/

namespace AnyCase

namespace Layout

variable {store : Store} {settings : Settings} {f f' : Form}

/-- The form of a store, with the rules of the settings not yet evaluated. -/
def storedForm (store : Store) (settings : Settings) : Form :=
  ⟨groups store settings.defaults, keptRules settings.rules⟩

theorem outlines_groups (store : Store) (defaults : Defaults) :
    (groups store defaults).map Group.outline = outlines := rfl

theorem make_groups (store : Store) (settings : Settings) :
    Form.make (groups store settings.defaults) settings.rules = (storedForm store settings).settle := by
  have hids : (groups store settings.defaults).map (·.id) = fixedGroups ++ filterGroups :=
    congrArg (List.map Prod.fst) (outlines_groups store settings.defaults)
  have hknown : ∀ id, (groups store settings.defaults).any (fun g => g.id = id)
      = decide (id ∈ fixedGroups ++ filterGroups) := by
    intro id
    rw [← hids, Bool.eq_iff_iff, List.any_eq_true, decide_eq_true_eq, List.mem_map]
    simp only [decide_eq_true_eq]
  show Form.settle ⟨_, _⟩ = Form.settle ⟨_, _⟩
  simp only [hknown]
  rfl

/-! ## Members as they are read -/

theorem initial_convention (defaults : Defaults) (k : Convention) :
    initial defaults k.id = defaults.case k.id := by
  have hstart : k.id ≠ startEdge := by cases k <;> decide
  have hend : k.id ≠ endEdge := by cases k <;> decide
  have hmem : k.id ∈ fixedIds conventions := by cases k <;> decide
  rw [initial, if_neg hstart, if_neg hend, if_pos hmem]

/-- An element starts unselected. -/
theorem initial_of_dashes (defaults : Defaults) {id : String} (h : 1 ≤ dashes id) :
    initial defaults id = false := by
  have hne : ∀ x ∈ plainNames, id ≠ x := by
    rintro x hx rfl
    rw [dashes_of_mem_plainNames id hx] at h
    omega
  have hmem : id ∉ fixedIds conventions := by
    intro hid
    have hplain : id ∈ plainNames := Fits.mem_plainNames_fixedIds (by decide) hid
    exact hne id hplain rfl
  rw [initial, if_neg (hne _ (by decide)), if_neg (hne _ (by decide)), if_neg hmem]

/-- A member with the value that is read for it. -/
def asStored (store : Store) (defaults : Defaults) (c : Checkbox) : Checkbox :=
  { c with selected := store.get c.id Json.flag? (initial defaults c.id) }

theorem members_conventionGroup (store : Store) (defaults : Defaults) :
    (conventionGroup store defaults).members
      = (fixedMembers conventions).map (asStored store defaults) := by
  rw [fixedMembers, if_pos rfl, List.map_map]
  refine List.map_congr_left fun k _ => ?_
  simp only [Function.comp_apply, asStored, initial_convention]

theorem members_edgeGroup (store : Store) (defaults : Defaults) :
    (edgeGroup store defaults).members = (fixedMembers edges).map (asStored store defaults) := rfl

/-- A group of the stored form is fixed, or it is a filter. -/
theorem mem_storedForm {g : Group} (hg : g ∈ (storedForm store settings).groups) :
    (g.isDynamic = false ∧ ∃ group ∈ fixedGroups,
      g.members = (fixedMembers group).map (asStored store settings.defaults) ∧ g.id = group) ∨
    (g.isDynamic = true ∧ ∃ group ∈ filterGroups, g = filterGroup store group) := by
  rcases List.mem_cons.mp hg with rfl | hg
  · exact Or.inl ⟨rfl, conventions, by decide, members_conventionGroup _ _, rfl⟩
  · rcases List.mem_cons.mp hg with rfl | hg
    · exact Or.inl ⟨rfl, edges, by decide, members_edgeGroup _ _, rfl⟩
    · obtain ⟨group, hgroup, rfl⟩ := List.mem_map.mp hg
      exact Or.inr ⟨rfl, group, hgroup, rfl⟩

theorem fits_storedForm (store : Store) (settings : Settings) : Fits (storedForm store settings) where
  outlines := outlines_groups store settings.defaults
  fixed := by
    intro g hg hfix
    obtain ⟨-, group, hgroup, hmembers, rfl⟩ | ⟨hdyn, -⟩ := mem_storedForm hg
    · have hoff : ∀ k ∈ fixedGroups, ∀ c ∈ fixedMembers k, c.cleared = c := by decide
      rw [hmembers, List.map_map]
      exact (List.map_congr_left fun c hc => hoff g.id hgroup c hc).trans (List.map_id _)
    · exact absurd (hfix.symm.trans hdyn) (by decide)

/-- The members of a fixed group have the values that are read for them. -/
theorem asStored_of_fixed {g : Group} (hg : g ∈ (storedForm store settings).groups)
    (hfix : g.isDynamic = false) : ∀ c ∈ g.members, asStored store settings.defaults c = c := by
  obtain ⟨-, group, -, hmembers, -⟩ | ⟨hdyn, -⟩ := mem_storedForm hg
  · intro c hc
    rw [hmembers] at hc
    obtain ⟨d, -, rfl⟩ := List.mem_map.mp hc
    rfl
  · exact absurd (hfix.symm.trans hdyn) (by decide)

/-! ## Elements as they were written -/

/-- The ids of the elements of a filter, in order. -/
def elements (store : Store) (group : String) : List String :=
  store.get (elementsKey group) Json.texts? []

/-- A store whose filters are read as they were written: elements are listed once, have labels, and their
numbers are read back. -/
def Sound (store : Store) : Prop :=
  ∀ group ∈ filterGroups, (elements store group).Nodup ∧ ∀ id ∈ elements store group,
    store.get (labelKey id) Json.text? "" ≠ "" ∧
      ∃ n, n < Numbering.limit ∧ id = Numbering.idOf group n

/-- A store without values has no elements. -/
theorem sound_of_empty (h : store.values = Dict.empty) : Sound store := by
  intro group _
  have hnone : elements store group = [] := by
    refine Store.get_of_raw?_eq_none ?_ Json.texts? []
    rw [Store.raw?, h, Dict.get?_empty]
  rw [hnone]
  exact ⟨List.nodup_nil, fun id hid => absurd hid List.not_mem_nil⟩

theorem element?_eq {id : String} (h : store.get (labelKey id) Json.text? "" ≠ "") :
    element? store id
      = some ⟨id, store.get (labelKey id) Json.text? "", store.get id Json.flag? false, true⟩ := by
  unfold element?
  split
  · rename_i hempty
    exact absurd hempty h
  · rfl

/-- The elements of a sound store are all read. -/
theorem Sound.members_filterGroup (h : Sound store) {group : String} (hgroup : group ∈ filterGroups) :
    (filterGroup store group).members = (elements store group).map fun id =>
      ⟨id, store.get (labelKey id) Json.text? "", store.get id Json.flag? false, true⟩ := by
  show (elements store group).filterMap (element? store) = _
  rw [← List.filterMap_eq_map]
  refine List.filterMap_congr fun id hid => ?_
  exact element?_eq ((h group hgroup).2 id hid).1

theorem Sound.order_filterGroup (h : Sound store) {group : String} (hgroup : group ∈ filterGroups) :
    (filterGroup store group).order = elements store group := by
  rw [Group.order, h.members_filterGroup hgroup, List.map_map]
  exact List.map_id _

theorem mem_storedForm_of_dynamic {g : Group} (hg : g ∈ (storedForm store settings).groups)
    (hdyn : g.isDynamic = true) : ∃ group ∈ filterGroups, g = filterGroup store group := by
  obtain ⟨hfix, -⟩ | ⟨-, hfilter⟩ := mem_storedForm hg
  · exact absurd (hfix.symm.trans hdyn) (by decide)
  · exact hfilter

theorem Sound.named (h : Sound store) : ∀ g ∈ (storedForm store settings).groups, g.Named := by
  intro g hg
  by_cases hdyn : g.isDynamic = true
  · obtain ⟨group, hgroup, rfl⟩ := mem_storedForm_of_dynamic hg hdyn
    constructor
    · rw [h.order_filterGroup hgroup]
      exact (h group hgroup).1
    · intro _ c hc
      rw [h.members_filterGroup hgroup] at hc
      obtain ⟨id, hid, rfl⟩ := List.mem_map.mp hc
      obtain ⟨hlabel, hnumber⟩ := (h group hgroup).2 id hid
      exact ⟨hlabel, rfl, hnumber⟩
  · have hfix : g.isDynamic = false := Bool.eq_false_iff.mpr hdyn
    have hfits := fits_storedForm store settings
    constructor
    · have hnodup : ∀ group ∈ fixedGroups, (fixedIds group).Nodup := by decide
      rw [hfits.order_fixed hg hfix]
      exact hnodup _ ((hfits.fixed_iff hg).mp hfix)
    · exact fun h => absurd h hdyn

/-- The numbering of a filter is made from the ids that are read, so it goes on after all of them. -/
theorem Sound.numbered (h : Sound store) {g : Group} (hg : g ∈ (storedForm store settings).groups)
    (hrange : Numbering.InRange g.id g.order) : g.Numbered := by
  refine ⟨h.named g hg, fun s hs n hn => ?_⟩
  obtain ⟨group, hgroup, rfl⟩ := mem_storedForm_of_dynamic hg (by rw [Group.isDynamic, hs]; rfl)
  have hnext : s = Numbering.after group (filterGroup store group).order := (Option.some.inj hs).symm
  rw [hnext]
  exact Numbering.lt_next_after hrange hn

theorem Sound.records (h : Sound store) : Records store (storedForm store settings) where
  order := by
    intro g hg hdyn
    obtain ⟨group, hgroup, rfl⟩ := mem_storedForm_of_dynamic hg hdyn
    exact (h.order_filterGroup hgroup).symm
  label := by
    intro g hg hdyn c hc
    obtain ⟨group, hgroup, rfl⟩ := mem_storedForm_of_dynamic hg hdyn
    rw [h.members_filterGroup hgroup] at hc
    obtain ⟨id, -, rfl⟩ := List.mem_map.mp hc
    rfl

/-- All members have the values that are read for them. -/
theorem Sound.asStored (h : Sound store) {g : Group} (hg : g ∈ (storedForm store settings).groups) :
    ∀ c ∈ g.members, asStored store settings.defaults c = c := by
  by_cases hdyn : g.isDynamic = true
  · intro c hc
    have hdashes := (h.named g hg).one_le_dashes hdyn (List.mem_map_of_mem hc)
    obtain ⟨group, hgroup, rfl⟩ := mem_storedForm_of_dynamic hg hdyn
    rw [h.members_filterGroup hgroup] at hc
    obtain ⟨id, -, rfl⟩ := List.mem_map.mp hc
    rw [Layout.asStored, initial_of_dashes _ hdashes]
  · exact asStored_of_fixed hg (Bool.eq_false_iff.mpr hdyn)

end Layout

namespace Panel

open Layout

variable {settings : Settings} {store : Store} {p : Panel}

/-! ## Opening a panel -/

theorem form_restore (store : Store) (settings : Settings) :
    (restore store settings).form = (storedForm store settings).settle := by
  rw [← make_groups]
  exact form_saveChanges _ _

/-- **Every store opens to a panel of the right shape.** -/
theorem shaped_restore (store : Store) (settings : Settings) :
    (restore store settings).Shaped settings where
  fits := by
    rw [form_restore]
    exact (fits_storedForm store settings).of_blank (Form.blank_settle _)
  consistent := by
    rw [form_restore]
    exact Form.consistent_settle _
  rules := by
    rw [form_restore]
    exact Form.rules_eq_of_blank (Form.blank_settle _)

/-- **A sound store opens to an intact panel.** What the rules changed is saved. -/
theorem intact_restore (h : Sound store) (settings : Settings) :
    (restore store settings).Intact settings := by
  have hfits := fits_storedForm store settings
  have hblank := Form.blank_settle (storedForm store settings)
  have hstored : ({
      store
      form := Form.make (groups store settings.defaults) settings.rules
      text := store.get textKey Json.text? ""
      sensitiveCase := store.get sensitiveKey Json.flag? settings.defaults.sensitiveCase
      history := History.ofList settings.historyLength (store.get historyKey Json.texts? [])
      historyLength := settings.historyLength
      unstored := Layout.unstored store } : Panel).Stored settings
        (Unsaved (storedForm store settings).values) := by
    rw [make_groups]
    refine ⟨⟨hfits.of_blank hblank, Form.consistent_settle _, Form.rules_eq_of_blank hblank⟩,
      Form.named_of_blank h.named hblank, rfl, rfl, rfl, rfl, rfl, h.records.of_blank hblank, ?_⟩
    intro g hg c hc hget
    obtain ⟨g₀, hg₀, heq⟩ := Form.exists_of_blank hblank hg
    have hcid : c.id ∈ g₀.order := by
      rw [← Group.order_eq_of_blank heq]
      exact List.mem_map_of_mem hc
    have hmember := Form.value_of_get?_values (Decidable.not_not.mp hget) fun g₁ hg₁ hid =>
      hfits.member_id_ne_group_id h.named hg₀ hcid hfits hg₁ hid
    -- the value was read under the same id, so that is what the store still says
    obtain ⟨g₁, hg₁, d, hd, hdid, hdsel⟩ := hmember
    have hread := congrArg Checkbox.selected (h.asStored hg₁ d hd)
    show store.get c.id Json.flag? (initial settings.defaults c.id) = c.selected
    rw [← hdid, ← hdsel]
    exact hread
  exact hstored.saveChanges

/-- Whether all elements have a number that is not the last one. -/
def InRange (p : Panel) : Prop := ∀ g ∈ p.form.groups, Numbering.InRange g.id g.order

instance (p : Panel) : Decidable p.InRange :=
  inferInstanceAs (Decidable (∀ g ∈ p.form.groups, Numbering.InRange g.id g.order))

/-- A panel that is opened numbers its elements above those it has read, if there is such a number. -/
theorem numbered_restore (h : Sound store) (hrange : (restore store settings).InRange) :
    ∀ g ∈ (restore store settings).form.groups, g.Numbered := by
  have hblank : (restore store settings).form.blank = (storedForm store settings).blank := by
    rw [form_restore]
    exact Form.blank_settle _
  intro g hg
  obtain ⟨g₀, hg₀, heq⟩ := Form.exists_of_blank hblank hg
  have hrange₀ := hrange g hg
  rw [Group.id_eq_of_blank heq, Group.order_eq_of_blank heq] at hrange₀
  exact (h.numbered hg₀ hrange₀).of_blank heq

/-- The store of an intact panel is sound. -/
theorem Intact.sound (h : p.Intact settings) : Sound p.store := by
  intro group hgroup
  obtain ⟨g, hg, rfl⟩ := h.fits.exists_group (List.mem_append_right _ hgroup)
  have hdyn := (h.fits.dynamic_iff hg).mpr hgroup
  have helements : elements p.store g.id = g.order := h.records.order g hg hdyn
  rw [helements]
  refine ⟨(h.named g hg).distinct, fun id hid => ?_⟩
  obtain ⟨c, hc, rfl⟩ := List.mem_map.mp hid
  obtain ⟨hlabel, -, hnumber⟩ := (h.named g hg).element hdyn c hc
  rw [h.records.label g hg hdyn c hc]
  exact ⟨hlabel, hnumber⟩

/-! ## Opening a panel again -/

/-- The members of a group are read from the store of an intact panel as they are. -/
theorem Intact.members_eq (h : p.Intact settings) {g g' : Group}
    (hg : g ∈ (storedForm p.store settings).groups) (hg' : g' ∈ p.form.groups)
    (houtline : g.outline = g'.outline) : g.members = g'.members := by
  have hid := Group.id_eq_of_outline houtline
  have hdyn := Group.isDynamic_eq_of_outline houtline
  -- an absent value stands for the default, which `Valued` has taken into account
  have hvalue : ∀ c ∈ g'.members, p.store.get c.id Json.flag? (initial settings.defaults c.id)
      = c.selected := fun c hc => h.values g' hg' c hc not_false
  obtain ⟨hfix, group, -, hmembers, rfl⟩ | ⟨hdyn₀, group, hgroup, rfl⟩ := mem_storedForm hg
  · rw [hmembers, hid, ← h.fits.fixed g' hg' (hdyn ▸ hfix), List.map_map]
    refine (List.map_congr_left fun c hc => ?_).trans (List.map_id _)
    show asStored p.store settings.defaults c.cleared = c
    rw [asStored, Checkbox.cleared_id, hvalue c hc]
    rfl
  · have hdyn' : g'.isDynamic = true := hdyn ▸ hdyn₀
    have horder : elements p.store group = g'.members.map (·.id) := by
      have hrecord := h.records.order g' hg' hdyn'
      rw [← hid] at hrecord
      exact hrecord
    show (elements p.store group).filterMap (element? p.store) = g'.members
    rw [horder, List.filterMap_map]
    refine (List.filterMap_congr fun c hc => ?_).trans (List.filterMap_some)
    obtain ⟨hlabel, heditable, -⟩ := (h.named g' hg').element hdyn' c hc
    have hdashes := (h.named g' hg').one_le_dashes hdyn' (List.mem_map_of_mem hc)
    have hread := hvalue c hc
    rw [initial_of_dashes _ hdashes] at hread
    have hrecord := h.records.label g' hg' hdyn' c hc
    rw [Function.comp_apply, element?_eq (hrecord ▸ hlabel), hrecord, hread, ← heditable]

/-- The ids that are read from the store of an intact panel are distinct. -/
theorem Intact.storedIds_nodup (h : p.Intact settings) :
    ((storedForm p.store settings).groups.flatMap Group.order
      ++ (storedForm p.store settings).groups.map (·.id)).Nodup := by
  have hfits := fits_storedForm p.store settings
  have horder : (storedForm p.store settings).groups.map Group.order = p.form.groups.map Group.order :=
    map_eq_of_map_eq (hfits.outlines.trans h.fits.outlines.symm) fun g hg g' hg' houtline =>
      congrArg (List.map Checkbox.id) (h.members_eq hg hg' houtline)
  rw [List.flatMap_def, horder, ← List.flatMap_def, hfits.groups_ids, ← h.fits.groups_ids]
  exact h.fits.ids_nodup h.named

/-- Where nothing has changed, nothing is written. -/
theorem saveChanges_of_same {before : Dict Bool}
    (h : ∀ g ∈ p.form.groups, ∀ c ∈ g.members, before.get? c.id = some c.selected) :
    p.saveChanges before = p := by
  have hnone : (p.form.groups.flatMap (·.members)).filter
      (fun c => before.get? c.id ≠ some c.selected) = [] := by
    rw [List.filter_eq_nil_iff]
    intro c hc
    obtain ⟨g, hg, hcg⟩ := List.mem_flatMap.mp hc
    simp [h g hg c hcg]
  rw [saveChanges, hnone]
  rfl

/-- **Opening a panel from the store of an intact one gives the same panel and writes nothing.** The form
is the same but for the numbers that are free. -/
theorem Intact.restore_eq (h : p.Intact settings) :
    (restore p.store settings).form.unnumbered = p.form.unnumbered ∧
      restore p.store settings = { p with form := (restore p.store settings).form } := by
  have hfits := fits_storedForm p.store settings
  have hgroups : (storedForm p.store settings).groups.map (fun g => g.unnumbered.bare)
      = p.form.groups.map (fun g => g.unnumbered.bare) :=
    map_eq_of_map_eq (hfits.outlines.trans h.fits.outlines.symm) fun g hg g' hg' houtline =>
      Group.unnumbered_bare_eq houtline (h.members_eq hg hg' houtline)
  have hbare : (storedForm p.store settings).unnumbered.bare = p.form.unnumbered.bare := by
    show Form.mk _ _ = Form.mk _ _
    rw [Form.unnumbered, Form.unnumbered, List.map_map, List.map_map]
    exact congrArg₂ Form.mk hgroups h.rules.symm
  -- the form was in order when it was stored, so the rules change no member
  obtain ⟨hsettled, hform⟩ := h.consistent.settle_of_bare hbare
  constructor
  · rw [form_restore]
    exact hform
  · have hsame : ∀ g ∈ (storedForm p.store settings).settle.groups, ∀ c ∈ g.members,
        (storedForm p.store settings).values.get? c.id = some c.selected := by
      intro g hg c hc
      have hmem : g.bare ∈ (storedForm p.store settings).groups.map Group.bare := by
        rw [← (Form.mk.inj hsettled).1]
        exact List.mem_map_of_mem hg
      obtain ⟨g₀, hg₀, heq⟩ := List.mem_map.mp hmem
      have hmembers : g₀.bare.members = g.bare.members := by rw [heq]
      exact Form.get?_values h.storedIds_nodup hg₀ (hmembers ▸ hc)
    unfold restore
    rw [saveChanges_of_same]
    · rw [h.text, h.sensitiveCase, ← h.historyLength, h.history, ← h.unstored]
    · rw [make_groups]
      exact hsame

end Panel

end AnyCase
