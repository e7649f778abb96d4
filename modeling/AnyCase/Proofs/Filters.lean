import AnyCase.Proofs.Change

/-!
# `Proofs.Filters` — an edit of a filter keeps the panel intact

An edit first changes the form and the records of the edited group, which are the list of its elements and
their labels, and then saves the values that differ from those before. `Intact.edited` is about the first
step: it says what an edit must do to the store so that it leaves an intact panel with only those values
pending. What that step is for each of the five edits is told once (`Changed`); `Intact.change?` shows that each
of them does what it must, and `Intact.edit?` puts the two steps together. What an edit does to the form is what
the form alone makes of it (`form_edit?`).
-/

namespace AnyCase

namespace Panel

open Layout

variable {settings : Settings} {p p' : Panel} {group : String} {e : Edit} {f : Form} {g g₁ : Group}

/-! ## Saving the order -/

theorem unstored_congr {s s' : Store}
    (h : ∀ k ∈ filterGroups, s'.raw? (elementsKey k) = s.raw? (elementsKey k)) :
    Layout.unstored s' = Layout.unstored s :=
  List.filter_congr fun k hk => by rw [Store.contains_congr (h k hk)]

/-- Once its elements are stored, a group is not unstored any more. -/
theorem unstored_set_elementsKey (s : Store) (group : String) (v : Json) :
    Layout.unstored (s.set (elementsKey group) v) = (Layout.unstored s).filter (· ≠ group) := by
  unfold Layout.unstored
  rw [List.filter_filter]
  refine List.filter_congr fun k _ => ?_
  rw [Store.contains, Store.raw?_set]
  by_cases hk : k = group
  · simp [hk]
  · rw [if_neg fun heq => hk (elementsKey_inj heq), decide_eq_true hk, Bool.true_and, Store.contains]

theorem saveOrder_eq (hg : p.form.group? group = some g) :
    p.saveOrder group = { p with
      store := p.store.set (elementsKey group) (Json.ofTexts g.order)
      unstored := p.unstored.filter (· ≠ group) } := by
  unfold saveOrder
  rw [hg]
  rfl

theorem saveOrder_frame (p : Panel) (group : String) :
    ∃ s u, p.saveOrder group = { p with store := s, unstored := u } := by
  unfold saveOrder
  split
  · exact ⟨_, _, rfl⟩
  · exact ⟨p.store, p.unstored, rfl⟩

theorem form_saveOrder (p : Panel) (group : String) : (p.saveOrder group).form = p.form := by
  obtain ⟨s, u, hsave⟩ := saveOrder_frame p group
  rw [hsave]

/-- After an edit the new order is stored. -/
theorem saveOrder_edited (hform : p.form.edit? group e = .ok f) (hg : p.form.group? group = some g)
    (hedit : g.edit? e = .ok g₁) (s : Store) : { p with form := f, store := s }.saveOrder group = { p with
      form := f
      store := s.set (elementsKey group) (Json.ofTexts g₁.order)
      unstored := p.unstored.filter (· ≠ group) } := by
  obtain ⟨-, -, hid₁, hf⟩ := Form.edit?_of_group? hform hg hedit
  obtain ⟨g₂, hg₂, hblank⟩ := Form.group?_edited hg hid₁ (e.selects group)
  rw [← hf] at hg₂
  rw [← Group.order_eq_of_blank hblank]
  exact saveOrder_eq hg₂

/-! ## The records of a group -/

/-- Whether a key is about the elements of a group that becomes another one: their list, their labels, or
the value of one that is removed. -/
def Concerns (g g₁ : Group) (key : String) : Prop :=
  key = elementsKey g.id ∨ (∃ id, (id ∈ g.order ∨ id ∈ g₁.order) ∧ key = labelKey id) ∨
    (key ∈ g.order ∧ key ∉ g₁.order)

/-- The other fixed keys are not about the elements of the group. -/
theorem Intact.not_concerns_fixed (h : p.Intact settings) (hg : g ∈ p.form.groups) {key : String}
    (hkey : key ∈ fixedKeys) (hne : key ≠ elementsKey g.id) : ¬Concerns g g₁ key := by
  rintro (heq | ⟨id, -, rfl⟩ | ⟨hmem, -⟩)
  · exact hne heq
  · exact labelKey_not_mem_fixedKeys id hkey
  · exact h.fits.member_id_not_reserved h.named hg hmem (List.mem_append_left _ hkey)

section Numbered

/- An edit that adds an element gives it an id of its own if there is a number above those of the others. -/
variable (hn : p.form.NumberedAt group)

include hn

/-- The elements of another filter have other labels. -/
theorem Intact.not_concerns_label (h : p.Intact settings) (hg : p.form.group? group = some g)
    (hdyn : g.isDynamic = true) (hedit : g.edit? e = .ok g₁) {g' : Group} (hg' : g' ∈ p.form.groups)
    (hdyn' : g'.isDynamic = true) (hne : g'.id ≠ g.id) {c : Checkbox} (hc : c ∈ g'.members) :
    ¬Concerns g g₁ (labelKey c.id) := by
  have hmem := Form.mem_of_group? hg
  have hcid : c.id ∈ g'.order := List.mem_map_of_mem hc
  have hfilter := (h.fits.dynamic_iff hmem).mp hdyn
  have houtline := Group.outline_edit? hedit
  rintro (heq | ⟨id, hid, heq⟩ | ⟨hin, -⟩)
  · exact labelKey_ne_elementsKey c.id hfilter heq
  · obtain rfl := labelKey_inj heq
    obtain ⟨n', hn'⟩ := (h.named g' hg').id_of_mem hdyn' hcid
    -- an element of the edited group, before or after the edit, is named after it
    have hnamed : ∃ n, c.id = Numbering.idOf g.id n := by
      rcases hid with hin | hin
      · exact (h.named g hmem).id_of_mem hdyn hin
      · have hdyn₁ := (Group.isDynamic_eq_of_outline houtline).trans hdyn
        rw [← Group.id_eq_of_outline houtline]
        exact ((hn g hg).named_edit? hedit).id_of_mem hdyn₁ hin
    obtain ⟨n, hn⟩ := hnamed
    exact hne (Numbering.idOf_group_inj (h.fits.dashes_id hg') (h.fits.dashes_id hmem) (hn'.symm.trans hn))
  · have hdashes := (h.named g' hg').one_le_dashes hdyn' hcid
    exact h.fits.member_id_ne_labelKey h.named hmem hin hdashes rfl

/-- The members after an edit keep their values in the store. -/
theorem Intact.not_concerns_value (h : p.Intact settings) (hform : p.form.edit? group e = .ok f)
    (hg : p.form.group? group = some g) (hedit : g.edit? e = .ok g₁) {g' : Group} (hg' : g' ∈ f.groups)
    {c : Checkbox} (hc : c ∈ g'.members) : ¬Concerns g g₁ c.id := by
  have hmem := Form.mem_of_group? hg
  have hnot := (h.fits.edit? hform).not_isRecord (Form.named_edit? h.named hn hform) hg' hc
  obtain ⟨hdyn, hid₀, hid₁, rfl⟩ := Form.edit?_of_group? hform hg hedit
  have hdyn₁ := (Group.isDynamic_eq_of_outline (Group.outline_edit? hedit)).trans hdyn
  rintro (heq | ⟨id, hid, heq⟩ | ⟨hin, hout⟩)
  -- a key of the list or of a label is a record, and no member has such an id
  · exact hnot (heq ▸ isRecord_of_mem (mem_fixedKeys_elementsKey ((h.fits.dynamic_iff hmem).mp hdyn)))
  · apply hnot
    rw [heq]
    rcases hid with hid | hid
    · obtain ⟨d, hd, rfl⟩ := List.mem_map.mp hid
      exact isRecord_labelKey (h.named g hmem) hdyn hd
    · obtain ⟨d, hd, rfl⟩ := List.mem_map.mp hid
      exact isRecord_labelKey ((hn g hg).named_edit? hedit) hdyn₁ hd
  · -- a removed element is in no group any more, since its id tells its group
    obtain ⟨g₂, hblank, hg₂⟩ := Form.mem_groups_edited h.fits.groups_nodup hg'
    have hcid : c.id ∈ g₂.order := by
      rw [← Group.order_eq_of_blank hblank]
      exact List.mem_map_of_mem hc
    rcases hg₂ with rfl | ⟨hold, hne⟩
    · exact hout hcid
    · obtain rfl := h.fits.eq_of_member_id h.named hmem hold hin hcid
      exact hne (hid₀.trans hid₁.symm)

/-- **What an edit must do to the store.** If the store differs in the records of the edited group only,
and has the new ones, then the values of members are all that is left to write. -/
theorem Intact.edited (h : p.Intact settings) (hform : p.form.edit? group e = .ok f)
    (hg : p.form.group? group = some g) (hedit : g.edit? e = .ok g₁) {s : Store}
    {unstored : List String} (hunstored : unstored = Layout.unstored s)
    (hframe : ∀ key, ¬Concerns g g₁ key → s.raw? key = p.store.raw? key)
    (horder : s.get (elementsKey g.id) Json.texts? [] = g₁.order)
    (hlabel : ∀ c ∈ g₁.members, s.get (labelKey c.id) Json.text? "" = c.label) :
    { p with form := f, store := s, unstored := unstored }.Stored settings (Unsaved p.form.values) := by
  have hmem : g ∈ p.form.groups := Form.mem_of_group? hg
  have hfits : Fits f := h.fits.edit? hform
  have hnamed := Form.named_edit? h.named hn hform
  obtain ⟨hdyn, hid₀, hid₁, hf⟩ := Form.edit?_of_group? hform hg hedit
  -- every dynamic group after the edit is the new one, or another one that was there
  have hgroups : ∀ g' ∈ f.groups, g'.isDynamic = true → ∃ g₂, g'.blank = g₂.blank ∧
      (g₂ = g₁ ∨ (g₂ ∈ p.form.groups ∧ g₂.id ≠ g.id ∧ g₂.isDynamic = true)) := by
    intro g' hg' hdyn'
    rw [hf] at hg'
    obtain ⟨g₂, hblank, hg₂⟩ := Form.mem_groups_edited h.fits.groups_nodup hg'
    refine ⟨g₂, hblank, hg₂.imp id fun hold => ⟨hold.1, ?_, Group.isDynamic_of_blank hblank ▸ hdyn'⟩⟩
    rw [hid₀, ← hid₁]
    exact hold.2
  have hfixed : ∀ key ∈ fixedKeys, key ≠ elementsKey g.id → s.raw? key = p.store.raw? key :=
    fun key hkey hne => hframe key (h.not_concerns_fixed hmem hkey hne)
  have hown : ∀ key ∈ ownKeys, s.raw? key = p.store.raw? key := by
    have hkeys : ∀ key ∈ ownKeys, key ∈ fixedKeys ∧ ∀ k ∈ filterGroups, key ≠ elementsKey k := by decide
    intro key hkey
    exact hfixed key (hkeys key hkey).1 ((hkeys key hkey).2 _ ((h.fits.dynamic_iff hmem).mp hdyn))
  refine ⟨⟨hfits, Form.consistent_edit? h.consistent hform, (Form.rules_edit? hform).trans h.rules⟩,
    hnamed, h.historyLength, ?_, ?_, ?_, hunstored, ⟨?_, ?_⟩, ?_⟩
  · exact (Store.get_congr (hown _ (by decide)) _ _).trans h.text
  · exact (Store.get_congr (hown _ (by decide)) _ _).trans h.sensitiveCase
  · show History.ofList p.historyLength (s.get historyKey Json.texts? []) = p.history
    rw [Store.get_congr (hown _ (by decide))]
    exact h.history
  · intro g' hg' hdyn'
    show s.get (elementsKey g'.id) Json.texts? [] = g'.order
    obtain ⟨g₂, hblank, rfl | ⟨hold, hne, hdyn₂⟩⟩ := hgroups g' hg' hdyn'
    · rw [Group.id_eq_of_blank hblank, Group.order_eq_of_blank hblank, hid₁, ← hid₀]
      exact horder
    · rw [Group.id_eq_of_blank hblank, Group.order_eq_of_blank hblank, ← h.records.order g₂ hold hdyn₂]
      have hkey := mem_fixedKeys_elementsKey ((h.fits.dynamic_iff hold).mp hdyn₂)
      exact Store.get_congr (hfixed _ hkey fun heq => hne (elementsKey_inj heq)) _ _
  · intro g' hg' hdyn'
    obtain ⟨g₂, hblank, rfl | ⟨hold, hne, hdyn₂⟩⟩ := hgroups g' hg' hdyn'
    · exact Group.label_of_blank hblank (fun id => s.get (labelKey id) Json.text? "") hlabel
    · refine Group.label_of_blank hblank (fun id => s.get (labelKey id) Json.text? "") fun c hc => ?_
      have hkey := hframe _ (h.not_concerns_label hn hg hdyn hedit hold hdyn₂ hne hc)
      exact (Store.get_congr hkey _ _).trans (h.records.label g₂ hold hdyn₂ c hc)
  · intro g' hg' c hc hget
    have hvalued : p.Valued settings c := by
      refine h.valued_before (fun g₂ hg₂ hid => ?_) (Decidable.not_not.mp hget)
      have hcid : c.id ∈ g'.order := List.mem_map_of_mem hc
      exact hfits.member_id_ne_group_id hnamed hg' hcid h.fits hg₂ hid
    have hkey := hframe _ (h.not_concerns_value hn hform hg hedit hg' hc)
    exact (Store.get_congr hkey _ _).trans hvalued

/-- An edit that has stored the labels and then stores the order. -/
theorem Intact.edited_saveOrder (h : p.Intact settings) (hform : p.form.edit? group e = .ok f)
    (hg : p.form.group? group = some g) (hedit : g.edit? e = .ok g₁) {s : Store}
    (hframe : ∀ key, ¬Concerns g g₁ key → s.raw? key = p.store.raw? key)
    (helements : ∀ k ∈ filterGroups, s.raw? (elementsKey k) = p.store.raw? (elementsKey k))
    (hlabel : ∀ c ∈ g₁.members, s.get (labelKey c.id) Json.text? "" = c.label) :
    ({ p with form := f, store := s }.saveOrder group).Stored settings (Unsaved p.form.values) := by
  obtain ⟨hdyn, hid₀, -, -⟩ := Form.edit?_of_group? hform hg hedit
  have hfilter : group ∈ filterGroups := by
    rw [← hid₀]
    exact (h.fits.dynamic_iff (Form.mem_of_group? hg)).mp hdyn
  rw [saveOrder_edited hform hg hedit]
  refine h.edited hn hform hg hedit ?_ (fun key hkey => ?_) ?_ (fun c hc => ?_)
  · rw [unstored_set_elementsKey, unstored_congr helements, h.unstored]
  · have hne : key ≠ elementsKey group := fun heq => hkey (Or.inl (hid₀.symm ▸ heq))
    rw [Store.raw?_set_of_ne hne]
    exact hframe key hkey
  · have hraw : (s.set (elementsKey group) (Json.ofTexts g₁.order)).raw? (elementsKey g.id)
        = some (Json.ofTexts g₁.order) := by
      rw [hid₀, Store.raw?_set, if_pos rfl, Json.settled_ofTexts]
    rw [Store.get_of_raw? hraw, Json.texts?_ofTexts, Option.getD_some]
  · rw [← hlabel c hc]
    exact Store.get_congr (Store.raw?_set_of_ne (labelKey_ne_elementsKey c.id hfilter)) _ _

end Numbered

/-! ## The five edits -/

/-- The labels of the members after one of them was relabelled. -/
theorem label_relabelled (hd : g.order.Nodup) (id label : String) (read : String → String)
    (h : ∀ c ∈ g.members, read c.id = c.label) :
    ∀ c ∈ (g.modifyMember id (fun c => { c with label := label })).members,
      (if c.id = id then label else read c.id) = c.label := by
  intro c hc
  have hmap : c ∈ g.members.map fun d => if d.id = id then { d with label := label } else d := by
    rw [← modifyFirst_eq_map hd]
    exact hc
  obtain ⟨d, hmem, rfl⟩ := List.mem_map.mp hmap
  by_cases hid : d.id = id
  · rw [if_pos hid, if_pos hid]
  · rw [if_neg hid, if_neg hid]
    exact h d hmem

/-- The ids of the members that are left when one is removed. -/
theorem order_eraseP (members : List Checkbox) (id : String) :
    (members.eraseP (fun c => c.id = id)).map (·.id) = (members.map (·.id)).erase id := by
  induction members with
  | nil => rfl
  | cons c rest ih =>
    rw [List.map_cons, List.erase_cons, List.eraseP_cons, ← ih]
    by_cases hid : c.id = id
    · simp [hid]
    · simp [hid]

section Steps

variable (hn : p.form.NumberedAt group)

include hn

/-- Setting elements stores nothing yet. -/
theorem Intact.setElements? (h : p.Intact settings) {values : Dict Bool}
    (hset : p.form.setElements? group values = .ok f) :
    { p with form := f }.Stored settings (Unsaved p.form.values) := by
  rw [Form.setElements?_eq] at hset
  obtain ⟨g, g₁, hg, hdyn, hid, hedit, -, -⟩ := Form.edit?_spec hset
  have hmem := Form.mem_of_group? hg
  have hblank : g₁.blank = g.blank := Group.blank_of_edit?_set hedit
  refine h.edited hn hset hg hedit h.unstored (fun _ _ => rfl) ?_ ?_
  · rw [h.records.order g hmem hdyn, Group.order_eq_of_blank hblank]
  · exact Group.label_of_blank hblank (fun id => p.store.get (labelKey id) Json.text? "")
      (h.records.label g hmem hdyn)

/-- Adding an element stores its label and the order. -/
theorem Intact.add? (h : p.Intact settings) {label id : String} {selected : Bool}
    {proposed : Option String} (hadd : p.form.add? group label selected proposed = .ok (id, f)) :
    (({ p with form := f }.record (labelKey id) (.str label)).saveOrder group).Stored settings
      (Unsaved p.form.values) := by
  obtain ⟨g, g₁, hg, hdyn, hadd₁, hform⟩ := Form.add?_spec hadd
  obtain ⟨_, _, _, _, _, hmembers, _, _, _⟩ := Group.add?_spec hadd₁
  have hmem := Form.mem_of_group? hg
  have hedit : g.edit? (.add label selected proposed) = .ok g₁ := map_eq_ok_iff.mpr ⟨_, hadd₁, rfl⟩
  have horder := Group.order_add? hadd₁
  -- the label of the new element overwrites none of another one
  have hnew : id ∉ g.order := (hn g hg).not_mem_of_add? hadd₁
  refine h.edited_saveOrder hn hform hg hedit (fun key hkey => ?_) (fun k hk => ?_) (fun c hc => ?_)
  · refine Store.raw?_set_of_ne fun heq => hkey (Or.inr (Or.inl ⟨id, Or.inr ?_, heq⟩))
    rw [horder]
    exact List.mem_append_right _ List.mem_cons_self
  · exact Store.raw?_set_of_ne (labelKey_ne_elementsKey id hk).symm
  · rw [hmembers] at hc
    rcases List.mem_append.mp hc with hc | hc
    · rw [← h.records.label g hmem hdyn c hc]
      refine Store.get_congr (Store.raw?_set_of_ne fun heq => hnew ?_) _ _
      rw [← labelKey_inj heq]
      exact List.mem_map_of_mem hc
    · obtain rfl := List.mem_singleton.mp hc
      have hraw : (p.store.set (labelKey id) (.str label)).raw? (labelKey id) = some (.str label) := by
        rw [Store.raw?_set, if_pos rfl]
        rfl
      exact Store.get_of_raw? hraw Json.text? ""

/-- Amending an element stores its label. -/
theorem Intact.amend? (h : p.Intact settings) {id label : String} {selected : Bool}
    (hamend : p.form.amend? group id label selected = .ok f) :
    ({ p with form := f }.record (labelKey id) (.str label)).Stored settings
      (Unsaved p.form.values) := by
  rw [Form.amend?_eq] at hamend
  obtain ⟨g, g₁, hg, hdyn, -, hedit, -, -⟩ := Form.edit?_spec hamend
  obtain ⟨g₂, hrelabel, hset⟩ := bind_eq_ok_iff.mp hedit
  obtain ⟨_, hcontains, rfl⟩ := Group.relabel?_spec hrelabel
  have hmem := Form.mem_of_group? hg
  have hblank := Group.blank_of_set? hset
  have horder : g₁.order = g.order := by
    rw [Group.order_eq_of_blank hblank]
    exact Group.map_members_modifyMember (fun _ => by rfl) g id
  have hidmem : id ∈ g.order := by
    obtain ⟨c, hc⟩ := Option.isSome_iff_exists.mp hcontains
    exact Group.mem_order_of_member? hc
  have helements : ∀ k ∈ filterGroups,
      (p.store.set (labelKey id) (.str label)).raw? (elementsKey k) = p.store.raw? (elementsKey k) := by
    intro k hk
    exact Store.raw?_set_of_ne (labelKey_ne_elementsKey id hk).symm
  have hread : ∀ k, (p.store.set (labelKey id) (.str label)).get (labelKey k) Json.text? ""
      = if k = id then label else p.store.get (labelKey k) Json.text? "" := by
    intro k
    by_cases hk : k = id
    · rw [if_pos hk, hk, Store.get, Store.raw?_set, if_pos rfl]
      rfl
    · rw [if_neg hk]
      exact Store.get_congr (Store.raw?_set_of_ne fun heq => hk (labelKey_inj heq)) _ _
  refine h.edited hn hamend hg hedit ?_ (fun key hkey => ?_) ?_ (fun c hc => ?_)
  · exact h.unstored.trans (unstored_congr helements).symm
  · exact Store.raw?_set_of_ne fun heq => hkey (Or.inr (Or.inl ⟨id, Or.inl hidmem, heq⟩))
  · rw [horder, ← h.records.order g hmem hdyn]
    exact Store.get_congr (helements _ ((h.fits.dynamic_iff hmem).mp hdyn)) _ _
  · have hrelabelled := label_relabelled (h.named g hmem).distinct id label
      (fun k => p.store.get (labelKey k) Json.text? "") (h.records.label g hmem hdyn)
    have hlabel := Group.label_of_blank hblank
      (fun k => if k = id then label else p.store.get (labelKey k) Json.text? "") hrelabelled
    exact (hread c.id).trans (hlabel c hc)

/-- Removing an element deletes its value and its label, and stores the order. -/
theorem Intact.remove? (h : p.Intact settings) {id : String} {removed : Checkbox}
    (hremove : p.form.remove? group id = .ok (removed, f)) :
    ((({ p with form := f }.forget id).forget (labelKey id)).saveOrder group).Stored settings
      (Unsaved p.form.values) := by
  obtain ⟨g, g₁, hg, hdyn, hremove₁, hform⟩ := Form.remove?_spec hremove
  obtain ⟨hfound, hmembers, _, _, _⟩ := Group.remove?_spec hremove₁
  have hmem := Form.mem_of_group? hg
  have hedit : g.edit? (.remove id) = .ok g₁ := map_eq_ok_iff.mpr ⟨_, hremove₁, rfl⟩
  have hidmem : id ∈ g.order := Group.mem_order_of_member? hfound
  -- the id stood for one element only, so its keys are free to go
  have hgone : id ∉ g₁.order := by
    have horder : g₁.order = g.order.erase id := by
      rw [Group.order, hmembers]
      exact order_eraseP g.members id
    rw [horder]
    exact (h.named g hmem).distinct.not_mem_erase
  have hraw : ∀ key, key ≠ id → key ≠ labelKey id →
      ((p.store.delete id).delete (labelKey id)).raw? key = p.store.raw? key := by
    intro key hne hne'
    rw [Store.raw?_delete_of_ne hne', Store.raw?_delete_of_ne hne]
  refine h.edited_saveOrder hn hform hg hedit (fun key hkey => ?_) (fun k hk => ?_) (fun c hc => ?_)
  · refine hraw key (fun heq => ?_) fun heq => ?_
    · exact hkey (Or.inr (Or.inr (heq ▸ ⟨hidmem, hgone⟩)))
    · exact hkey (Or.inr (Or.inl ⟨id, Or.inl hidmem, heq⟩))
  · refine hraw _ (fun heq => ?_) (labelKey_ne_elementsKey id hk).symm
    exact h.fits.member_id_not_reserved h.named hmem hidmem
      (heq ▸ List.mem_append_left _ (mem_fixedKeys_elementsKey hk))
  · have hcid : c.id ≠ id := fun heq => hgone (heq ▸ List.mem_map_of_mem hc)
    have hold : c ∈ g.members := by
      rw [hmembers] at hc
      exact List.eraseP_subset hc
    rw [← h.records.label g hmem hdyn c hold]
    refine Store.get_congr (hraw _ (fun heq => ?_) fun heq => hcid (labelKey_inj heq)) _ _
    have hdashes := (h.named g hmem).one_le_dashes hdyn (List.mem_map_of_mem hold)
    exact h.fits.member_id_ne_labelKey h.named hmem hidmem hdashes heq.symm

/-- Reordering elements stores the order. -/
theorem Intact.reorder? (h : p.Intact settings) {ids : List String}
    (hreorder : p.form.reorder? group ids = .ok f) :
    ({ p with form := f }.saveOrder group).Stored settings (Unsaved p.form.values) := by
  rw [Form.reorder?_eq h.consistent] at hreorder
  obtain ⟨g, g₁, hg, hdyn, -, hedit, -, -⟩ := Form.edit?_spec hreorder
  refine h.edited_saveOrder hn hreorder hg hedit (fun _ _ => rfl) (fun _ _ => rfl) fun c hc => ?_
  rw [Group.reorder?_spec hedit] at hc
  have hmem := (Group.drawFirst_perm ids g.members).subset hc
  exact h.records.label g (Form.mem_of_group? hg) hdyn c hmem

end Steps

/-! ## Edits -/

variable {due : Due} {searched : Bool}

/-- What the first step of each edit does to a panel, and what search is due for it. -/
inductive Changed (p : Panel) (group : String) : Edit → Due → Panel → Prop
  | set {values : Dict Bool} {f : Form} (hset : p.form.setElements? group values = .ok f) :
    Changed p group (.set values) .yes { p with form := f }
  | add {label id : String} {selected : Bool} {proposed : Option String} {f : Form}
    (hadd : p.form.add? group label selected proposed = .ok (id, f)) :
    Changed p group (.add label selected proposed) .yes
      (({ p with form := f }.record (labelKey id) (.str label)).saveOrder group)
  | amend {id label : String} {selected : Bool} {f : Form}
    (hamend : p.form.amend? group id label selected = .ok f) :
    Changed p group (.amend id label selected)
      (if ((p.form.group? group).bind (·.member? id)).any (·.selected) then .yes else .no)
      ({ p with form := f }.record (labelKey id) (.str label))
  | remove {id : String} {removed : Checkbox} {f : Form}
    (hremove : p.form.remove? group id = .ok (removed, f)) :
    Changed p group (.remove id) (if removed.selected then .yes else .ifFiltersChanged)
      ((({ p with form := f }.forget id).forget (labelKey id)).saveOrder group)
  | reorder {ids : List String} {f : Form} (hreorder : p.form.reorder? group ids = .ok f) :
    Changed p group (.reorder ids) .ifFiltersChanged ({ p with form := f }.saveOrder group)

/-- An edit that is made changes the panel as it says. -/
theorem changed_of_change? (h : p.change? group e = .ok (due, p')) : p.Changed group e due p' := by
  cases e with
  | set values =>
    obtain ⟨f, hset, heq⟩ := bind_eq_ok_iff.mp h
    obtain ⟨rfl, rfl⟩ := Prod.mk.inj (Except.ok.inj heq)
    exact .set hset
  | add label selected proposed =>
    obtain ⟨⟨id, f⟩, hadd, heq⟩ := bind_eq_ok_iff.mp h
    obtain ⟨rfl, rfl⟩ := Prod.mk.inj (Except.ok.inj heq)
    exact .add hadd
  | amend id label selected =>
    obtain ⟨f, hamend, heq⟩ := bind_eq_ok_iff.mp h
    obtain ⟨rfl, rfl⟩ := Prod.mk.inj (Except.ok.inj heq)
    exact .amend hamend
  | remove id =>
    obtain ⟨⟨removed, f⟩, hremove, heq⟩ := bind_eq_ok_iff.mp h
    obtain ⟨rfl, rfl⟩ := Prod.mk.inj (Except.ok.inj heq)
    exact .remove hremove
  | reorder ids =>
    obtain ⟨f, hreorder, heq⟩ := bind_eq_ok_iff.mp h
    obtain ⟨rfl, rfl⟩ := Prod.mk.inj (Except.ok.inj heq)
    exact .reorder hreorder

/-- The first step of an edit changes the form, and what is stored of it. -/
theorem change?_frame (h : p.change? group e = .ok (due, p')) :
    ∃ s u, p' = { p with store := s, form := p'.form, unstored := u } := by
  have hsaved : ∀ {q : Panel} {f : Form} {s : Store}, q = { p with form := f, store := s } →
      ∃ s u, q.saveOrder group = { p with store := s, form := (q.saveOrder group).form, unstored := u } := by
    rintro q f s rfl
    obtain ⟨s', u, hsave⟩ := saveOrder_frame { p with form := f, store := s } group
    rw [hsave]
    exact ⟨s', u, rfl⟩
  cases changed_of_change? h with
  | set hset => exact ⟨_, _, rfl⟩
  | add hadd => exact hsaved rfl
  | amend hamend => exact ⟨_, _, rfl⟩
  | remove hremove => exact hsaved rfl
  | reorder hreorder => exact hsaved rfl

/-- An edit changes the form, and what is stored of it. -/
theorem edit?_changes (h : p.edit? group e = .ok (searched, p')) :
    ∃ s u, p' = { p with store := s, form := p'.form, unstored := u } := by
  obtain ⟨⟨due, p₁⟩, hchange, heq⟩ := bind_eq_ok_iff.mp h
  obtain ⟨-, rfl⟩ := Prod.mk.inj (Except.ok.inj heq)
  obtain ⟨s, u, hframe⟩ := change?_frame hchange
  obtain ⟨s', hsaved⟩ := saveChanges_eq p₁ p.form.values
  refine ⟨s', u, ?_⟩
  rw [hsaved, hframe]

/-- An edit of a panel leaves what is not in the form alone. -/
theorem edit?_frame (h : p.edit? group e = .ok (searched, p')) :
    p'.text = p.text ∧ p'.sensitiveCase = p.sensitiveCase ∧ p'.history = p.history := by
  obtain ⟨s, u, hframe⟩ := edit?_changes h
  rw [hframe]
  exact ⟨rfl, rfl, rfl⟩

/-- The first step of an edit is accepted if the edit of the form is, and makes that form. -/
theorem form_change? (hcons : p.form.Consistent) (group : String) (e : Edit) :
    (p.change? group e).map (·.2.form) = p.form.edit? group e := by
  cases e with
  | set values =>
    rw [← Form.setElements?_eq, change?]
    cases p.form.setElements? group values <;> rfl
  | add label selected proposed =>
    rw [← Form.add?_eq, change?]
    cases p.form.add? group label selected proposed with
    | error r => rfl
    | ok made => exact congrArg Except.ok (form_saveOrder _ group)
  | amend id label selected =>
    rw [← Form.amend?_eq, change?]
    cases p.form.amend? group id label selected <;> rfl
  | remove id =>
    rw [← Form.remove?_eq, change?]
    cases p.form.remove? group id with
    | error r => rfl
    | ok made => exact congrArg Except.ok (form_saveOrder _ group)
  | reorder ids =>
    rw [← Form.reorder?_eq hcons, change?]
    cases p.form.reorder? group ids with
    | error r => rfl
    | ok made => exact congrArg Except.ok (form_saveOrder _ group)

theorem form_of_change? (hcons : p.form.Consistent) (h : p.change? group e = .ok (due, p')) :
    p.form.edit? group e = .ok p'.form := by
  rw [← form_change? hcons, h]
  rfl

/-- An edit of a panel is one of its form. -/
theorem form_edit? (hcons : p.form.Consistent) (group : String) (e : Edit) :
    (p.edit? group e).map (·.2.form) = p.form.edit? group e := by
  rw [← form_change? hcons, edit?]
  cases p.change? group e with
  | error r => rfl
  | ok made => exact congrArg Except.ok (form_saveChanges _ _)

theorem form_of_edit? (hcons : p.form.Consistent) (h : p.edit? group e = .ok (searched, p')) :
    p.form.edit? group e = .ok p'.form := by
  rw [← form_edit? hcons, h]
  rfl

/-- An edit keeps the shape of a panel. -/
theorem Shaped.edit? (h : p.Shaped settings) (hedit : p.edit? group e = .ok (searched, p')) :
    p'.Shaped settings := by
  have hform := form_of_edit? h.consistent hedit
  exact ⟨h.fits.edit? hform, Form.consistent_edit? h.consistent hform, (Form.rules_edit? hform).trans h.rules⟩

/-- The first step of an edit leaves only values to be written. -/
theorem Intact.change? (h : p.Intact settings) (hn : p.form.NumberedAt group)
    (hchange : p.change? group e = .ok (due, p')) :
    p'.Stored settings (Unsaved p.form.values) := by
  cases changed_of_change? hchange with
  | set hset => exact h.setElements? hn hset
  | add hadd => exact h.add? hn hadd
  | amend hamend => exact h.amend? hn hamend
  | remove hremove => exact h.remove? hn hremove
  | reorder hreorder => exact h.reorder? hn hreorder

/-- **An edit keeps a panel intact.** -/
theorem Intact.edit? (h : p.Intact settings) (hn : p.form.NumberedAt group)
    (hedit : p.edit? group e = .ok (searched, p')) :
    p'.Intact settings := by
  obtain ⟨⟨due, p₁⟩, hchange, heq⟩ := bind_eq_ok_iff.mp hedit
  obtain ⟨-, rfl⟩ := Prod.mk.inj (Except.ok.inj heq)
  exact (h.change? hn hchange).saveChanges

end Panel

end AnyCase
