import AnyCase.Proofs.Layout
import AnyCase.Proofs.Store
import Mathlib.Data.List.Flatten
import Mathlib.Data.List.Perm.Basic

/-!
# `Proofs.Saved` — a panel and its store

A panel keeps no copy of what it stores, and it stores no value that is still the default. What relates
the two is what would be *read* from the store: `Panel.Stored` says that the text, the history, the elements
of every filter, their labels and the values of all members are read as the panel has them. The values that
are still to be written are a parameter, so that the relation can be told in the middle of a change; an
`Intact` panel has none.

Saving values makes a panel with pending values intact (`Stored.saveChanges`).

## Contents

* `Layout.initial`, `Layout.keptRules`, `Layout.IsRecord` — what the invariant is about;
* `Form.value_of_get?_values`, `Form.get?_values` — the values of a form as a map;
* `Panel.Shaped`, `Panel.Stored`, `Panel.Intact` — the invariant of a panel;
* `Stored.saveAll`, `Stored.saveChanges`, `Stored.saveGroup` — what saving does.
-/

namespace AnyCase

/-! ## What an absent key stands for -/

namespace Layout

/-- The value of a member as long as none is stored: the default of a fixed one, and elements start
unselected. -/
def initial (defaults : Defaults) (id : String) : Bool :=
  if id = startEdge then defaults.beginWord
  else if id = endEdge then defaults.endWord
  else if id ∈ fixedIds conventions then defaults.case id
  else false

/-- The rules that are about groups of a panel. -/
def keptRules (rules : List Rule) : List Rule :=
  rules.filter (fun rule => rule.groups.all (fun id => id ∈ fixedGroups ++ filterGroups))

/-- Whether a key of the store has something else than the value of a member. -/
def IsRecord (key : String) : Prop := key ∈ fixedKeys ∨ ∃ id, 1 ≤ dashes id ∧ key = labelKey id

theorem isRecord_of_mem {key : String} (h : key ∈ fixedKeys) : IsRecord key := Or.inl h

theorem Fits.not_isRecord {f : Form} (h : Fits f) (hn : ∀ g ∈ f.groups, g.Named) {g : Group}
    (hg : g ∈ f.groups) {c : Checkbox} (hc : c ∈ g.members) : ¬IsRecord c.id := by
  have hid : c.id ∈ g.order := List.mem_map_of_mem hc
  rintro (hkey | ⟨id, hdashes, heq⟩)
  · exact h.member_id_not_reserved hn hg hid (List.mem_append_left _ hkey)
  · exact h.member_id_ne_labelKey hn hg hid hdashes heq

/-- The label of an element has a key of its own. -/
theorem isRecord_labelKey {g : Group} (hg : g.Named) (hdyn : g.isDynamic = true) {c : Checkbox}
    (hc : c ∈ g.members) : IsRecord (labelKey c.id) := by
  exact Or.inr ⟨c.id, hg.one_le_dashes hdyn (List.mem_map_of_mem hc), rfl⟩

/-- The elements of the filters of a form, and their labels, are read as they are. -/
structure Records (store : Store) (f : Form) : Prop where
  order : ∀ g ∈ f.groups, g.isDynamic = true →
    store.get (elementsKey g.id) Json.texts? [] = g.order
  label : ∀ g ∈ f.groups, g.isDynamic = true → ∀ c ∈ g.members,
    store.get (labelKey c.id) Json.text? "" = c.label

/-- No value has a part in the records. -/
theorem Records.of_blank {store : Store} {f f' : Form} (h : Records store f) (hblank : f'.blank = f.blank) :
    Records store f' where
  order := by
    intro g' hg' hdyn
    obtain ⟨g, hg, heq⟩ := Form.exists_of_blank hblank hg'
    rw [Group.id_eq_of_blank heq, Group.order_eq_of_blank heq]
    exact h.order g hg (Group.isDynamic_of_blank heq ▸ hdyn)
  label := by
    intro g' hg' hdyn
    obtain ⟨g, hg, heq⟩ := Form.exists_of_blank hblank hg'
    exact Group.label_of_blank heq (fun id => store.get (labelKey id) Json.text? "")
      (h.label g hg (Group.isDynamic_of_blank heq ▸ hdyn))

/-- The records depend on their keys only. -/
theorem Records.of_store {store store' : Store} {f : Form} (h : Records store f)
    (horder : ∀ g ∈ f.groups, g.isDynamic = true →
      store'.raw? (elementsKey g.id) = store.raw? (elementsKey g.id))
    (hlabel : ∀ g ∈ f.groups, g.isDynamic = true → ∀ c ∈ g.members,
      store'.raw? (labelKey c.id) = store.raw? (labelKey c.id)) :
    Records store' f where
  order := fun g hg hdyn => (Store.get_congr (horder g hg hdyn) _ _).trans (h.order g hg hdyn)
  label := fun g hg hdyn c hc =>
    (Store.get_congr (hlabel g hg hdyn c hc) _ _).trans (h.label g hg hdyn c hc)

end Layout

/-! ## The values of a form -/

namespace Form

variable {f : Form}

/-- A value in the map is that of a member, if its key is not the id of a group. -/
theorem value_of_get?_values {id : String} {b : Bool} (h : f.values.get? id = some b)
    (hid : ∀ g ∈ f.groups, g.id ≠ id) :
    ∃ g ∈ f.groups, ∃ c ∈ g.members, c.id = id ∧ c.selected = b := by
  obtain ⟨g, hg, hmem⟩ := List.mem_flatMap.mp (Dict.mem_of_get?_ofList h)
  rcases List.mem_append.mp hmem with hmain | hvalue
  · obtain ⟨m, -, heq⟩ := Option.map_eq_some_iff.mp (Option.mem_toList.mp hmain)
    exact absurd (congrArg Prod.fst heq) (hid g hg)
  · obtain ⟨c, hc, heq⟩ := List.mem_map.mp hvalue
    exact ⟨g, hg, c, hc, congrArg Prod.fst heq, congrArg Prod.snd heq⟩

/-- Where ids are distinct, the map has the value of every member. -/
theorem get?_values (hd : (f.groups.flatMap Group.order ++ f.groups.map (·.id)).Nodup) {g : Group}
    (hg : g ∈ f.groups) {c : Checkbox} (hc : c ∈ g.members) :
    f.values.get? c.id = some c.selected := by
  -- the keys of a group: its id if it has a main checkbox, then those of its members
  have hkeysOf : ∀ g : Group, g.allValues.map (·.1) = (g.main.map (fun _ => g.id)).toList ++ g.order := by
    intro g
    rw [Group.allValues, List.map_append, Group.values, List.map_map]
    cases g.main <;> rfl
  have hsub : ((f.groups.flatMap Group.allValues).map (·.1)).Sublist
      (f.groups.flatMap fun g => [g.id] ++ g.order) := by
    rw [List.map_flatMap]
    refine List.Sublist.flatMap_right _ fun g _ => ?_
    rw [hkeysOf]
    refine List.Sublist.append_right ?_ _
    cases g.main with
    | none => exact List.nil_sublist _
    | some m => exact List.Sublist.refl _
  have hperm : (f.groups.flatMap fun g => [g.id] ++ g.order).Perm
      (f.groups.flatMap Group.order ++ f.groups.map (·.id)) := by
    rw [List.map_eq_flatMap]
    exact (List.flatMap_append_perm f.groups (fun g => [g.id]) Group.order).symm.trans
      List.perm_append_comm
  have hkeys : ((f.groups.flatMap Group.allValues).map (·.1)).Nodup :=
    (hperm.nodup_iff.mpr hd).sublist hsub
  refine Dict.get?_ofList_of_mem hkeys (List.mem_flatMap.mpr ⟨g, hg, ?_⟩)
  exact List.mem_append_right _ (List.mem_map.mpr ⟨c, hc, rfl⟩)

end Form

namespace Panel

open Layout

/-! ## The invariant -/

/-- A panel whose form has the groups of a panel and the rules of the settings, evaluated. -/
structure Shaped (settings : Settings) (p : Panel) : Prop where
  fits : Fits p.form
  consistent : p.form.Consistent
  rules : p.form.rules = keptRules settings.rules

/-- Whether the value of a member is read as it is. -/
def Valued (settings : Settings) (p : Panel) (c : Checkbox) : Prop :=
  p.store.get c.id Json.flag? (initial settings.defaults c.id) = c.selected

/-- Whether a member has another value than before, so that saving the changes writes it. -/
def Unsaved (before : Dict Bool) (c : Checkbox) : Prop := before.get? c.id ≠ some c.selected

/-- A panel that is read from its store as it is, but for the values of members that are still to be
written. -/
structure Stored (settings : Settings) (pending : Checkbox → Prop) (p : Panel) : Prop
    extends Shaped settings p where
  named : ∀ g ∈ p.form.groups, g.Named
  historyLength : p.historyLength = settings.historyLength
  text : p.store.get textKey Json.text? "" = p.text
  sensitiveCase : p.store.get sensitiveKey Json.flag? settings.defaults.sensitiveCase = p.sensitiveCase
  history : History.ofList p.historyLength (p.store.get historyKey Json.texts? []) = p.history
  unstored : p.unstored = Layout.unstored p.store
  records : Records p.store p.form
  values : ∀ g ∈ p.form.groups, ∀ c ∈ g.members, ¬pending c → p.Valued settings c

/-- A panel that is read from its store as it is. -/
def Intact (settings : Settings) (p : Panel) : Prop := p.Stored settings fun _ => False

variable {settings : Settings} {p : Panel} {pending pending' : Checkbox → Prop}

/-- The rules of valid settings are between different groups of a panel. -/
theorem Shaped.rules_valid (h : p.Shaped settings) (hvalid : settings.check = .ok settings) {a b : String}
    (hrule : .exclusive a b ∈ p.form.rules) :
    a ∈ fixedGroups ++ filterGroups ∧ b ∈ fixedGroups ++ filterGroups ∧ a ≠ b := by
  rw [h.rules] at hrule
  obtain ⟨hmem, hknown⟩ := List.mem_filter.mp hrule
  have hgroups : a ∈ fixedGroups ++ filterGroups ∧ b ∈ fixedGroups ++ filterGroups := by
    simpa [Rule.groups] using hknown
  refine ⟨hgroups.1, hgroups.2, ?_⟩
  rintro rfl
  have hfault : settings.rules.findSome? Rule.fault? = none := by
    unfold Settings.check at hvalid
    split at hvalid
    · exact absurd hvalid (by simp)
    · assumption
  have hnone := List.findSome?_eq_none_iff.mp hfault _ hmem
  simp [Rule.fault?] at hnone

theorem Stored.members_nodup (h : p.Stored settings pending) :
    ((p.form.groups.flatMap (·.members)).map (·.id)).Nodup := by
  rw [List.map_flatMap]
  exact (List.nodup_append'.mp (h.fits.ids_nodup h.named)).1

theorem Stored.mono (h : p.Stored settings pending)
    (himp : ∀ g ∈ p.form.groups, ∀ c ∈ g.members, pending c → pending' c) :
    p.Stored settings pending' where
  toShaped := h.toShaped
  named := h.named
  historyLength := h.historyLength
  text := h.text
  sensitiveCase := h.sensitiveCase
  history := h.history
  unstored := h.unstored
  records := h.records
  values := fun g hg c hc hnot => h.values g hg c hc fun hp => hnot (himp g hg c hc hp)

/-- A panel with another store of the same records. -/
theorem Stored.withStore (h : p.Stored settings pending) {s : Store}
    (hrecord : ∀ key, IsRecord key → s.raw? key = p.store.raw? key)
    (hvalues : ∀ g ∈ p.form.groups, ∀ c ∈ g.members, ¬pending' c → { p with store := s }.Valued settings c) :
    { p with store := s }.Stored settings pending' where
  fits := h.fits
  consistent := h.consistent
  rules := h.rules
  named := h.named
  historyLength := h.historyLength
  text := (Store.get_congr (hrecord _ (Or.inl (by decide))) _ _).trans h.text
  sensitiveCase := (Store.get_congr (hrecord _ (Or.inl (by decide))) _ _).trans h.sensitiveCase
  history := by
    have hkey : s.raw? historyKey = p.store.raw? historyKey := hrecord _ (Or.inl (by decide))
    show History.ofList p.historyLength (s.get historyKey Json.texts? []) = p.history
    rw [Store.get_congr hkey]
    exact h.history
  unstored := by
    show p.unstored = Layout.unstored s
    rw [h.unstored]
    refine List.filter_congr fun group hgroup => ?_
    rw [Store.contains_congr (hrecord _ (Or.inl (mem_fixedKeys_elementsKey hgroup)))]
  records := by
    refine h.records.of_store (fun g hg hdyn => ?_) (fun g hg hdyn c hc => ?_)
    · exact hrecord _ (Or.inl (mem_fixedKeys_elementsKey ((h.fits.dynamic_iff hg).mp hdyn)))
    · exact hrecord _ (isRecord_labelKey (h.named g hg) hdyn hc)
  values := hvalues

/-! ## Saving values -/

theorem saveAll_eq (p : Panel) (members : List Checkbox) :
    p.saveAll members = { p with store := p.store.setValues members } := by
  induction members generalizing p with
  | nil => rfl
  | cons c rest ih => exact ih (p.record c.id (.bool c.selected))

theorem saveChanges_eq (p : Panel) (before : Dict Bool) :
    ∃ s, p.saveChanges before = { p with store := s } :=
  ⟨_, saveAll_eq p _⟩

@[simp] theorem form_saveChanges (p : Panel) (before : Dict Bool) : (p.saveChanges before).form = p.form := by
  obtain ⟨s, hs⟩ := saveChanges_eq p before
  rw [hs]

/-- Saving members leaves the others pending. -/
theorem Stored.saveAll (h : p.Stored settings pending) {members : List Checkbox}
    (hsub : members.Sublist (p.form.groups.flatMap (·.members))) :
    (p.saveAll members).Stored settings fun c => pending c ∧ c ∉ members := by
  rw [saveAll_eq]
  have hnodup : (members.map (·.id)).Nodup := h.members_nodup.sublist (hsub.map _)
  -- records have other keys than members, and no two members share a key
  refine h.withStore (fun key hkey => ?_) (fun g hg c hc hnot => ?_)
  · refine Store.raw?_setValues_of_not_mem fun hmem => ?_
    obtain ⟨c, hc, rfl⟩ := List.mem_map.mp hmem
    obtain ⟨g, hg, hcg⟩ := List.mem_flatMap.mp (hsub.subset hc)
    exact h.fits.not_isRecord h.named hg hcg hkey
  · by_cases hc' : c ∈ members
    · exact Store.get_of_raw? (Store.raw?_setValues_of_mem hnodup hc') Json.flag? _
    · have hold : p.Valued settings c := h.values g hg c hc fun hp => hnot ⟨hp, hc'⟩
      have hkey : (p.store.setValues members).raw? c.id = p.store.raw? c.id := by
        refine Store.raw?_setValues_of_not_mem fun hmem => hc' ?_
        obtain ⟨d, hd, heq⟩ := List.mem_map.mp hmem
        have hcmem := List.mem_flatMap.mpr ⟨g, hg, hc⟩
        rwa [← List.inj_on_of_nodup_map h.members_nodup (hsub.subset hd) hcmem heq]
      exact (Store.get_congr hkey _ _).trans hold

/-- **Saving what has changed leaves nothing pending.** -/
theorem Stored.saveChanges {before : Dict Bool} (h : p.Stored settings (Unsaved before)) :
    (p.saveChanges before).Intact settings := by
  have hsub : ((p.form.groups.flatMap (·.members)).filter
      (fun c => before.get? c.id ≠ some c.selected)).Sublist (p.form.groups.flatMap (·.members)) :=
    List.filter_sublist
  have hsaved := h.saveAll hsub
  refine hsaved.mono fun g hg c hc hpending => hpending.2 ?_
  have hgroups : g ∈ p.form.groups := by
    rw [← form_saveChanges p before]
    exact hg
  exact List.mem_filter.mpr ⟨List.mem_flatMap.mpr ⟨g, hgroups, hc⟩, decide_eq_true hpending.1⟩

theorem Stored.saveGroup (h : p.Stored settings pending) (group : String) :
    (p.saveGroup group).Stored settings pending := by
  unfold Panel.saveGroup
  split
  · rename_i g hg
    have hsub : g.members.Sublist (p.form.groups.flatMap (·.members)) :=
      List.sublist_flatten_of_mem (List.mem_map_of_mem (Form.mem_of_group? hg))
    exact (h.saveAll hsub).mono fun _ _ _ _ hpending => hpending.1
  · exact h

end Panel

end AnyCase
