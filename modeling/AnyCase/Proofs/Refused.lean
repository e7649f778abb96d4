import AnyCase.Proofs.Overwrite
import AnyCase.Proofs.Session

/-!
# `Proofs.Refused` — when an edit is refused

An edit is refused for a fault that can be seen before anything is changed. `Group.Fault` lists the faults of
an edit of a dynamic group, with what is said of each, and `Form.Fault` those of an edit of a form, which may
have no such group. All of them are told of the form as it is before the edit.

That an edit is refused exactly if it has a fault (`Form.refused_iff`) means that what is done later cannot be
refused for what was done before: a relabelled element is still there to be set, and setting one element leaves
the next one where it is.
-/

namespace AnyCase

/-! ## Faults of an edit -/

namespace Group

/-- What is wrong with an edit of a dynamic group, and how it is refused. -/
inductive Fault (g : Group) : Edit → Refusal → Prop
  /-- Elements of a disabled group are not set. -/
  | disabled {values : Dict Bool} (hoff : g.enabled = false) : Fault g (.set values) (.disabledMembers g.id)
  /-- Only elements are set; a value under the id of the group is left out. -/
  | unknown {values : Dict Bool} {id : String} (hgiven : values.contains id = true) (hne : id ≠ g.id)
      (hid : id ∉ g.order) : Fault g (.set values) (.noElement g.id id)
  /-- A new element has a label. -/
  | unlabelled {selected : Bool} {proposed : Option String} :
      Fault g (.add "" selected proposed) (.unlabelled g.id)
  /-- Only an element is amended. -/
  | amended {id label : String} {selected : Bool} (hid : id ∉ g.order) :
      Fault g (.amend id label selected) (.noElement g.id id)
  /-- An element keeps a label. -/
  | emptied {id : String} {selected : Bool} : Fault g (.amend id "" selected) (.labelEmptied id)
  /-- Only an element is removed. -/
  | removed {id : String} (hid : id ∉ g.order) : Fault g (.remove id) (.noElement g.id id)
  /-- Only elements are listed in an order. -/
  | listed {ids : List String} {id : String} (hlisted : id ∈ ids) (hid : id ∉ g.order) :
      Fault g (.reorder ids) (.noElement g.id id)

/-- Whether the labels of all members can be changed. -/
def Editable (g : Group) : Prop := ∀ c ∈ g.members, c.editable = true

end Group

namespace Form

/-- What is wrong with an edit of a form, and how it is refused. -/
inductive Fault (f : Form) (group : String) (e : Edit) : Refusal → Prop
  | noGroup (hnone : f.group? group = none) : Fault f group e (.noGroup group)
  | notDynamic {g : Group} (hg : f.group? group = some g) (hfix : g.isDynamic = false) :
      Fault f group e (.notDynamic group)
  | ofGroup {g : Group} {r : Refusal} (hg : f.group? group = some g) (hdyn : g.isDynamic = true)
      (hfault : g.Fault e r) : Fault f group e r

/-- Whether the labels of all elements can be changed. -/
def Editable (f : Form) : Prop := ∀ g ∈ f.groups, g.isDynamic = true → g.Editable

end Form

/-! ## Edits of a group -/

namespace Group

variable {g g' : Group} {e : Edit} {r : Refusal} {id label : String} {selected : Bool}

theorem not_mem_order_iff : id ∉ g.order ↔ g.contains id = false := by
  rw [← contains_iff, Bool.not_eq_true]

theorem member?_eq_none_iff : g.member? id = none ↔ id ∉ g.order := by
  rw [not_mem_order_iff, contains, Option.isSome_eq_false_iff, Option.isNone_iff_eq_none]

theorem set?_eq_error_iff : g.set? id selected = .error r ↔ id ∉ g.order ∧ r = .noElement g.id id := by
  rw [not_mem_order_iff, set?]
  cases g.contains id with
  | true => simp
  | false => simp [eq_comm]

/-- Elements that are all there are set, since setting one of them leaves the others where they are. -/
theorem exists_foldlM_set? {given : List (String × Bool)} (hknown : ∀ e ∈ given, e.1 ∈ g.order) :
    ∃ g', given.foldlM (fun g e => g.set? e.1 e.2) g = .ok g' := by
  induction given generalizing g with
  | nil => exact ⟨g, rfl⟩
  | cons e rest ih =>
    obtain ⟨g₁, hset⟩ : ∃ g₁, g.set? e.1 e.2 = .ok g₁ :=
      ⟨_, set?_eq_ok_iff.mpr ⟨contains_iff.mpr (hknown e List.mem_cons_self), rfl⟩⟩
    have horder := order_eq_of_blank (blank_of_set? hset)
    obtain ⟨g', hrest⟩ := ih fun d hd => horder ▸ hknown d (List.mem_cons_of_mem _ hd)
    refine ⟨g', ?_⟩
    rw [List.foldlM_cons, hset]
    exact hrest

theorem setEach?_eq_error {given : List (String × Bool)} (h : g.setEach? given = .error r) :
    ∃ e ∈ given, e.1 ∉ g.order ∧ r = .noElement g.id e.1 := by
  rw [setEach?] at h
  split at h
  · rename_i e hfind
    have hnot := List.find?_some hfind
    exact ⟨e, List.mem_of_find?_eq_some hfind, not_mem_order_iff.mpr (by simpa using hnot),
      (Except.error.inj h).symm⟩
  · rename_i hnone
    obtain ⟨g', hset⟩ := exists_foldlM_set? (find?_unknown_eq_none_iff.mp hnone)
    exact absurd (hset.symm.trans h) (by simp)

theorem add?_eq_error (hdyn : g.isDynamic = true) {proposed : Option String}
    (h : g.add? label selected proposed = .error r) : label = "" ∧ r = .unlabelled g.id := by
  obtain ⟨s, hs⟩ := Option.isSome_iff_exists.mp hdyn
  rw [add?, hs] at h
  by_cases hlabel : label = ""
  · simp only [hlabel, if_true] at h
    exact ⟨hlabel, (Except.error.inj h).symm⟩
  · simp only [hlabel, if_false] at h
    exact absurd h (by simp)

theorem relabel?_eq_error (hedit : g.Editable) (h : g.relabel? id label = .error r) :
    (id ∉ g.order ∧ r = .noElement g.id id) ∨ (label = "" ∧ r = .labelEmptied id) := by
  rw [relabel?] at h
  split at h
  · rename_i hnone
    exact Or.inl ⟨member?_eq_none_iff.mp hnone, (Except.error.inj h).symm⟩
  · rename_i c hc
    rw [hedit c (mem_of_member? hc)] at h
    split at h
    · rename_i hoff
      exact absurd hoff (by decide)
    · split at h
      · rename_i hlabel
        exact Or.inr ⟨hlabel, (Except.error.inj h).symm⟩
      · exact absurd h (by simp)

/-- A relabelled element is still there to be set. -/
theorem set?_relabelled (h : g.relabel? id label = .ok g') : g'.set? id selected ≠ .error r := by
  obtain ⟨-, hin, rfl⟩ := relabel?_spec h
  have horder : (g.modifyMember id (fun c => { c with label := label })).order = g.order :=
    map_members_modifyMember (fun _ => by rfl) g id
  intro hset
  have hnot := (set?_eq_error_iff.mp hset).1
  rw [horder] at hnot
  exact hnot (contains_iff.mp hin)

theorem remove?_eq_error (hdyn : g.isDynamic = true) (h : g.remove? id = .error r) :
    id ∉ g.order ∧ r = .noElement g.id id := by
  rw [remove?, if_pos hdyn] at h
  split at h
  · rename_i hnone
    exact ⟨member?_eq_none_iff.mp hnone, (Except.error.inj h).symm⟩
  · exact absurd h (by simp)

theorem reorder?_eq_error (hdyn : g.isDynamic = true) {ids : List String}
    (h : g.reorder? ids = .error r) : ∃ id ∈ ids, id ∉ g.order ∧ r = .noElement g.id id := by
  rw [reorder?, if_pos hdyn] at h
  split at h
  · rename_i id hfind
    refine ⟨id, List.mem_of_find?_eq_some hfind, ?_, (Except.error.inj h).symm⟩
    have hnot := List.find?_some hfind
    exact not_mem_order_iff.mpr (Bool.not_eq_true' _ ▸ hnot)
  · exact absurd h (by simp)

theorem mem_order_of_reorder? {ids : List String} (h : g.reorder? ids = .ok g') :
    ∀ id ∈ ids, id ∈ g.order := by
  rw [reorder?] at h
  split at h
  · split at h
    · exact absurd h (by simp)
    · rename_i hnone
      intro id hid
      have hnot := List.find?_eq_none.mp hnone id hid
      exact contains_iff.mp (by simpa using hnot)
  · exact absurd h (by simp)

/-- Elements that are all known are reordered. -/
theorem reorder?_of_known (hdyn : g.isDynamic = true) {ids : List String} (hknown : ∀ id ∈ ids, id ∈ g.order) :
    g.reorder? ids = .ok { g with members := drawFirst ids g.members } := by
  have hfind : ids.find? (fun id => !g.contains id) = none := by
    rw [List.find?_eq_none]
    intro id hid
    simp [contains_iff.mpr (hknown id hid)]
  rw [reorder?, if_pos hdyn, hfind]

/-- **A refusal names a fault.** -/
theorem fault_of_edit? (hdyn : g.isDynamic = true) (hedit : g.Editable) (h : g.edit? e = .error r) :
    g.Fault e r := by
  cases e with
  | set values =>
    rw [edit?] at h
    split at h
    · rename_i hoff
      obtain rfl := Except.error.inj h
      exact .disabled (by simpa using hoff)
    · obtain ⟨e, he, hnot, rfl⟩ := setEach?_eq_error h
      obtain ⟨hmem, hne⟩ := List.mem_filter.mp he
      have hget : values.get? e.1 = some e.2 := Dict.get?_of_mem_toList hmem
      exact .unknown (by rw [Dict.contains, hget]; rfl) (of_decide_eq_true hne) hnot
  | add label selected proposed =>
    obtain ⟨rfl, rfl⟩ := add?_eq_error hdyn (map_eq_error_iff.mp h)
    exact .unlabelled
  | amend id label selected =>
    rcases bind_eq_error h with hlabel | ⟨g₁, hlabel, hset⟩
    · rcases relabel?_eq_error hedit hlabel with ⟨hnot, rfl⟩ | ⟨rfl, rfl⟩
      · exact .amended hnot
      · exact .emptied
    · exact absurd hset (set?_relabelled hlabel)
  | remove id =>
    obtain ⟨hnot, rfl⟩ := remove?_eq_error hdyn (map_eq_error_iff.mp h)
    exact .removed hnot
  | reorder ids =>
    obtain ⟨id, hid, hnot, rfl⟩ := reorder?_eq_error hdyn h
    exact .listed hid hnot

/-- **An edit with a fault is not made.** -/
theorem Fault.not_ok (h : g.Fault e r) : g.edit? e ≠ .ok g' := by
  intro hmade
  cases h with
  | disabled hoff =>
    rw [edit?, hoff] at hmade
    exact absurd hmade (by simp)
  | unknown hgiven hne hid =>
    rw [edit?] at hmade
    split at hmade
    · exact absurd hmade (by simp)
    · obtain ⟨b, hb⟩ := Option.isSome_iff_exists.mp hgiven
      have hmem := Dict.mem_of_find? hb
      exact hid ((setEach?_eq_ok_iff.mp hmade).1 _ (List.mem_filter.mpr ⟨hmem, decide_eq_true hne⟩))
  | unlabelled =>
    obtain ⟨⟨id, g'⟩, hadd, -⟩ := map_eq_ok_iff.mp hmade
    obtain ⟨_, _, _, hlabel, _⟩ := add?_spec hadd
    exact hlabel rfl
  | amended hid =>
    obtain ⟨g₁, hlabel, -⟩ := bind_eq_ok_iff.mp hmade
    exact hid (contains_iff.mp (relabel?_spec hlabel).2.1)
  | emptied =>
    obtain ⟨g₁, hlabel, -⟩ := bind_eq_ok_iff.mp hmade
    exact (relabel?_spec hlabel).1 rfl
  | removed hid =>
    obtain ⟨⟨c, g'⟩, hremove, -⟩ := map_eq_ok_iff.mp hmade
    exact hid (mem_order_of_member? (remove?_spec hremove).1)
  | listed hlisted hid => exact hid (mem_order_of_reorder? hmade _ hlisted)

/-! ### Labels stay editable -/

theorem Editable.of_blank (h : g.Editable) (hblank : g'.blank = g.blank) : g'.Editable := by
  intro c hc
  obtain ⟨d, hd, -, -, heditable⟩ := exists_member_of_blank hblank hc
  rw [← heditable]
  exact h d hd

theorem Editable.edit? (h : g.Editable) (hedit : g.edit? e = .ok g') : g'.Editable := by
  cases e with
  | set values => exact h.of_blank (blank_of_edit?_set hedit)
  | add label selected proposed =>
    obtain ⟨⟨id, g'⟩, hadd, rfl⟩ := map_eq_ok_iff.mp hedit
    obtain ⟨_, _, _, _, _, hmembers, _⟩ := add?_spec hadd
    intro c hc
    rw [hmembers] at hc
    rcases List.mem_append.mp hc with hc | hc
    · exact h c hc
    · rw [List.mem_singleton.mp hc]
  | amend id label selected =>
    obtain ⟨g₁, hlabel, hset⟩ := bind_eq_ok_iff.mp hedit
    obtain ⟨-, -, rfl⟩ := relabel?_spec hlabel
    have hrelabelled : (g.modifyMember id (fun c => { c with label := label })).Editable := by
      intro c hc
      rcases mem_modifyFirst hc with hc | ⟨d, hd, -, rfl⟩
      · exact h c hc
      · exact h d hd
    exact hrelabelled.of_blank (blank_of_set? hset)
  | remove id =>
    obtain ⟨⟨c, g'⟩, hremove, rfl⟩ := map_eq_ok_iff.mp hedit
    obtain ⟨-, hmembers, -⟩ := remove?_spec hremove
    intro d hd
    rw [hmembers] at hd
    exact h d (List.eraseP_sublist.subset hd)
  | reorder ids =>
    rw [reorder?_spec hedit]
    exact fun c hc => h c ((drawFirst_perm ids g.members).subset hc)

end Group

/-! ## Edits of a form -/

namespace Form

variable {f f' : Form} {group : String} {e : Edit} {r : Refusal}

theorem dynamic?_eq_error (h : f.dynamic? group = .error r) : f.Fault group e r := by
  rw [dynamic?] at h
  split at h
  · rename_i hnone
    obtain rfl := Except.error.inj h
    exact .noGroup hnone
  · rename_i g hg
    split at h
    · exact absurd h (by simp)
    · rename_i hfix
      obtain rfl := Except.error.inj h
      exact .notDynamic hg (Bool.eq_false_iff.mpr hfix)

theorem fault_of_edit? (hf : f.Editable) (h : f.edit? group e = .error r) : f.Fault group e r := by
  rcases bind_eq_error h with hnone | ⟨g, hg, h⟩
  · exact dynamic?_eq_error hnone
  · obtain ⟨hfound, hdyn⟩ := dynamic?_eq_ok_iff.mp hg
    rcases bind_eq_error h with hedit | ⟨g', -, h⟩
    · exact .ofGroup hfound hdyn (Group.fault_of_edit? hdyn (hf g (mem_of_group? hfound) hdyn) hedit)
    · exact absurd h (by simp)

theorem Fault.not_ok (h : f.Fault group e r) : f.edit? group e ≠ .ok f' := by
  intro hmade
  obtain ⟨g, g', hg, hdyn, -, hedit, -, -⟩ := edit?_spec hmade
  cases h with
  | noGroup hnone => exact absurd (hg.symm.trans hnone) (by simp)
  | notDynamic hg₁ hfix =>
    obtain rfl := Option.some.inj (hg.symm.trans hg₁)
    exact absurd (hdyn.symm.trans hfix) (by decide)
  | ofGroup hg₁ _ hfault =>
    obtain rfl := Option.some.inj (hg.symm.trans hg₁)
    exact hfault.not_ok hedit

/-- **An edit is refused exactly if it has a fault.** -/
theorem refused_iff (hf : f.Editable) :
    (∃ r, f.edit? group e = .error r) ↔ ∃ r, f.Fault group e r := by
  constructor
  · rintro ⟨r, hr⟩
    exact ⟨r, fault_of_edit? hf hr⟩
  · rintro ⟨r, hr⟩
    cases hmade : f.edit? group e with
    | error r' => exact ⟨r', rfl⟩
    | ok f' => exact absurd hmade hr.not_ok

theorem Editable.of_blank (h : f.Editable) (hblank : f'.blank = f.blank) : f'.Editable := by
  intro g' hg' hdyn
  obtain ⟨g, hg, heq⟩ := exists_of_blank hblank hg'
  exact (h g hg (Group.isDynamic_of_blank heq ▸ hdyn)).of_blank heq

theorem Editable.edit? (h : f.Editable) (hedit : f.edit? group e = .ok f') : f'.Editable := by
  intro g' hg' hdyn
  obtain ⟨g₁, hblank, hg₁ | ⟨g, hg, hdyn₁, hmade⟩⟩ := mem_groups_edit? hedit hg'
  · exact (h g₁ hg₁ (Group.isDynamic_of_blank hblank ▸ hdyn)).of_blank hblank
  · exact ((h g (mem_of_group? hg) hdyn₁).edit? hmade).of_blank hblank

end Form
/-! ## Edits of a panel -/

namespace Panel

open Layout

variable {settings : Settings} {p p' : Panel} {group : String} {e : Edit} {r : Refusal}

theorem edit?_eq_error_iff (hcons : p.form.Consistent) :
    p.edit? group e = .error r ↔ p.form.edit? group e = .error r := by
  rw [← form_edit? hcons, map_eq_error_iff]

/-- The labels of elements that are read from a store can be changed. -/
theorem editable_restore (store : Store) (settings : Settings) : (restore store settings).form.Editable := by
  have hstored : (storedForm store settings).Editable := by
    intro g hg hdyn c hc
    obtain ⟨group, -, rfl⟩ := mem_storedForm_of_dynamic hg hdyn
    obtain ⟨id, -, hread⟩ := List.mem_filterMap.mp hc
    unfold element? at hread
    split at hread
    · exact absurd hread (by simp)
    · rw [← Option.some.inj hread]
  rw [form_restore]
  exact hstored.of_blank (Form.blank_settle _)

theorem editable_perform (hcons : p.form.Consistent) (h : p.form.Editable) (op : Operation) :
    (p.perform op).form.Editable := by
  cases op with
  | submit main =>
    obtain ⟨s, hs⟩ := submit_frame p main
    show (p.submit main).form.Editable
    rw [hs]
    exact h.of_blank (Form.blank_overwriteAll p.form main.checks)
  | replaceHistory texts => exact h
  | edit group e =>
    rcases perform_edit p group e with hsame | ⟨due, p', hedit, hmade⟩
    · rwa [hsame]
    · rw [hmade]
      exact h.edit? (form_of_edit? hcons hedit)

end Panel

end AnyCase
