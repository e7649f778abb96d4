import AnyCase.Proofs.Overwrite
import AnyCase.Proofs.Reached

/-!
# `Proofs.Image` — the store is the image of the panel

That a panel is read back from its store (`Panel.Intact`) leaves open what else the store has: a value that
was forgotten to be deleted is read by nobody, until its id is given again. Here the store is bounded from
above. `Layout.Entry` lists the keys that it may have, with the kind of value at each, and `Layout.Known` says
that it has no others; from below, every element has a value (`Layout.Filled`).

Both are told by the ids of the members of each group, and nothing else of the form. So an operation has to be
looked at twice only: for the ids that come and go, and for the keys that it writes and deletes. An edit comes
down to `Tidy.edited`, whatever it is. Together with what is read, this gives all values (`Panel.Mirrored`).
-/

namespace AnyCase

/-! ## Ids and keys -/

namespace Form

variable {f f' : Form} {g g₁ : Group} {group x : String}

/-- Values have no part in the ids. -/
theorem orderOf_of_blank (h : f'.blank = f.blank) (x : String) : f'.orderOf x = f.orderOf x := by
  have hlook : ∀ f : Form, f.orderOf x = ((f.blank.group? x).map Group.order).getD [] := by
    intro f
    have hmap : f.blank.group? x = (f.group? x).map Group.blank :=
      group?_map Group.blank (fun _ => rfl) f.rules f.groups x
    have hblank : ∀ g : Group, g.blank.order = g.order := by
      intro g
      simp [Group.order, Group.blank, Group.bare, Function.comp_def]
    rw [hmap, orderOf, membersOf]
    cases f.group? x with
    | none => rfl
    | some g => exact (hblank g).symm
  rw [hlook, hlook, h]

/-- An edit is of the ids of one group. -/
theorem orderOf_edited (hg : f.group? group = some g) (hid : g₁.id = group) (selected : Bool) (x : String) :
    ((f.replace g₁).reconcile group selected).orderOf x = if x = group then g₁.order else f.orderOf x := by
  rw [orderOf_of_blank (blank_reconcile _ _ _), orderOf, membersOf_replace hg hid]
  split
  · rfl
  · rfl

end Form

/-! ## What a store may have -/

namespace Layout

variable {order order' : String → List String} {s : Store} {key : String} {v : Json}

/-- A key that the store of a panel may have, and a value of the kind that is there. The groups have members
with some ids. -/
inductive Entry (order : String → List String) : String → Json → Prop
  | text (text : String) : Entry order textKey (.str text)
  | sensitive (b : Bool) : Entry order sensitiveKey (.bool b)
  | history (texts : List String) : Entry order historyKey (Json.ofTexts texts)
  | elements {group : String} (h : group ∈ filterGroups) (ids : List String) :
      Entry order (elementsKey group) (Json.ofTexts ids)
  | value {group id : String} (h : group ∈ fixedGroups ++ filterGroups) (hid : id ∈ order group) (b : Bool) :
      Entry order id (.bool b)
  | label {group id : String} (h : group ∈ filterGroups) (hid : id ∈ order group) (label : String) :
      Entry order (labelKey id) (.str label)

/-- A store without keys that the panel does not use. -/
def Known (order : String → List String) (s : Store) : Prop := ∀ key v, s.raw? key = some v → Entry order key v

/-- A store with a value for every element. -/
def Filled (order : String → List String) (s : Store) : Prop :=
  ∀ group ∈ filterGroups, ∀ id ∈ order group, ∃ b, s.raw? id = some (.bool b)

/-! ### What keeps it -/

theorem Known.set (h : Known order s) (hv : Entry order key v.settled) : Known order (s.set key v) := by
  intro k w hraw
  rw [Store.raw?_set] at hraw
  split at hraw
  · rename_i hk
    rw [hk, ← Option.some.inj hraw]
    exact hv
  · exact h k w hraw

theorem Known.delete (h : Known order s) (key : String) : Known order (s.delete key) := by
  intro k w hraw
  rw [Store.raw?_delete] at hraw
  split at hraw
  · exact absurd hraw (by simp)
  · exact h k w hraw

theorem Known.setValues {members : List Checkbox} (h : Known order s)
    (hmembers : ∀ c ∈ members, ∃ group ∈ fixedGroups ++ filterGroups, c.id ∈ order group) :
    Known order (s.setValues members) := by
  induction members generalizing s with
  | nil => exact h
  | cons c rest ih =>
    obtain ⟨group, hgroup, hid⟩ := hmembers c List.mem_cons_self
    exact ih (h.set (.value hgroup hid c.selected)) fun d hd => hmembers d (List.mem_cons_of_mem _ hd)

/-- Ids may come as they like, and those may go that have nothing in the store any more. -/
theorem Known.change (h : Known order s)
    (hgone : ∀ group ∈ fixedGroups ++ filterGroups, ∀ id ∈ order group, id ∉ order' group →
      s.raw? id = none ∧ s.raw? (labelKey id) = none) : Known order' s := by
  intro key v hraw
  cases h key v hraw with
  | text text => exact .text text
  | sensitive b => exact .sensitive b
  | history texts => exact .history texts
  | elements hgroup ids => exact .elements hgroup ids
  | @value group _ hgroup hid b =>
    by_cases hid' : key ∈ order' group
    · exact .value hgroup hid' b
    · rw [(hgone group hgroup key hid hid').1] at hraw
      exact absurd hraw (by simp)
  | @label group id hgroup hid label =>
    by_cases hid' : id ∈ order' group
    · exact .label hgroup hid' label
    · rw [(hgone group (List.mem_append_right _ hgroup) id hid hid').2] at hraw
      exact absurd hraw (by simp)

theorem Known.mono (h : Known order s) (hsub : ∀ group ∈ fixedGroups ++ filterGroups, order group ⊆ order' group) :
    Known order' s :=
  h.change fun group hgroup _ hid hnot => absurd (hsub group hgroup hid) hnot

/-- A store without values has nothing unknown. -/
theorem known_of_empty (h : s.values = Dict.empty) : Known order s := by
  intro key v hraw
  rw [Store.raw?, h, Dict.get?_empty] at hraw
  exact absurd hraw (by simp)

end Layout

namespace Store

/-- Setting values leaves a flag a flag. -/
theorem flag_setValues {s : Store} {key : String} (h : ∃ b, s.raw? key = some (.bool b))
    (members : List Checkbox) : ∃ b, (s.setValues members).raw? key = some (.bool b) := by
  induction members generalizing s with
  | nil => exact h
  | cons c rest ih =>
    apply ih
    rw [raw?_set]
    split
    · exact ⟨c.selected, rfl⟩
    · exact h

/-- Setting a value makes a flag. -/
theorem flag_setValues_of_mem {members : List Checkbox} {c : Checkbox} (h : c ∈ members) (s : Store) :
    ∃ b, (s.setValues members).raw? c.id = some (.bool b) := by
  induction members generalizing s with
  | nil => exact absurd h List.not_mem_nil
  | cons d rest ih =>
    rcases List.mem_cons.mp h with rfl | hrest
    · refine flag_setValues ⟨c.selected, ?_⟩ rest
      rw [raw?_set, if_pos rfl]
      rfl
    · exact ih hrest _

end Store

namespace Panel

open Layout

variable {settings : Settings} {p p' : Panel} {group : String} {e : Edit} {f : Form} {g g₁ : Group}

/-- A panel whose store has what it must have and nothing else, whatever the values. -/
structure Tidy (p : Panel) : Prop where
  known : Known p.form.orderOf p.store
  filled : Filled p.form.orderOf p.store

/-! ## Saving -/

/-- The ids of members are listed under the ids of their groups. -/
theorem mem_orderOf (hfits : Fits f) (hg : g ∈ f.groups) {c : Checkbox} (hc : c ∈ g.members) :
    g.id ∈ fixedGroups ++ filterGroups ∧ c.id ∈ f.orderOf g.id := by
  rw [f.orderOf_of_mem hfits.groups_nodup hg, ← hfits.groups_ids]
  exact ⟨List.mem_map_of_mem hg, List.mem_map_of_mem hc⟩

/-- **Saving what has changed tidies the store**, if the elements whose values are as before have theirs
stored. -/
theorem tidy_saveChanges {before : Dict Bool} (hfits : Fits p.form) (hknown : Known p.form.orderOf p.store)
    (hfilled : ∀ group ∈ filterGroups, ∀ c ∈ p.form.membersOf group, before.get? c.id = some c.selected →
      ∃ b, p.store.raw? c.id = some (.bool b)) :
    (p.saveChanges before).Tidy := by
  rw [saveChanges, saveAll_eq]
  constructor
  · refine hknown.setValues fun c hc => ?_
    obtain ⟨g, hg, hcg⟩ := List.mem_flatMap.mp (List.mem_filter.mp hc).1
    exact ⟨g.id, mem_orderOf hfits hg hcg⟩
  · intro group hgroup id hid
    obtain ⟨c, hc, rfl⟩ := List.mem_map.mp hid
    by_cases hget : before.get? c.id = some c.selected
    · exact Store.flag_setValues (hfilled group hgroup c hc hget) _
    · obtain ⟨g, hg, rfl⟩ := hfits.exists_group (List.mem_append_right _ hgroup)
      rw [Form.membersOf_of_mem hfits.groups_nodup hg] at hc
      have hmem : c ∈ p.form.groups.flatMap (·.members) := List.mem_flatMap.mpr ⟨g, hg, hc⟩
      exact Store.flag_setValues_of_mem (List.mem_filter.mpr ⟨hmem, decide_eq_true hget⟩) _

/-- No member has the key of a record as its id. -/
theorem Intact.member_not_isRecord (h : p.Intact settings) (hgroup : group ∈ fixedGroups ++ filterGroups)
    {id : String} (hid : id ∈ p.form.orderOf group) : ¬IsRecord id := by
  obtain ⟨g, hg, rfl⟩ := h.fits.exists_group hgroup
  rw [p.form.orderOf_of_mem h.fits.groups_nodup hg] at hid
  obtain ⟨c, hc, rfl⟩ := List.mem_map.mp hid
  exact h.fits.not_isRecord h.named hg hc

/-! ## The history and the main form -/

theorem Tidy.replaceHistory (h : p.Tidy) (hintact : p.Intact settings) (texts : List String) :
    (p.replaceHistory texts).Tidy where
  known := by
    refine h.known.set ?_
    rw [Json.settled_ofTexts]
    exact .history _
  filled := by
    intro group hgroup id hid
    have hne : id ≠ historyKey := by
      rintro rfl
      exact hintact.member_not_isRecord (List.mem_append_right _ hgroup) hid (isRecord_of_mem (by decide))
    obtain ⟨b, hb⟩ := h.filled group hgroup id hid
    exact ⟨b, (Store.raw?_set_of_ne hne).trans hb⟩

/-- The main form has values for members only, which its text and its case sensitivity do not touch. -/
theorem Tidy.submit (h : p.Tidy) (hintact : p.Intact settings) (main : MainForm) : (p.submit main).Tidy := by
  have hblank := Form.blank_overwriteAll p.form main.checks
  have horder : (p.form.overwriteAll main.checks).orderOf = p.form.orderOf :=
    funext fun x => Form.orderOf_of_blank hblank x
  rw [submit_eq]
  apply tidy_saveChanges
  · exact hintact.fits.of_blank hblank
  · show Known (p.form.overwriteAll main.checks).orderOf (submitted p.store _ main)
    have hown : Known (p.form.overwriteAll main.checks).orderOf
        ((p.store.set textKey (.str main.text)).set sensitiveKey (.bool main.sensitiveCase)) := by
      rw [horder]
      exact (h.known.set (.text main.text)).set (.sensitive main.sensitiveCase)
    refine (hown.setValues fun c hc => ?_).setValues fun c hc => ?_
    · exact ⟨conventions, by decide, List.mem_map_of_mem hc⟩
    · exact ⟨edges, by decide, List.mem_map_of_mem hc⟩
  · intro group hgroup c hc _
    have hid : c.id ∈ p.form.orderOf group := by
      rw [← horder]
      exact List.mem_map_of_mem hc
    have hrecord := hintact.member_not_isRecord (List.mem_append_right _ hgroup) hid
    have htext : c.id ≠ textKey := fun heq => hrecord (heq ▸ isRecord_of_mem (by decide))
    have hsensitive : c.id ≠ sensitiveKey := fun heq => hrecord (heq ▸ isRecord_of_mem (by decide))
    refine Store.flag_setValues (Store.flag_setValues ?_ _) _
    rw [Store.raw?_set_of_ne hsensitive, Store.raw?_set_of_ne htext]
    exact h.filled group hgroup c.id hid

/-! ## Edits -/

/-- What an edit does to the ids. -/
theorem orderOf_edit? (hform : p.form.edit? group e = .ok f) (hg : p.form.group? group = some g)
    (hedit : g.edit? e = .ok g₁) (x : String) :
    f.orderOf x = if x = group then g₁.order else p.form.orderOf x := by
  obtain ⟨-, -, hid₁, rfl⟩ := Form.edit?_of_group? hform hg hedit
  exact Form.orderOf_edited hg hid₁ _ x

/-- After an edit nothing is unknown, if nothing is left of the elements that are gone. -/
theorem known_edited {s : Store} (hform : p.form.edit? group e = .ok f) (hg : p.form.group? group = some g)
    (hedit : g.edit? e = .ok g₁) (h : Known p.form.orderOf s)
    (hgone : ∀ id ∈ g.order, id ∉ g₁.order → s.raw? id = none ∧ s.raw? (labelKey id) = none) :
    Known f.orderOf s := by
  refine h.change fun x _ id hid hnot => ?_
  rw [orderOf_edit? hform hg hedit] at hnot
  by_cases hx : x = group
  · rw [if_pos hx] at hnot
    rw [hx, Form.orderOf, Form.membersOf_of_group? hg] at hid
    exact hgone id hid hnot
  · rw [if_neg hx] at hnot
    exact absurd hid hnot

section Numbered

variable (hn : p.form.NumberedAt group)

include hn

/-- **What an edit must do to the store.** If the store differs in what concerns the edited group only, and
has no key that the new elements have no use for, then saving the values tidies it. -/
theorem Tidy.edited (h : p.Tidy) (hintact : p.Intact settings) (hform : p.form.edit? group e = .ok f)
    (hg : p.form.group? group = some g) (hedit : g.edit? e = .ok g₁) {s : Store} {unstored : List String}
    (hknown : Known f.orderOf s) (hframe : ∀ key, ¬Concerns g g₁ key → s.raw? key = p.store.raw? key) :
    ({ p with form := f, store := s, unstored := unstored }.saveChanges p.form.values).Tidy := by
  have hfits := hintact.fits.edit? hform
  have hnamed := Form.named_edit? hintact.named hn hform
  refine tidy_saveChanges hfits hknown fun x hx c hc hget => ?_
  obtain ⟨g', hg', rfl⟩ := hfits.exists_group (List.mem_append_right _ hx)
  have hc' : c ∈ g'.members := by
    rw [← Form.membersOf_of_mem hfits.groups_nodup hg']
    exact hc
  have hcid : c.id ∈ g'.order := List.mem_map_of_mem hc'
  -- a value as before is that of an element that was there, and the edit left it in the store
  obtain ⟨g₀, hg₀, d, hd, hdid, -⟩ := Form.value_of_get?_values hget fun g₂ hg₂ hid =>
    hfits.member_id_ne_group_id hnamed hg' hcid hintact.fits hg₂ hid
  have hd₀ : c.id ∈ g₀.order := hdid ▸ List.mem_map_of_mem hd
  have hdashes := (hnamed g' hg').one_le_dashes ((hfits.dynamic_iff hg').mpr hx) hcid
  have hfilter : g₀.id ∈ filterGroups := by
    rcases hintact.fits.member_id hintact.named hg₀ hd₀ with ⟨hfix, hmem⟩ | ⟨hfilter, -⟩
    · rw [dashes_of_mem_plainNames _ (Fits.mem_plainNames_fixedIds hfix hmem)] at hdashes
      omega
    · exact hfilter
  show ∃ b, s.raw? c.id = some (.bool b)
  rw [hframe _ (hintact.not_concerns_value hn hform hg hedit hg' hc'), ← hdid]
  exact h.filled g₀.id hfilter d.id (mem_orderOf hintact.fits hg₀ hd).2

/-- The same for an edit that stores the order at the end. -/
theorem Tidy.edited_saveOrder (h : p.Tidy) (hintact : p.Intact settings) (hform : p.form.edit? group e = .ok f)
    (hg : p.form.group? group = some g) (hedit : g.edit? e = .ok g₁) {s : Store}
    (hknown : Known f.orderOf s) (hframe : ∀ key, ¬Concerns g g₁ key → s.raw? key = p.store.raw? key) :
    (({ p with form := f, store := s }.saveOrder group).saveChanges p.form.values).Tidy := by
  obtain ⟨hdyn, hid₀, -, -⟩ := Form.edit?_of_group? hform hg hedit
  have hfilter : group ∈ filterGroups := by
    rw [← hid₀]
    exact (hintact.fits.dynamic_iff (Form.mem_of_group? hg)).mp hdyn
  rw [saveOrder_edited hform hg hedit]
  refine h.edited hn hintact hform hg hedit (hknown.set ?_) fun key hkey => ?_
  · rw [Json.settled_ofTexts]
    exact .elements hfilter _
  · have hne : key ≠ elementsKey group := fun heq => hkey (Or.inl (hid₀.symm ▸ heq))
    exact (Store.raw?_set_of_ne hne).trans (hframe key hkey)

theorem Tidy.setElements? (h : p.Tidy) (hintact : p.Intact settings) {values : Dict Bool}
    (hset : p.form.setElements? group values = .ok f) :
    ({ p with form := f }.saveChanges p.form.values).Tidy := by
  rw [Form.setElements?_eq] at hset
  obtain ⟨g, g₁, hg, -, -, hedit, -, -⟩ := Form.edit?_spec hset
  have horder := Group.order_eq_of_blank (Group.blank_of_edit?_set hedit)
  refine h.edited hn hintact hset hg hedit (known_edited hset hg hedit h.known fun id hid hnot => ?_)
    fun _ _ => rfl
  exact absurd (horder ▸ hid) hnot

theorem Tidy.add? (h : p.Tidy) (hintact : p.Intact settings) {label id : String} {selected : Bool}
    {proposed : Option String} (hadd : p.form.add? group label selected proposed = .ok (id, f)) :
    ((({ p with form := f }.record (labelKey id) (.str label)).saveOrder group).saveChanges
      p.form.values).Tidy := by
  obtain ⟨g, g₁, hg, hdyn, hadd₁, hform⟩ := Form.add?_spec hadd
  have hedit : g.edit? (.add label selected proposed) = .ok g₁ := map_eq_ok_iff.mpr ⟨_, hadd₁, rfl⟩
  have horder : g₁.order = g.order ++ [id] := Group.order_add? hadd₁
  have hid : id ∈ g₁.order := horder ▸ List.mem_append_right _ List.mem_cons_self
  obtain ⟨-, hid₀, -, -⟩ := Form.edit?_of_group? hform hg hedit
  have hfilter := (hintact.fits.dynamic_iff (Form.mem_of_group? hg)).mp hdyn
  have hold : Known f.orderOf p.store := by
    refine known_edited hform hg hedit h.known fun x hx hnot => ?_
    exact absurd (horder ▸ List.mem_append_left _ hx) hnot
  have hnew : id ∈ f.orderOf group := by
    rw [orderOf_edit? hform hg hedit, if_pos rfl]
    exact hid
  refine h.edited_saveOrder hn hintact hform hg hedit (hold.set (.label (hid₀ ▸ hfilter) hnew label)) ?_
  intro key hkey
  exact Store.raw?_set_of_ne fun heq => hkey (Or.inr (Or.inl ⟨id, Or.inr hid, heq⟩))

theorem Tidy.amend? (h : p.Tidy) (hintact : p.Intact settings) {id label : String} {selected : Bool}
    (hamend : p.form.amend? group id label selected = .ok f) :
    (({ p with form := f }.record (labelKey id) (.str label)).saveChanges p.form.values).Tidy := by
  rw [Form.amend?_eq] at hamend
  obtain ⟨g, g₁, hg, hdyn, hid₀, hedit, -, -⟩ := Form.edit?_spec hamend
  obtain ⟨g₂, hrelabel, hset⟩ := bind_eq_ok_iff.mp hedit
  obtain ⟨-, hcontains, rfl⟩ := Group.relabel?_spec hrelabel
  have hid : id ∈ g.order := Group.contains_iff.mp hcontains
  have horder : g₁.order = g.order := by
    rw [Group.order_eq_of_blank (Group.blank_of_set? hset)]
    exact Group.map_members_modifyMember (fun _ => by rfl) g id
  have hfilter := (hintact.fits.dynamic_iff (Form.mem_of_group? hg)).mp hdyn
  have hold : Known f.orderOf p.store :=
    known_edited hamend hg hedit h.known fun x hx hnot => absurd (horder ▸ hx) hnot
  have hnew : id ∈ f.orderOf g.id := by
    rw [orderOf_edit? hamend hg hedit, if_pos (Form.id_of_group? hg), horder]
    exact hid
  refine h.edited hn hintact hamend hg hedit (hold.set (.label hfilter hnew label)) fun key hkey => ?_
  exact Store.raw?_set_of_ne fun heq => hkey (Or.inr (Or.inl ⟨id, Or.inl hid, heq⟩))

/-- What is removed has two keys in the store, and both are deleted. -/
theorem Tidy.remove? (h : p.Tidy) (hintact : p.Intact settings) {id : String} {removed : Checkbox}
    (hremove : p.form.remove? group id = .ok (removed, f)) :
    (((({ p with form := f }.forget id).forget (labelKey id)).saveOrder group).saveChanges
      p.form.values).Tidy := by
  obtain ⟨g, g₁, hg, -, hremove₁, hform⟩ := Form.remove?_spec hremove
  obtain ⟨hfound, hmembers, -⟩ := Group.remove?_spec hremove₁
  have hedit : g.edit? (.remove id) = .ok g₁ := map_eq_ok_iff.mpr ⟨_, hremove₁, rfl⟩
  have hid : id ∈ g.order := Group.mem_order_of_member? hfound
  have horder : g₁.order = g.order.erase id := by
    rw [Group.order, hmembers]
    exact order_eraseP g.members id
  have hgone : id ∉ g₁.order := by
    rw [horder]
    exact (hintact.named g (Form.mem_of_group? hg)).distinct.not_mem_erase
  refine h.edited_saveOrder hn hintact hform hg hedit ?_ fun key hkey => ?_
  · refine known_edited hform hg hedit ((h.known.delete id).delete (labelKey id)) fun x hx hnot => ?_
    obtain rfl : x = id := by
      by_contra hne
      rw [horder] at hnot
      exact hnot ((List.mem_erase_of_ne hne).mpr hx)
    constructor
    · show ((p.store.delete x).delete (labelKey x)).raw? x = none
      rw [Store.raw?_delete, Store.raw?_delete, if_pos rfl, ite_self]
    · show ((p.store.delete x).delete (labelKey x)).raw? (labelKey x) = none
      rw [Store.raw?_delete, if_pos rfl]
  · have hvalue : key ≠ id := fun heq => hkey (Or.inr (Or.inr (heq ▸ ⟨hid, hgone⟩)))
    have hlabel : key ≠ labelKey id := fun heq => hkey (Or.inr (Or.inl ⟨id, Or.inl hid, heq⟩))
    exact (Store.raw?_delete_of_ne hlabel).trans (Store.raw?_delete_of_ne hvalue)

theorem Tidy.reorder? (h : p.Tidy) (hintact : p.Intact settings) {ids : List String}
    (hreorder : p.form.reorder? group ids = .ok f) :
    (({ p with form := f }.saveOrder group).saveChanges p.form.values).Tidy := by
  rw [Form.reorder?_eq hintact.consistent] at hreorder
  obtain ⟨g, g₁, hg, -, -, hedit, -, -⟩ := Form.edit?_spec hreorder
  have horder : g₁.order.Perm g.order := by
    rw [Group.reorder?_spec hedit]
    exact (Group.drawFirst_perm ids g.members).map Checkbox.id
  refine h.edited_saveOrder hn hintact hreorder hg hedit ?_ fun _ _ => rfl
  exact known_edited hreorder hg hedit h.known fun id hid hnot => absurd (horder.mem_iff.mpr hid) hnot

/-- **An edit keeps the store tidy.** -/
theorem Tidy.edit? (h : p.Tidy) (hintact : p.Intact settings) {searched : Bool}
    (hedit : p.edit? group e = .ok (searched, p')) : p'.Tidy := by
  obtain ⟨⟨due, p₁⟩, hchange, heq⟩ := bind_eq_ok_iff.mp hedit
  obtain ⟨-, rfl⟩ := Prod.mk.inj (Except.ok.inj heq)
  cases changed_of_change? hchange with
  | set hset => exact h.setElements? hn hintact hset
  | add hadd => exact h.add? hn hintact hadd
  | amend hamend => exact h.amend? hn hintact hamend
  | remove hremove => exact h.remove? hn hintact hremove
  | reorder hreorder => exact h.reorder? hn hintact hreorder

end Numbered

/-! ## Opening -/

/-- Opening a panel on a tidy store saves values only. -/
theorem tidy_restore {store : Store} (hknown : Known (storedForm store settings).orderOf store)
    (hfilled : Filled (storedForm store settings).orderOf store) : (restore store settings).Tidy := by
  have hblank := Form.blank_settle (storedForm store settings)
  have horder : (storedForm store settings).settle.orderOf = (storedForm store settings).orderOf :=
    funext fun x => Form.orderOf_of_blank hblank x
  have hmake := make_groups store settings
  apply tidy_saveChanges
  · show Fits (Form.make (groups store settings.defaults) settings.rules)
    rw [hmake]
    exact (fits_storedForm store settings).of_blank hblank
  · show Known (Form.make (groups store settings.defaults) settings.rules).orderOf store
    rw [hmake, horder]
    exact hknown
  · intro group hgroup c hc _
    apply hfilled group hgroup c.id
    rw [← horder, ← hmake]
    exact List.mem_map_of_mem hc

/-- The form that is read has the ids of a fixed group, and those of the elements that are listed. -/
theorem orderOf_storedForm {store : Store} (hsound : Sound store) (settings : Settings) (x : String) :
    (x ∈ fixedGroups → (storedForm store settings).orderOf x = fixedIds x) ∧
      (x ∈ filterGroups → (storedForm store settings).orderOf x = elements store x) := by
  have hfits := fits_storedForm store settings
  refine ⟨fun hx => Form.ids_membersOf hfits hx, fun hx => ?_⟩
  have hmem : filterGroup store x ∈ (storedForm store settings).groups :=
    List.mem_cons_of_mem _ (List.mem_cons_of_mem _ (List.mem_map_of_mem hx))
  rw [← hsound.order_filterGroup hx]
  exact Form.orderOf_of_mem hfits.groups_nodup hmem

/-- A panel is opened with the ids of the one that left the store. -/
theorem Intact.orderOf_storedForm (h : p.Intact settings) {settings' : Settings} {x : String}
    (hx : x ∈ fixedGroups ++ filterGroups) :
    (storedForm p.store settings').orderOf x = p.form.orderOf x := by
  obtain ⟨hfixed, hfilter⟩ := Panel.orderOf_storedForm h.sound settings' x
  rcases List.mem_append.mp hx with hx | hx
  · rw [hfixed hx]
    exact (Form.ids_membersOf h.fits hx).symm
  · obtain ⟨g, hg, rfl⟩ := h.fits.exists_group (List.mem_append_right _ hx)
    rw [hfilter hx, p.form.orderOf_of_mem h.fits.groups_nodup hg]
    exact h.records.order g hg ((h.fits.dynamic_iff hg).mpr hx)

theorem Tidy.perform (h : p.Tidy) (hintact : p.Intact settings) (hn : ∀ g ∈ p.form.groups, g.Numbered)
    (op : Operation) : (p.perform op).Tidy := by
  cases op with
  | submit main => exact h.submit hintact main
  | replaceHistory texts => exact h.replaceHistory hintact texts
  | edit group e =>
    rcases perform_edit p group e with hsame | ⟨due, p', hedit, hmade⟩
    · rwa [hsame]
    · rw [hmade]
      exact h.edit? (Form.numberedAt_of_forall hn group) hintact hedit

variable {trail : List Panel}

/-- **The store of every panel that is ever open is tidy**, as long as no element has the last number. -/
theorem Reached.tidy (h : Reached trail settings p) (hrange : ∀ q ∈ trail, q.InRange) : p.Tidy := by
  induction h with
  | @first store hempty settings =>
    refine tidy_restore (known_of_empty hempty) fun group hgroup id hid => ?_
    have hsound := sound_of_empty hempty
    have hnone : elements store group = [] := by
      refine Store.get_of_raw?_eq_none ?_ Json.texts? []
      rw [Store.raw?, hempty, Dict.get?_empty]
    rw [(orderOf_storedForm hsound settings group).2 hgroup, hnone] at hid
    exact absurd hid List.not_mem_nil
  | perform hp op ih =>
    have hbefore := fun q hq => hrange q (List.mem_cons_of_mem _ hq)
    obtain ⟨hintact, hn⟩ := hp.intact hbefore
    exact (ih hbefore).perform hintact hn op
  | reopen hp _ ih =>
    have hbefore := fun q hq => hrange q (List.mem_cons_of_mem _ hq)
    have hintact := (hp.intact hbefore).1
    refine tidy_restore ((ih hbefore).known.mono fun x hx => ?_) fun x hx => ?_
    · rw [hintact.orderOf_storedForm hx]
      exact List.Subset.refl _
    · rw [hintact.orderOf_storedForm (List.mem_append_right _ hx)]
      exact (ih hbefore).filled x hx

/-! ## The image -/

/-- A panel whose store is the image of its state. -/
structure Mirrored (p : Panel) : Prop where
  /-- The elements of a filter are listed in order, or not at all if they were never stored. -/
  elements : ∀ group ∈ filterGroups, p.store.raw? (elementsKey group)
    = if group ∈ p.unstored then none else some (Json.ofTexts (p.form.orderOf group))
  /-- Every element has its value and its label. -/
  element : ∀ group ∈ filterGroups, ∀ c ∈ p.form.membersOf group,
    p.store.raw? c.id = some (.bool c.selected) ∧ p.store.raw? (labelKey c.id) = some (.str c.label)
  /-- Nothing is left of elements that are gone. -/
  nothingLeft : ∀ group ∈ filterGroups, ∀ key, (group ++ "-").toList <+: key.toList →
    p.store.contains key = true → ∃ c ∈ p.form.membersOf group, key = c.id ∨ key = labelKey c.id
  /-- A member of a fixed group has its value, or none is stored. -/
  fixed : ∀ group ∈ fixedGroups, ∀ c ∈ p.form.membersOf group,
    p.store.raw? c.id = none ∨ p.store.raw? c.id = some (.bool c.selected)
  text : p.store.raw? textKey = none ∨ p.store.raw? textKey = some (.str p.text)
  sensitiveCase : p.store.raw? sensitiveKey = none ∨ p.store.raw? sensitiveKey = some (.bool p.sensitiveCase)
  /-- The history is stored as texts that give it when they are cut to its length. -/
  history : p.store.raw? historyKey = none ∨ ∃ texts, p.store.raw? historyKey = some (Json.ofTexts texts) ∧
    History.ofList p.historyLength texts = p.history
  /-- There is no key but these. -/
  only : ∀ key, p.store.contains key = true → key ∈ fixedKeys ∨
    (∃ group ∈ fixedGroups ++ filterGroups, ∃ c ∈ p.form.membersOf group, key = c.id) ∨
      ∃ group ∈ filterGroups, ∃ c ∈ p.form.membersOf group, key = labelKey c.id
  /-- In particular there is none for a main checkbox. -/
  main : ∀ g ∈ p.form.groups, p.store.raw? g.id = none

/-- The value at a fixed key is of the kind of the key: a text, a flag, or else a list of texts. -/
theorem Tidy.kind_of_fixedKey (h : p.Tidy) (hintact : p.Intact settings) {key : String} {v : Json}
    (hkey : key ∈ fixedKeys) (hraw : p.store.raw? key = some v) :
    (key = textKey → ∃ text, v = .str text) ∧ (key = sensitiveKey → ∃ b, v = .bool b) ∧
      (key ≠ textKey → key ≠ sensitiveKey → ∃ texts, v = Json.ofTexts texts) := by
  have hapart : ∀ group ∈ filterGroups, elementsKey group ≠ textKey ∧ elementsKey group ≠ sensitiveKey := by decide
  cases h.known key v hraw with
  | text text => exact ⟨fun _ => ⟨text, rfl⟩, fun heq => absurd heq (by decide), fun hne => absurd rfl hne⟩
  | sensitive b => exact ⟨fun heq => absurd heq (by decide), fun _ => ⟨b, rfl⟩, fun _ hne => absurd rfl hne⟩
  | history texts =>
    exact ⟨fun heq => absurd heq (by decide), fun heq => absurd heq (by decide), fun _ _ => ⟨texts, rfl⟩⟩
  | elements hgroup ids =>
    obtain ⟨htext, hsensitive⟩ := hapart _ hgroup
    exact ⟨fun heq => absurd heq htext, fun heq => absurd heq hsensitive, fun _ _ => ⟨ids, rfl⟩⟩
  | value hgroup hid b => exact absurd (isRecord_of_mem hkey) (hintact.member_not_isRecord hgroup hid)
  | label hgroup hid label => exact absurd hkey (labelKey_not_mem_fixedKeys _)

/-- The elements of a filter are named after it. -/
theorem Intact.element_id (h : p.Intact settings) (hgroup : group ∈ filterGroups) {id : String}
    (hid : id ∈ p.form.orderOf group) : ∃ n, id = Numbering.idOf group n := by
  obtain ⟨g, hg, rfl⟩ := h.fits.exists_group (List.mem_append_right _ hgroup)
  rw [p.form.orderOf_of_mem h.fits.groups_nodup hg] at hid
  exact (h.named g hg).id_of_mem ((h.fits.dynamic_iff hg).mpr hgroup) hid

/-- The value at the id of a member is a flag. -/
theorem Tidy.flag_of_member (h : p.Tidy) (hintact : p.Intact settings) {id : String} {v : Json}
    (hgroup : group ∈ fixedGroups ++ filterGroups) (hid : id ∈ p.form.orderOf group)
    (hraw : p.store.raw? id = some v) : ∃ b, v = .bool b := by
  have hrecord := hintact.member_not_isRecord hgroup hid
  have hown : ∀ key ∈ ownKeys, key ∈ fixedKeys := by decide
  cases h.known id v hraw with
  | text text => exact absurd (isRecord_of_mem (hown _ (by decide))) hrecord
  | sensitive b => exact ⟨b, rfl⟩
  | history texts => exact absurd (isRecord_of_mem (hown _ (by decide))) hrecord
  | elements hk ids => exact absurd (isRecord_of_mem (mem_fixedKeys_elementsKey hk)) hrecord
  | value _ _ b => exact ⟨b, rfl⟩
  | label hk hid' label =>
    obtain ⟨n, rfl⟩ := hintact.element_id hk hid'
    refine absurd (Or.inr ⟨_, ?_, rfl⟩) hrecord
    rw [Numbering.dashes_idOf]
    exact Nat.le_add_left 1 _

/-- The name of a filter is told by how a key starts. -/
theorem eq_of_prefix {a b : String} (ha : a ∈ filterGroups) (hb : b ∈ filterGroups) {l : List Char}
    (hla : (a ++ "-").toList <+: l) (hlb : (b ++ "-").toList <+: l) : a = b := by
  have hlength : ∀ a ∈ filterGroups, ∀ b ∈ filterGroups, (a ++ "-").toList.length ≤ (b ++ "-").toList.length := by
    decide
  have hnames : ∀ a ∈ filterGroups, ∀ b ∈ filterGroups, (a ++ "-").toList <+: (b ++ "-").toList → a = b := by
    decide
  exact hnames a ha b hb (List.prefix_of_prefix_length_le hla hlb (hlength a ha b hb))

/-- A key with a value is one of the listed ones. -/
theorem Tidy.only (h : p.Tidy) {key : String} (hkey : p.store.contains key = true) : key ∈ fixedKeys ∨
    (∃ group ∈ fixedGroups ++ filterGroups, ∃ c ∈ p.form.membersOf group, key = c.id) ∨
      ∃ group ∈ filterGroups, ∃ c ∈ p.form.membersOf group, key = labelKey c.id := by
  obtain ⟨v, hraw⟩ := Option.isSome_iff_exists.mp hkey
  cases h.known key v hraw with
  | text text => exact Or.inl (by decide)
  | sensitive b => exact Or.inl (by decide)
  | history texts => exact Or.inl (by decide)
  | elements hgroup ids => exact Or.inl (mem_fixedKeys_elementsKey hgroup)
  | value hgroup hid b =>
    obtain ⟨c, hc, rfl⟩ := List.mem_map.mp hid
    exact Or.inr (Or.inl ⟨_, hgroup, c, hc, rfl⟩)
  | label hgroup hid label =>
    obtain ⟨c, hc, rfl⟩ := List.mem_map.mp hid
    exact Or.inr (Or.inr ⟨_, hgroup, c, hc, rfl⟩)

/-- The list of the elements of a filter is there once it was stored, and is right. -/
theorem Tidy.raw?_elementsKey (h : p.Tidy) (hintact : p.Intact settings) (hgroup : group ∈ filterGroups) :
    p.store.raw? (elementsKey group)
      = if group ∈ p.unstored then none else some (Json.ofTexts (p.form.orderOf group)) := by
  have hunstored : group ∈ p.unstored ↔ p.store.contains (elementsKey group) = false := by
    rw [hintact.unstored, Layout.unstored, List.mem_filter, Bool.not_eq_true']
    exact and_iff_right hgroup
  rw [Store.contains] at hunstored
  cases hraw : p.store.raw? (elementsKey group) with
  | none =>
    rw [hraw] at hunstored
    rw [if_pos (hunstored.mpr rfl)]
  | some v =>
    rw [hraw] at hunstored
    rw [if_neg fun hmem => absurd (hunstored.mp hmem) (by simp)]
    have hapart : ∀ k ∈ filterGroups, elementsKey k ≠ textKey ∧ elementsKey k ≠ sensitiveKey := by decide
    obtain ⟨htext, hsensitive⟩ := hapart group hgroup
    obtain ⟨ids, rfl⟩ := (h.kind_of_fixedKey hintact (mem_fixedKeys_elementsKey hgroup) hraw).2.2 htext hsensitive
    -- the list is read as the order of the group, so that is what it is
    obtain ⟨g, hg, rfl⟩ := hintact.fits.exists_group (List.mem_append_right _ hgroup)
    have hread := hintact.records.order g hg ((hintact.fits.dynamic_iff hg).mpr hgroup)
    rw [Store.get_of_raw? hraw, Json.texts?_ofTexts, Option.getD_some] at hread
    rw [hread, p.form.orderOf_of_mem hintact.fits.groups_nodup hg]

/-- A flag that is stored for a member is its value. -/
theorem Intact.raw?_member (h : p.Intact settings) (hgroup : group ∈ fixedGroups ++ filterGroups)
    {c : Checkbox} (hc : c ∈ p.form.membersOf group) {b : Bool} (hraw : p.store.raw? c.id = some (.bool b)) :
    b = c.selected := by
  obtain ⟨g, hg, rfl⟩ := h.fits.exists_group hgroup
  rw [Form.membersOf_of_mem h.fits.groups_nodup hg] at hc
  have hvalued : p.Valued settings c := h.values g hg c hc not_false
  rw [Valued, Store.get_of_raw? hraw] at hvalued
  exact hvalued

/-- The label of an element is stored, since no element is without one. -/
theorem Intact.raw?_label (h : p.Intact settings) (hgroup : group ∈ filterGroups) {c : Checkbox}
    (hc : c ∈ p.form.membersOf group) : p.store.raw? (labelKey c.id) = some (.str c.label) := by
  obtain ⟨g, hg, rfl⟩ := h.fits.exists_group (List.mem_append_right _ hgroup)
  have hdyn := (h.fits.dynamic_iff hg).mpr hgroup
  rw [Form.membersOf_of_mem h.fits.groups_nodup hg] at hc
  have hlabel := ((h.named g hg).element hdyn c hc).1
  have hread := h.records.label g hg hdyn c hc
  unfold Store.get at hread
  cases hraw : p.store.raw? (labelKey c.id) with
  | none =>
    rw [hraw] at hread
    exact absurd hread.symm hlabel
  | some v =>
    rw [hraw] at hread
    cases v with
    | str label => exact congrArg (fun t => some (Json.str t)) hread
    | _ => exact absurd hread.symm hlabel

/-- A key that starts like those of the elements of a filter is that of an element. -/
theorem Tidy.eq_of_starts (h : p.Tidy) (hintact : p.Intact settings) (hgroup : group ∈ filterGroups) {key : String}
    (hstarts : (group ++ "-").toList <+: key.toList) (hkey : p.store.contains key = true) :
    ∃ c ∈ p.form.membersOf group, key = c.id ∨ key = labelKey c.id := by
  have hplain : dashes key ≠ 0 := by
    obtain ⟨rest, hrest⟩ := hstarts
    rw [dashes, ← hrest]
    simp
  rcases h.only hkey with hfixed | ⟨group', hgroup', c, hc, rfl⟩ | ⟨group', hgroup', c, hc, rfl⟩
  · exact absurd (dashes_of_mem_plainNames key (by simp [plainNames, reservedNames, hfixed])) hplain
  · rcases List.mem_append.mp hgroup' with hgroup' | hgroup'
    · have hid : c.id ∈ fixedIds group' := by
        rw [← Form.ids_membersOf hintact.fits hgroup']
        exact List.mem_map_of_mem hc
      exact absurd (dashes_of_mem_plainNames _ (Fits.mem_plainNames_fixedIds hgroup' hid)) hplain
    · obtain ⟨n, hn⟩ := hintact.element_id hgroup' (List.mem_map_of_mem hc)
      obtain rfl := eq_of_prefix hgroup hgroup' hstarts ⟨Decimal.numeral n, by simp [hn, Numbering.idOf]⟩
      exact ⟨c, hc, Or.inl rfl⟩
  · obtain ⟨n, hn⟩ := hintact.element_id hgroup' (List.mem_map_of_mem hc)
    obtain rfl := eq_of_prefix hgroup hgroup' hstarts
      ⟨Decimal.numeral n ++ "-label".toList, by simp [hn, Numbering.idOf, labelKey]⟩
    exact ⟨c, hc, Or.inr rfl⟩

/-- The ids of groups, which are those of main checkboxes, have nothing in the store. -/
theorem Tidy.raw?_group (h : p.Tidy) (hintact : p.Intact settings) (hg : g ∈ p.form.groups) :
    p.store.raw? g.id = none := by
  by_contra hsome
  have hplain := hintact.fits.dashes_id hg
  rcases h.only (Option.isSome_iff_ne_none.mpr hsome) with hkey | ⟨x, hx, c, hc, hid⟩ | ⟨x, -, c, -, hid⟩
  · have hnames : ∀ x ∈ fixedGroups ++ filterGroups, x ∉ fixedKeys := by decide
    rw [← hintact.fits.groups_ids] at hnames
    exact hnames g.id (List.mem_map_of_mem hg) hkey
  · obtain ⟨g', hg', rfl⟩ := hintact.fits.exists_group hx
    rw [Form.membersOf_of_mem hintact.fits.groups_nodup hg'] at hc
    exact hintact.fits.member_id_ne_group_id hintact.named hg' (List.mem_map_of_mem hc) hintact.fits hg hid
  · rw [hid, dashes_labelKey] at hplain
    omega

/-- **The store is exactly the image of the panel**, in every panel that is ever open: it has the elements of
the filters, with their values and labels, and what it has besides is right; there is no other key, and in
particular nothing of an element that is gone. No element may have had the last number: the one added after it has
the id of another one, and so its keys. -/
theorem store_is_image (h : Reached trail settings p) (hrange : ∀ q ∈ trail, q.InRange) : p.Mirrored := by
  have hintact := (h.intact hrange).1
  have htidy := h.tidy hrange
  constructor
  case elements => exact fun group hgroup => htidy.raw?_elementsKey hintact hgroup
  case element =>
    intro group hgroup c hc
    obtain ⟨b, hb⟩ := htidy.filled group hgroup c.id (List.mem_map_of_mem hc)
    refine ⟨?_, hintact.raw?_label hgroup hc⟩
    rw [hb, hintact.raw?_member (List.mem_append_right _ hgroup) hc hb]
  case nothingLeft => exact fun group hgroup key hstarts hkey => htidy.eq_of_starts hintact hgroup hstarts hkey
  case fixed =>
    intro group hgroup c hc
    have hgroup' : group ∈ fixedGroups ++ filterGroups := List.mem_append_left _ hgroup
    cases hraw : p.store.raw? c.id with
    | none => exact Or.inl rfl
    | some v =>
      obtain ⟨b, rfl⟩ := htidy.flag_of_member hintact hgroup' (List.mem_map_of_mem hc) hraw
      rw [hintact.raw?_member hgroup' hc hraw]
      exact Or.inr rfl
  case text =>
    cases hraw : p.store.raw? textKey with
    | none => exact Or.inl rfl
    | some v =>
      obtain ⟨text, rfl⟩ := (htidy.kind_of_fixedKey hintact (by decide) hraw).1 rfl
      have hread := hintact.text
      rw [Store.get_of_raw? hraw] at hread
      exact Or.inr (congrArg (fun t => some (Json.str t)) hread)
  case sensitiveCase =>
    cases hraw : p.store.raw? sensitiveKey with
    | none => exact Or.inl rfl
    | some v =>
      obtain ⟨b, rfl⟩ := (htidy.kind_of_fixedKey hintact (by decide) hraw).2.1 rfl
      have hread := hintact.sensitiveCase
      rw [Store.get_of_raw? hraw] at hread
      exact Or.inr (congrArg (fun b => some (Json.bool b)) hread)
  case history =>
    cases hraw : p.store.raw? historyKey with
    | none => exact Or.inl rfl
    | some v =>
      obtain ⟨texts, rfl⟩ := (htidy.kind_of_fixedKey hintact (by decide) hraw).2.2 (by decide) (by decide)
      have hread := hintact.history
      rw [Store.get_of_raw? hraw, Json.texts?_ofTexts] at hread
      exact Or.inr ⟨texts, rfl, hread⟩
  case only => exact fun key hkey => htidy.only hkey
  case main => exact fun g hg => htidy.raw?_group hintact hg

/-- The same for an element of a first session that is removed in a second one. -/
theorem store_is_image_after_removal :
    let p := (restore Store.empty Settings.standard).perform (.edit included (.add "*.rs" true none))
    let q := ((restore p.store Settings.standard).perform (.edit included (.add "*.ts" false none))).perform
      (.edit included (.remove "filesToInclude-0"))
    q.store.keys = ["filesToInclude-1", "filesToInclude-1-label", "filesToIncludeElts"] ∧ q.Mirrored := by
  intro p q
  have hq : Reached _ Settings.standard q :=
    .perform (.perform (.reopen (.perform (.first rfl Settings.standard) _) Settings.standard) _) _
  exact ⟨by decide +kernel, store_is_image hq (by decide)⟩

/-- After the last number the first one is given again, and the label of the new element overwrites that of the
first. -/
theorem store_not_image_after_last_number :
    let p := (((restore Store.empty Settings.standard).perform (.edit included (.add "a" true none))).perform
      (.edit included (.add "b" true (some "filesToInclude-18446744073709551615")))).perform
      (.edit included (.add "c" true none))
    (∃ trail, Reached trail Settings.standard p) ∧ ¬p.Mirrored := by
  intro p
  refine ⟨⟨_, .perform (.perform (.perform (.first rfl _) _) _) _⟩, fun h => ?_⟩
  have hfirst : ⟨"filesToInclude-0", "a", true, true⟩ ∈ p.form.membersOf included := by decide +kernel
  have hlabel : p.store.get (labelKey "filesToInclude-0") Json.text? "" = "c" := by decide +kernel
  have hread := Store.get_of_raw? (h.element included (by decide) _ hfirst).2 Json.text? ""
  exact absurd (hlabel.symm.trans hread) (by decide)

end Panel

end AnyCase
