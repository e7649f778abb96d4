import AnyCase.Proofs.Apart
import AnyCase.Proofs.Image

/-!
# `Proofs.Edited` — what edits of filters leave alone

An edit of a filter writes the records of that filter, and saves the members that the rules have unselected. The text,
the case sensitivity and the history keep their keys, and so does every member of a fixed group that keeps its value;
no edit selects one. `Panel.Edited` says so of a panel and one that has come about from it by edits that set no
values. It holds after one edit (`Intact.edited_of_edit?`), and after any number of them (`Edited.trans`).

All else that such a panel has in its store is the image of its form. So two panels that have come about from one are
the same, store and all, if they have the same form (`Edited.eq_of_form`): in what order the store was written leaves
no trace in it.
-/

namespace AnyCase

open Layout

/-! ## Where a store is kept -/

namespace Store

variable {s s' : Store}

/-- Whether a store is kept in a file. -/
def inFile (s : Store) : Bool :=
  match s.medium with
  | .memory => false
  | .file _ => true

@[simp] theorem inFile_set (s : Store) (key : String) (v : Json) : (s.set key v).inFile = s.inFile := by
  obtain ⟨values, medium⟩ := s
  cases medium <;> rfl

@[simp] theorem inFile_delete (s : Store) (key : String) : (s.delete key).inFile = s.inFile := by
  obtain ⟨values, medium⟩ := s
  cases medium <;> rfl

@[simp] theorem inFile_setValues (s : Store) (members : List Checkbox) : (s.setValues members).inFile = s.inFile := by
  induction members generalizing s with
  | nil => rfl
  | cons c rest ih => exact (ih _).trans (inFile_set s _ _)

/-- Two stores that have been written are the same if they answer alike and are both kept in a file or both not. -/
theorem Written.eq_of_raw? (hw : s.Written) (hw' : s'.Written) (hfile : s.inFile = s'.inFile)
    (hraw : ∀ key, s.raw? key = s'.raw? key) : s = s' := by
  obtain ⟨values, medium⟩ := s
  obtain ⟨values', medium'⟩ := s'
  obtain rfl : values = values' := Dict.ext hraw
  unfold Written at hw hw'
  congr 1
  cases medium with
  | memory =>
    cases medium' with
    | memory => rfl
    | file text' => exact absurd hfile (by simp [inFile])
  | file text =>
    cases medium' with
    | memory => exact absurd hfile (by simp [inFile])
    | file text' => exact hw.symm.trans hw'

end Store

/-- Whether an edit stores the ids of the elements, which are others after it or in another order. -/
def Edit.storesOrder : Edit → Bool
  | .set _ | .amend .. => false
  | .add .. | .remove _ | .reorder _ => true

namespace Panel

variable {settings : Settings} {p p' p₁ q q₁ q₂ : Panel} {group : String} {e : Edit} {due : Due} {searched : Bool}

/-- What the first step of an edit does to the store and leaves alone in it: no key without a dash is touched,
the list of the elements apart. -/
theorem Intact.store_change? (h : p.Intact settings) (he : ∀ values, e ≠ .set values)
    (hchange : p.change? group e = .ok (due, p₁)) :
    (p₁.store.Written ∧ p₁.store.inFile = p.store.inFile) ∧
      (∀ key, dashes key = 0 → key ≠ elementsKey group → p₁.store.raw? key = p.store.raw? key) ∧
      p₁.unstored = if e.storesOrder then p.unstored.filter (· ≠ group) else p.unstored := by
  have hlabel : ∀ {key : String} (id : String), dashes key = 0 → key ≠ labelKey id := by
    rintro key id hplain rfl
    rw [dashes_labelKey] at hplain
    omega
  -- three of the edits store the order after what they do to the store before
  have hordered : ∀ {f : Form} {s : Store}, p.form.edit? group e = .ok f → s.inFile = p.store.inFile →
      (∀ key, dashes key = 0 → s.raw? key = p.store.raw? key) →
      let r := { p with form := f, store := s }.saveOrder group
      (r.store.Written ∧ r.store.inFile = p.store.inFile) ∧
        (∀ key, dashes key = 0 → key ≠ elementsKey group → r.store.raw? key = p.store.raw? key) ∧
        r.unstored = p.unstored.filter (· ≠ group) := by
    intro f s hform hfile hframe r
    obtain ⟨g, g₁, hg, -, -, hedit, -, -⟩ := Form.edit?_spec hform
    have hr : r = _ := saveOrder_edited hform hg hedit s
    rw [hr]
    refine ⟨⟨Store.written_withValues _ _, (Store.inFile_set _ _ _).trans hfile⟩, fun key hplain hne => ?_, rfl⟩
    exact (Store.raw?_set_of_ne hne).trans (hframe key hplain)
  cases changed_of_change? hchange with
  | set _ => exact absurd rfl (he _)
  | @add label id selected proposed f hadd =>
    obtain ⟨-, -, -, -, -, hform⟩ := Form.add?_spec hadd
    exact hordered hform (Store.inFile_set _ _ _) fun key hplain => Store.raw?_set_of_ne (hlabel id hplain)
  | @amend id label selected f hamend =>
    refine ⟨⟨Store.written_withValues _ _, Store.inFile_set _ _ _⟩, fun key hplain _ => ?_, rfl⟩
    exact Store.raw?_set_of_ne (hlabel id hplain)
  | @remove id removed f hremove =>
    obtain ⟨g, g₁, hg, hdyn, hremove₁, hform⟩ := Form.remove?_spec hremove
    have hid : id ∈ g.order := Group.mem_order_of_member? (Group.remove?_spec hremove₁).1
    have hdashes := (h.named g (Form.mem_of_group? hg)).one_le_dashes hdyn hid
    refine hordered hform ?_ fun key hplain => ?_
    · exact (Store.inFile_delete _ _).trans (Store.inFile_delete _ _)
    · have hne : key ≠ id := by
        rintro rfl
        omega
      exact (Store.raw?_delete_of_ne (hlabel id hplain)).trans (Store.raw?_delete_of_ne hne)
  | @reorder ids f hreorder =>
    rw [Form.reorder?_eq h.consistent] at hreorder
    exact hordered hreorder rfl fun _ _ => rfl

/-- What is stored of a member after saving the changes: its value, if that is another one than before. -/
theorem raw?_saveChanges (hd : ((p.form.groups.flatMap (·.members)).map (·.id)).Nodup) {c : Checkbox}
    (hc : c ∈ p.form.groups.flatMap (·.members)) (before : Dict Bool) :
    (p.saveChanges before).store.raw? c.id
      = if before.get? c.id = some c.selected then p.store.raw? c.id else some (.bool c.selected) := by
  rw [saveChanges, saveAll_eq]
  have hsub : ((p.form.groups.flatMap (·.members)).filter fun c => before.get? c.id ≠ some c.selected).Sublist
      (p.form.groups.flatMap (·.members)) := List.filter_sublist
  split
  · rename_i hsame
    refine Store.raw?_setValues_of_not_mem fun hmem => ?_
    obtain ⟨d, hdmem, hid⟩ := List.mem_map.mp hmem
    obtain rfl := List.inj_on_of_nodup_map hd (hsub.subset hdmem) hc hid
    exact of_decide_eq_true (List.mem_filter.mp hdmem).2 hsame
  · rename_i hchanged
    exact Store.raw?_setValues_of_mem (hd.sublist (hsub.map _)) (List.mem_filter.mpr ⟨hc, decide_eq_true hchanged⟩)

/-- A panel after edits that set no values. It is told by what they leave alone: a member of a fixed group is as it
was, in the form and in the store, or it was unselected in both. -/
structure Edited (p q : Panel) : Prop where
  text : q.text = p.text
  sensitiveCase : q.sensitiveCase = p.sensitiveCase
  history : q.history = p.history
  historyLength : q.historyLength = p.historyLength
  written : q.store.Written
  inFile : q.store.inFile = p.store.inFile
  own : ∀ key ∈ ownKeys, q.store.raw? key = p.store.raw? key
  fixed : ∀ k ∈ fixedGroups, ∀ d ∈ q.form.membersOf k, ∃ c ∈ p.form.membersOf k,
    (d = c ∧ q.store.raw? c.id = p.store.raw? c.id) ∨
      (c.selected = true ∧ d = c.cleared ∧ q.store.raw? c.id = some (.bool false))

theorem Edited.trans (h : p.Edited p') (h' : p'.Edited q) : p.Edited q where
  text := h'.text.trans h.text
  sensitiveCase := h'.sensitiveCase.trans h.sensitiveCase
  history := h'.history.trans h.history
  historyLength := h'.historyLength.trans h.historyLength
  written := h'.written
  inFile := h'.inFile.trans h.inFile
  own := fun key hkey => (h'.own key hkey).trans (h.own key hkey)
  fixed := by
    intro k hk d hd
    obtain ⟨c', hc', hlast⟩ := h'.fixed k hk d hd
    obtain ⟨c, hc, hfirst⟩ := h.fixed k hk c' hc'
    refine ⟨c, hc, ?_⟩
    rcases hfirst with ⟨rfl, hraw⟩ | ⟨hon, rfl, hraw⟩
    · exact hlast.imp_left fun ⟨hd, hraw'⟩ => ⟨hd, hraw'.trans hraw⟩
    · right
      -- what was unselected is not unselected again
      rcases hlast with ⟨hd, hraw'⟩ | ⟨hon', -, -⟩
      · exact ⟨hon, hd, hraw'.trans hraw⟩
      · exact absurd hon' (by simp)

/-- An edit of a filter leaves a member of a fixed group as it is, or unselects it. -/
theorem mem_membersOf_edit? {f f' : Form} (hedit : f.edit? group e = .ok f') {k : String} (hk : k ≠ group)
    {d : Checkbox} (hd : d ∈ f'.membersOf k) : ∃ c ∈ f.membersOf k, d = c ∨ d = c.cleared := by
  obtain ⟨g, g₁, hg, -, -, hedit₁, -, -⟩ := Form.edit?_spec hedit
  rw [Form.membersOf_edit? hedit hg hedit₁, if_neg hk] at hd
  split at hd
  · obtain ⟨c, hc, rfl⟩ := List.mem_map.mp hd
    exact ⟨c, hc, Or.inr rfl⟩
  · exact ⟨d, hd, Or.inl rfl⟩

/-- A member of a fixed group after an edit of a filter: it is as it was, in the form and in the store, or it was
unselected in both. -/
theorem Intact.fixed_edit? (h : p.Intact settings) (hn : p.form.NumberedAt group) (hgroup : group ∈ filterGroups)
    (he : ∀ values, e ≠ .set values) (hchange : p.change? group e = .ok (due, p₁)) :
    ∀ k ∈ fixedGroups, ∀ d ∈ p₁.form.membersOf k, ∃ c ∈ p.form.membersOf k,
      (d = c ∧ (p₁.saveChanges p.form.values).store.raw? c.id = p.store.raw? c.id) ∨
        (c.selected = true ∧ d = c.cleared ∧
          (p₁.saveChanges p.form.values).store.raw? c.id = some (.bool false)) := by
  intro k hk d hd
  have hne : k ≠ group := fun heq => not_mem_fixedGroups group hgroup (heq ▸ hk)
  obtain ⟨c, hc, hcases⟩ := mem_membersOf_edit? (form_of_change? h.consistent hchange) hne hd
  have hget : p.form.values.get? c.id = some c.selected := by
    obtain ⟨g, hg, -, hcg⟩ := Form.mem_membersOf hc
    exact Form.get?_values (h.fits.ids_nodup h.named) hg hcg
  -- its key has no dash, so only saving the changes can have touched it
  have hkey : p₁.store.raw? c.id = p.store.raw? c.id := by
    have horder : c.id ∈ p.form.orderOf k := List.mem_map_of_mem hc
    refine (h.store_change? he hchange).2.1 c.id ?_ fun heq => ?_
    · rw [Form.orderOf, Form.ids_membersOf h.fits hk] at horder
      exact dashes_of_mem_plainNames _ (Fits.mem_plainNames_fixedIds hk horder)
    · refine h.member_not_isRecord (List.mem_append_left _ hk) horder ?_
      exact heq ▸ isRecord_of_mem (mem_fixedKeys_elementsKey hgroup)
  have hmem : d ∈ p₁.form.groups.flatMap (·.members) := by
    obtain ⟨g, hg, -, hdg⟩ := Form.mem_membersOf hd
    exact List.mem_flatMap.mpr ⟨g, hg, hdg⟩
  have hraw := raw?_saveChanges (h.change? hn hchange).members_nodup hmem p.form.values
  refine ⟨c, hc, ?_⟩
  rcases hcases with rfl | rfl
  · rw [hget, if_pos rfl, hkey] at hraw
    exact Or.inl ⟨rfl, hraw⟩
  · rw [Checkbox.cleared_id, hget, hkey] at hraw
    cases hon : c.selected with
    | true =>
      rw [if_neg (by simp [hon])] at hraw
      exact Or.inr ⟨rfl, rfl, hraw⟩
    | false =>
      have hsame : c.cleared = c := by
        rw [Checkbox.cleared, ← hon]
      rw [if_pos (by simp [hon])] at hraw
      exact Or.inl ⟨hsame, hraw⟩

/-- **One edit.** -/
theorem Intact.edited_of_edit? (h : p.Intact settings) (hn : p.form.NumberedAt group) (hgroup : group ∈ filterGroups)
    (he : ∀ values, e ≠ .set values) (hedit : p.edit? group e = .ok (searched, q)) :
    p.Edited q ∧ q.unstored = if e.storesOrder then p.unstored.filter (· ≠ group) else p.unstored := by
  have hq : q.Intact settings := h.edit? hn hedit
  obtain ⟨⟨due, p₁⟩, hchange, heq⟩ := bind_eq_ok_iff.mp hedit
  obtain ⟨-, rfl⟩ := Prod.mk.inj (Except.ok.inj heq)
  obtain ⟨⟨hwritten, hfile⟩, hframe, hunstored⟩ := h.store_change? he hchange
  obtain ⟨s, u, hp₁⟩ := change?_frame hchange
  obtain ⟨changed, hsub, hsave⟩ : ∃ changed, changed ⊆ p₁.form.groups.flatMap (·.members) ∧
      p₁.saveChanges p.form.values = { p₁ with store := p₁.store.setValues changed } :=
    ⟨_, List.filter_sublist.subset, saveAll_eq p₁ _⟩
  have hown : ∀ key ∈ ownKeys, (p₁.store.setValues changed).raw? key = p.store.raw? key := by
    have hkeys : ∀ key ∈ ownKeys, key ∈ fixedKeys ∧ dashes key = 0 ∧ ∀ k ∈ filterGroups, key ≠ elementsKey k := by
      decide
    intro key hkey
    obtain ⟨hfixed, hplain, hne⟩ := hkeys key hkey
    rw [hsave] at hq
    rw [← hframe key hplain (hne group hgroup)]
    exact Store.raw?_setValues_of_not_mem (hq.fixedKey_not_member hsub hfixed)
  have hfixed := h.fixed_edit? hn hgroup he hchange
  rw [hsave] at hfixed ⊢
  refine ⟨⟨?_, ?_, ?_, ?_, Store.written_setValues hwritten changed, ?_, hown, hfixed⟩, hunstored⟩
  · rw [hp₁]
  · rw [hp₁]
  · rw [hp₁]
  · rw [hp₁]
  · exact (Store.inFile_setValues _ _).trans hfile

/-- The flag of an element is its value. -/
theorem Tidy.raw?_element (h : p.Tidy) (hintact : p.Intact settings) (hgroup : group ∈ filterGroups) {c : Checkbox}
    (hc : c ∈ p.form.membersOf group) : p.store.raw? c.id = some (.bool c.selected) := by
  obtain ⟨b, hb⟩ := h.filled group hgroup c.id (List.mem_map_of_mem hc)
  rw [hb, hintact.raw?_member (List.mem_append_right _ hgroup) hc hb]

/-- What edits have done to the key of a fixed member is told by what has become of the member. -/
theorem Edited.raw?_fixed (h₁ : p.Edited q₁) (h₂ : p.Edited q₂) (hfits : Fits p.form) {k : String}
    (hk : k ∈ fixedGroups) {d : Checkbox} (hd₁ : d ∈ q₁.form.membersOf k) (hd₂ : d ∈ q₂.form.membersOf k) :
    q₁.store.raw? d.id = q₂.store.raw? d.id := by
  have hnodup : ∀ k ∈ fixedGroups, (fixedIds k).Nodup := by decide
  have hdistinct : ((p.form.membersOf k).map (·.id)).Nodup := by
    rw [Form.ids_membersOf hfits hk]
    exact hnodup k hk
  obtain ⟨c, hc, hfirst⟩ := h₁.fixed k hk d hd₁
  obtain ⟨c', hc', hsecond⟩ := h₂.fixed k hk d hd₂
  have hid : d.id = c.id := by rcases hfirst with ⟨rfl, -⟩ | ⟨-, rfl, -⟩ <;> rfl
  have hid' : d.id = c'.id := by rcases hsecond with ⟨rfl, -⟩ | ⟨-, rfl, -⟩ <;> rfl
  obtain rfl := List.inj_on_of_nodup_map hdistinct hc hc' (hid.symm.trans hid')
  rw [hid]
  rcases hfirst with ⟨hd, hraw⟩ | ⟨hon, hd, hraw⟩
  · rcases hsecond with ⟨-, hraw'⟩ | ⟨hon, hd', -⟩
    · rw [hraw, hraw']
    · rw [← hd, hd'] at hon
      exact absurd hon (by simp)
  · rcases hsecond with ⟨hd', -⟩ | ⟨-, -, hraw'⟩
    · rw [← hd', hd] at hon
      exact absurd hon (by simp)
    · rw [hraw, hraw']

/-- **Two panels that have come about by edits are the same if they have the same form** and have stored the
elements of the same filters: what their stores have is what the edits left alone, or an image of the form. -/
theorem Edited.eq_of_form (h₁ : p.Edited q₁) (h₂ : p.Edited q₂) (hfits : Fits p.form)
    (hq₁ : q₁.Intact settings) (hq₂ : q₂.Intact settings) (ht₁ : q₁.Tidy) (ht₂ : q₂.Tidy)
    (hform : q₁.form = q₂.form) (hunstored : q₁.unstored = q₂.unstored) : q₁ = q₂ := by
  have hknown : ∀ key, (key ∈ fixedKeys ∨
      (∃ group ∈ fixedGroups ++ filterGroups, ∃ c ∈ q₁.form.membersOf group, key = c.id) ∨
        ∃ group ∈ filterGroups, ∃ c ∈ q₁.form.membersOf group, key = labelKey c.id) →
      q₁.store.raw? key = q₂.store.raw? key := by
    rintro key (hkey | ⟨group, hgroup, c, hc, rfl⟩ | ⟨group, hgroup, c, hc, rfl⟩)
    · rcases List.mem_append.mp hkey with hkey | hkey
      · rw [h₁.own key hkey, h₂.own key hkey]
      · obtain ⟨group, hgroup, rfl⟩ := List.mem_map.mp hkey
        rw [ht₁.raw?_elementsKey hq₁ hgroup, ht₂.raw?_elementsKey hq₂ hgroup, hunstored, hform]
    · have hc₂ : c ∈ q₂.form.membersOf group := hform ▸ hc
      rcases List.mem_append.mp hgroup with hgroup | hgroup
      · exact h₁.raw?_fixed h₂ hfits hgroup hc hc₂
      · rw [ht₁.raw?_element hq₁ hgroup hc, ht₂.raw?_element hq₂ hgroup hc₂]
    · rw [hq₁.raw?_label hgroup hc, hq₂.raw?_label hgroup (hform ▸ hc)]
  have hraw : ∀ key, q₁.store.raw? key = q₂.store.raw? key := by
    intro key
    by_cases hkey : q₁.store.contains key = true
    · exact hknown key (ht₁.only hkey)
    · by_cases hkey' : q₂.store.contains key = true
      · apply hknown key
        rw [hform]
        exact ht₂.only hkey'
      · rw [Store.contains, Option.not_isSome_iff_eq_none] at hkey hkey'
        rw [hkey, hkey']
  have hstore : q₁.store = q₂.store := h₁.written.eq_of_raw? h₂.written (h₁.inFile.trans h₂.inFile.symm) hraw
  have htext := h₁.text.trans h₂.text.symm
  have hsensitive := h₁.sensitiveCase.trans h₂.sensitiveCase.symm
  have hhistory := h₁.history.trans h₂.history.symm
  have hlength := h₁.historyLength.trans h₂.historyLength.symm
  obtain ⟨store, form, text, sensitiveCase, history, historyLength, unstored⟩ := q₁
  congr

end Panel

end AnyCase
