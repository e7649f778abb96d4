import AnyCase.Proofs.Resubmit

/-!
# `Proofs.Apart` — edits of two groups of one form

Two groups are *apart* if no exclusion links them, with each other or with themselves (`Form.Apart`). An edit of
the one then leaves the elements of the other one alone; all that it may do to that group is enable or disable
it (`Apart.group?_edit?`). An edit that sets no values does not ask whether its group is enabled
(`Group.edit?_enabled`). So it is refused after the edit of the other group exactly if it was refused before
(`Apart.refused_edit?`), and if both edits are made, the order in which they are has no part in the form that
comes out (`Apart.edit?_comm`): what both may unselect are third groups, and unselecting them twice does no more
than doing it once.
-/

namespace AnyCase

section ModifyFirst

variable {α β : Type} {p q : α → Bool}

/-- Changes of different elements can be made in either order. -/
theorem modifyFirst_comm {f k : α → α} (hpq : ∀ x, p x = true → q x = false)
    (hf : ∀ x, p x = true → q (f x) = false) (hk : ∀ x, q x = true → p (k x) = false) (l : List α) :
    modifyFirst p f (modifyFirst q k l) = modifyFirst q k (modifyFirst p f l) := by
  induction l with
  | nil => rfl
  | cons x rest ih =>
    cases hp : p x with
    | true => simp [modifyFirst, hp, hpq x hp, hf x hp]
    | false =>
      cases hq : q x with
      | true => simp [modifyFirst, hp, hq, hk x hq]
      | false => simp [modifyFirst, hp, hq, ih]

/-- An element is put in the place of another one before or after all are mapped. -/
theorem modifyFirst_map {r : β → Bool} {h : α → β} (hr : ∀ x, r (h x) = p x) (y : α) (l : List α) :
    modifyFirst r (fun _ => h y) (l.map h) = (modifyFirst p (fun _ => y) l).map h := by
  induction l with
  | nil => rfl
  | cons x rest ih =>
    rw [List.map_cons, modifyFirst, modifyFirst, hr]
    split
    · rfl
    · rw [ih, List.map_cons]

end ModifyFirst

/-! ## Edits that set no values -/

namespace Group

/-- **An edit that sets no values does not ask whether the group is enabled.** -/
theorem edit?_enabled {e : Edit} (he : ∀ values, e ≠ .set values) (g : Group) (on : Bool) :
    { g with enabled := on }.edit? e = (g.edit? e).map fun g' => { g' with enabled := on } := by
  have hrevised : ∀ g : Group, g.revised (fun _ => on) (fun s => s) = { g with enabled := on } := by
    intro g
    simp [revised]
  cases e with
  | add label selected proposed =>
    unfold edit? add?
    cases g.numbering with
    | none => rfl
    | some numbering => by_cases hlabel : label = "" <;> simp [hlabel, Except.map, aggregate, allSelected]
  | set values => exact absurd rfl (he values)
  | _ =>
    have hedit := edit?_revised (fun _ => on) (fun s => s) (g := g) (by simp) fun values heq => absurd heq (he values)
    simpa only [hrevised, funext hrevised] using hedit

end Group

namespace Form

variable {f f' f₁ f₂ : Form} {group a b x : String} {e e' : Edit} {g g' g₁ g₂ : Group}

/-! ## The form after an edit -/

theorem blank_edit? (h : f.edit? group e = .ok f') (hg : f.group? group = some g) (hedit : g.edit? e = .ok g₁) :
    f'.blank = f.blank.replace g₁.blank := by
  obtain ⟨-, -, -, rfl⟩ := edit?_of_group? h hg hedit
  rw [blank_reconcile]
  show Form.mk ((modifyFirst _ _ f.groups).map Group.blank) f.rules
    = Form.mk (modifyFirst _ _ (f.groups.map Group.blank)) f.rules
  rw [modifyFirst_map fun _ => rfl]
  rfl

/-- What an edit does to the members of each group: those of the edited one are the new ones, and those of its
rivals are unselected if the edit selects something. -/
theorem membersOf_edit? (h : f.edit? group e = .ok f') (hg : f.group? group = some g)
    (hedit : g.edit? e = .ok g₁) (x : String) :
    f'.membersOf x = if e.selects group = true ∧ x ∈ f.rules.filterMap (Rule.rivalOf group)
      then (if x = group then g₁.members else f.membersOf x).map Checkbox.cleared
      else if x = group then g₁.members else f.membersOf x := by
  obtain ⟨-, -, hid₁, rfl⟩ := edit?_of_group? h hg hedit
  rw [membersOf_reconcile, membersOf_replace hg hid₁]
  rfl

/-- Groups of different ids can be put in their places in either order. -/
theorem replace_comm (hne : g₁.id ≠ g₂.id) (f : Form) :
    (f.replace g₁).replace g₂ = (f.replace g₂).replace g₁ := by
  unfold replace modifyGroup
  congr 1
  refine modifyFirst_comm (fun x hx => ?_) (fun _ _ => ?_) (fun _ _ => ?_) f.groups
  · rw [decide_eq_true_eq] at hx
    simpa [hx] using hne.symm
  · simpa using hne.symm
  · simpa using hne

/-- What the rules make of a group that is no rival of the changed one. -/
theorem group?_reconcile (hrival : x ∉ f.rules.filterMap (Rule.rivalOf group)) (selected : Bool) :
    ∃ on, (f.reconcile group selected).group? x = (f.group? x).map fun g => { g.aggregate with enabled := on } := by
  have hkept : ∃ f' : Form, f.reconcile group selected = f'.aggregate.enable ∧ f'.group? x = f.group? x := by
    cases selected with
    | false => exact ⟨f, rfl, rfl⟩
    | true =>
      refine ⟨f.unselect (f.rules.filterMap (Rule.rivalOf group)), rfl, ?_⟩
      rw [group?_unselect]
      simp only [if_neg hrival, Option.map_id']
  obtain ⟨f', heq, hsame⟩ := hkept
  rw [heq, group?_enable, group?_aggregate, hsame]
  cases f.group? x with
  | none => exact ⟨true, rfl⟩
  | some g => exact ⟨_, rfl⟩

/-! ## Two groups -/

/-- Two groups that no exclusion links, with each other or with themselves. -/
structure Apart (f : Form) (a b : String) : Prop where
  ne : a ≠ b
  unlinked : ∀ x ∈ [a, b], ∀ y ∈ [a, b], .exclusive x y ∉ f.rules

namespace Apart

theorem symm (h : f.Apart a b) : f.Apart b a where
  ne := h.ne.symm
  unlinked := by
    have hswap : ∀ x ∈ [b, a], x ∈ [a, b] := by simp
    exact fun x hx y hy => h.unlinked x (hswap x hx) y (hswap y hy)

/-- Neither of them is a rival of one of them. -/
theorem not_mem_rivals (h : f.Apart a b) {x y : String} (hx : x ∈ [a, b]) (hy : y ∈ [a, b]) :
    y ∉ f.rules.filterMap (Rule.rivalOf x) := by
  intro hmem
  rcases mem_rivals.mp hmem with hrule | hrule
  · exact h.unlinked x hx y hy hrule
  · exact h.unlinked y hy x hx hrule

/-- **All that an edit does to a group apart is enabling or disabling it.** -/
theorem group?_edit? (h : f.Apart a b) (hf : f.Consistent) (h₁ : f.edit? a e = .ok f₁) :
    ∃ on, f₁.group? b = (f.group? b).map fun g => { g with enabled := on } := by
  obtain ⟨g, g₁, hg, -, -, -, hid₁, rfl⟩ := edit?_spec h₁
  have hrival : b ∉ (f.replace g₁).rules.filterMap (Rule.rivalOf a) := h.not_mem_rivals (by simp) (by simp)
  obtain ⟨on, hlook⟩ := group?_reconcile hrival (e.selects a)
  refine ⟨on, ?_⟩
  rw [hlook, group?_replace hg hid₁, if_neg h.ne.symm]
  cases hfound : f.group? b with
  | none => rfl
  | some g₂ =>
    have hagg : g₂.aggregate = g₂ := hf.aggregated g₂ (mem_of_group? hfound)
    rw [Option.map_some, Option.map_some, hagg]

/-- The elements of a group apart keep their numbers. -/
theorem numberedAt_edit? (h : f.Apart a b) (hf : f.Consistent) (hn : f.NumberedAt b) (h₁ : f.edit? a e = .ok f₁) :
    f₁.NumberedAt b := by
  obtain ⟨on, hlook⟩ := h.group?_edit? hf h₁
  intro g' hg'
  obtain ⟨g, hg, rfl⟩ := Option.map_eq_some_iff.mp (hlook.symm.trans hg')
  have hnumbered := hn g hg
  exact ⟨⟨hnumbered.distinct, hnumbered.element⟩, hnumbered.below⟩

/-- **Whether an edit is refused does not depend on an edit of a group apart**, nor why it is. -/
theorem refused_edit? (h : f.Apart a b) (hf : f.Consistent) (he' : ∀ values, e' ≠ .set values)
    (h₁ : f.edit? a e = .ok f₁) :
    (f₁.edit? b e').map (fun _ => ()) = (f.edit? b e').map (fun _ => ()) := by
  obtain ⟨on, hlook⟩ := h.group?_edit? hf h₁
  have hdynamic : f₁.dynamic? b = (f.dynamic? b).map fun g => { g with enabled := on } := by
    unfold dynamic?
    rw [hlook]
    cases f.group? b with
    | none => rfl
    | some g =>
      show (if g.isDynamic then Except.ok _ else _) = (if g.isDynamic then Except.ok g else _).map _
      cases g.isDynamic <;> rfl
  unfold Form.edit?
  rw [hdynamic]
  cases f.dynamic? b with
  | error r => rfl
  | ok g =>
    show (({ g with enabled := on }.edit? e').bind _).map _ = ((g.edit? e').bind _).map _
    rw [Group.edit?_enabled he' g on]
    cases g.edit? e' <;> rfl

/-- The members after two edits: those of each group are the new ones, and those of third groups are unselected
if they are a rival of a group in which something was selected. -/
theorem membersOf_edit?_edit? (h : f.Apart a b) (h₁ : f.edit? a e = .ok f₁) (h' : f₁.edit? b e' = .ok f')
    (ha : f.group? a = some g) (hb : f₁.group? b = some g') (hedit : g.edit? e = .ok g₁)
    (hedit' : g'.edit? e' = .ok g₂) (x : String) :
    f'.membersOf x = if x = a then g₁.members else if x = b then g₂.members else
      if (e.selects a = true ∧ x ∈ f.rules.filterMap (Rule.rivalOf a)) ∨
          (e'.selects b = true ∧ x ∈ f.rules.filterMap (Rule.rivalOf b))
        then (f.membersOf x).map Checkbox.cleared else f.membersOf x := by
  have hown : ∀ y ∈ [a, b], ∀ z ∈ [a, b], z ∉ f.rules.filterMap (Rule.rivalOf y) :=
    fun y hy z hz => h.not_mem_rivals hy hz
  rw [membersOf_edit? h' hb hedit', rules_edit? h₁, membersOf_edit? h₁ ha hedit]
  by_cases hxa : x = a
  · subst hxa
    simp [hown x (by simp) x (by simp), hown b (by simp) x (by simp), h.ne]
  · by_cases hxb : x = b
    · subst hxb
      simp [hown x (by simp) x (by simp), hxa]
    · simp only [if_neg hxa, if_neg hxb]
      by_cases hra : e.selects a = true ∧ x ∈ f.rules.filterMap (Rule.rivalOf a)
      · have hcleared : ((f.membersOf x).map Checkbox.cleared).map Checkbox.cleared
            = (f.membersOf x).map Checkbox.cleared := List.map_map
        rw [if_pos hra, if_pos (Or.inl hra), hcleared, ite_self]
      · simp only [if_neg hra, or_iff_right hra]

/-- **The order of two edits has no part in the form that they make.** -/
theorem edit?_comm (h : f.Apart a b) (hf : f.Consistent) (hfits : Layout.Fits f)
    (he : ∀ values, e ≠ .set values) (he' : ∀ values, e' ≠ .set values) (h₁ : f.edit? a e = .ok f₁)
    (h₂ : f.edit? b e' = .ok f₂) : ∃ f', f₁.edit? b e' = .ok f' ∧ f₂.edit? a e = .ok f' := by
  obtain ⟨g, g₁, hga, hdyn, -, hedit, hid₁, -⟩ := edit?_spec h₁
  obtain ⟨g', g₂, hgb, hdyn', -, hedit', hid₂, -⟩ := edit?_spec h₂
  obtain ⟨on₁, hb⟩ := h.group?_edit? hf h₁
  obtain ⟨on₂, ha⟩ := h.symm.group?_edit? hf h₂
  rw [hgb, Option.map_some] at hb
  rw [hga, Option.map_some] at ha
  -- each edit is made after the other one as well, and makes the same group but for its being enabled
  have hedit₁ : { g with enabled := on₂ }.edit? e = .ok { g₁ with enabled := on₂ } := by
    rw [Group.edit?_enabled he, hedit]
    rfl
  have hedit₂ : { g' with enabled := on₁ }.edit? e' = .ok { g₂ with enabled := on₁ } := by
    rw [Group.edit?_enabled he', hedit']
    rfl
  have hleft := edit?_eq_ok hb hdyn' hedit₂
  have hright := edit?_eq_ok ha hdyn hedit₁
  refine ⟨_, hleft, hright.trans (congrArg Except.ok ?_)⟩
  -- both forms are consistent, so it is enough that they have the same groups but for values, and the same members
  refine (consistent_edit? (consistent_edit? hf h₁) hleft).eq_of_members
    (consistent_edit? (consistent_edit? hf h₂) hright) ((hfits.edit? h₁).edit? hleft).groups_nodup ?_ fun x => ?_
  · have hne : g₂.blank.id ≠ g₁.blank.id := by
      show g₂.id ≠ g₁.id
      rw [hid₁, hid₂]
      exact h.ne.symm
    rw [blank_edit? hright ha hedit₁, blank_edit? hleft hb hedit₂, blank_edit? h₁ hga hedit, blank_edit? h₂ hgb hedit']
    exact replace_comm hne f.blank
  · rw [h.symm.membersOf_edit?_edit? h₂ hright hgb ha hedit' hedit₁,
      h.membersOf_edit?_edit? h₁ hleft hga hb hedit hedit₂]
    by_cases hxa : x = a
    · have hxb : x ≠ b := hxa ▸ h.ne
      simp only [if_pos hxa, if_neg hxb]
    · simp only [if_neg hxa, or_comm]

end Apart

end Form

end AnyCase
