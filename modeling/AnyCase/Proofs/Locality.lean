import AnyCase.Proofs.Apart
import AnyCase.Proofs.Fixpoint
import AnyCase.Proofs.Refused
import AnyCase.Proofs.Winners
import Mathlib.Data.List.Forall2

/-!
# `Proofs.Locality` — how far an edit reaches

An edit of a filter is made in its group, and what it makes of the elements there is told edit by edit (`Edit.Makes`).
Of the members of the other groups it touches values only, and only by the rules: a selected member may be unselected,
if an exclusion links its group with the edited one and the edit selects something (`Edit.Selecting`). Enablement and
main checkboxes follow from that. What is not in the form, the text, the case sensitivity and the history, is not
touched at all.

`edit_reach` says so of every edit that is made in a panel that was ever open, under any rules. It holds of elements
that share an id as well, as they may after the last number: then it is the first one that is named. As long as no
element has the last number, none shares its id.
-/

namespace AnyCase

open Layout

namespace Edit

/-- What an edit makes of the elements of its group. An id names the first element that has it. -/
inductive Makes (group : String) (before after : List Checkbox) : Edit → Prop
  /-- Only values change, and only of elements that are listed; each value that is listed is that of its element. -/
  | set {values : Dict Bool} (honly : List.Forall₂
      (fun c d => d = c ∨ ∃ b, values.get? c.id = some b ∧ d = { c with selected := b }) before after)
    (hlisted : ∀ id b, id ≠ group → values.get? id = some b →
      (after.find? (fun d => d.id = id)).map (·.selected) = some b) : Makes group before after (.set values)
  /-- One element comes last. -/
  | add {id label : String} {selected : Bool} {proposed : Option String}
    (h : after = before ++ [⟨id, label, selected, true⟩]) : Makes group before after (.add label selected proposed)
  /-- Only the named element changes. -/
  | amend {label : String} {selected : Bool} {front back : List Checkbox} {c : Checkbox}
    (hbefore : before = front ++ c :: back) (hfirst : c.id ∉ front.map (·.id))
    (h : after = front ++ { c with label := label, selected := selected } :: back) :
    Makes group before after (.amend c.id label selected)
  /-- Only the named element goes. -/
  | remove {front back : List Checkbox} {c : Checkbox} (hbefore : before = front ++ c :: back)
    (hfirst : c.id ∉ front.map (·.id)) (h : after = front ++ back) : Makes group before after (.remove c.id)
  /-- The elements are moved. -/
  | reorder {ids : List String} (h : after.Perm before) : Makes group before after (.reorder ids)

/-- Whether an edit selects an element. -/
inductive Selecting (before : List Checkbox) : Edit → Prop
  | set {values : Dict Bool} {c : Checkbox} (hc : c ∈ before) (h : values.get? c.id = some true) :
    Selecting before (.set values)
  | add {label : String} {proposed : Option String} : Selecting before (.add label true proposed)
  | amend {id label : String} : Selecting before (.amend id label true)

end Edit

/-! ## In the edited group -/

namespace Group

variable {g g₁ : Group} {e : Edit} {id label : String}

/-- A member that is set is the first one of its id, and the one that is found under it. -/
theorem member?_of_set? {b : Bool} (h : g.set? id b = .ok g₁) (x : String) :
    g₁.member? x = (g.member? x).map fun c => if c.id = id then { c with selected := b } else c := by
  obtain ⟨-, rfl⟩ := set?_eq_ok_iff.mp h
  show (modifyFirst _ _ g.members).find? _ = (g.members.find? _).map _
  by_cases hx : x = id
  · have hkeep : ∀ c : Checkbox, decide (c.id = id) = true →
        decide ({ c with selected := b : Checkbox }.id = id) = true := fun _ hc => hc
    rw [hx, find?_modifyFirst_self hkeep]
    refine Option.map_congr fun c hc => ?_
    rw [if_pos (id_of_member? (g := g) hc)]
  · have hother : ∀ c : Checkbox, decide (c.id = id) = true → decide (c.id = x) = false := by
      intro c hc
      rw [of_decide_eq_true hc]
      exact decide_eq_false fun heq => hx heq.symm
    have hother' : ∀ c : Checkbox, decide (c.id = id) = true →
        decide ({ c with selected := b : Checkbox }.id = x) = false := hother
    rw [find?_modifyFirst_of_disjoint hother hother']
    refine Option.map_id'.symm.trans (Option.map_congr fun c hc => ?_)
    have hid : c.id = x := id_of_member? (g := g) hc
    rw [if_neg fun heq => hx (hid.symm.trans heq)]

/-- **Members that are set one after the other are found with the values that are listed**, if each is listed once. -/
theorem member?_of_foldlM_set? {l : List (String × Bool)} (hkeys : (l.map (·.1)).Nodup)
    (h : l.foldlM (fun g e => g.set? e.1 e.2) g = .ok g₁) (x : String) :
    g₁.member? x = (g.member? x).map (Checkbox.assign l) := by
  induction l generalizing g with
  | nil =>
    obtain rfl := Except.ok.inj h
    exact Option.map_id'.symm
  | cons e rest ih =>
    obtain ⟨hid, hrest⟩ := List.nodup_cons.mp hkeys
    rw [List.foldlM_cons] at h
    obtain ⟨g₂, hset, h⟩ := bind_eq_ok_iff.mp h
    rw [ih hrest h, member?_of_set? hset, Option.map_map]
    exact Option.map_congr fun c _ => Checkbox.assign_cons hid c

/-- Setting members changes values only, and only of members that are listed. -/
theorem forall₂_of_foldlM_set? {given l : List (String × Bool)} (hsub : l ⊆ given)
    (h : l.foldlM (fun g e => g.set? e.1 e.2) g = .ok g₁) :
    List.Forall₂ (fun c d => d = c ∨ ∃ b, (c.id, b) ∈ given ∧ d = { c with selected := b }) g.members g₁.members := by
  induction l generalizing g with
  | nil =>
    obtain rfl := Except.ok.inj h
    exact List.forall₂_same.mpr fun _ _ => Or.inl rfl
  | cons e rest ih =>
    rw [List.foldlM_cons] at h
    obtain ⟨g₂, hset, h⟩ := bind_eq_ok_iff.mp h
    obtain ⟨-, rfl⟩ := set?_eq_ok_iff.mp hset
    refine forall₂_trans ?_ (forall₂_modifyFirst ?_ ?_ g.members) (ih (fun d hd => hsub (List.mem_cons_of_mem _ hd)) h)
    · rintro c c' d (rfl | ⟨b, hb, rfl⟩) hd
      · exact hd
      · rcases hd with rfl | ⟨b', hb', rfl⟩
        · exact Or.inr ⟨b, hb, rfl⟩
        · exact Or.inr ⟨b', hb', rfl⟩
    · exact fun _ => Or.inl rfl
    · intro c hc
      have hid : c.id = e.1 := of_decide_eq_true hc
      exact Or.inr ⟨e.2, hid ▸ hsub List.mem_cons_self, rfl⟩

/-- **What an edit makes of a group is told by its elements.** -/
theorem makes_of_edit? (h : g.edit? e = .ok g₁) : e.Makes g.id g.members g₁.members := by
  cases e with
  | set values =>
    rw [edit?] at h
    split at h
    · exact absurd h (by simp)
    · obtain ⟨hknown, hset⟩ := setEach?_eq_ok_iff.mp h
      have hkeys : ((Edit.given g.id values).map (·.1)).Nodup := values.keys_nodup.sublist (List.filter_sublist.map _)
      have hget : ∀ id, id ≠ g.id → Dict.find? id (Edit.given g.id values) = values.get? id := fun id hne =>
        (Dict.find?_filter_ne _ _ _).trans (if_neg hne)
      refine .set ((forall₂_of_foldlM_set? (List.Subset.refl _) hset).imp ?_) fun id b hne hb => ?_
      · rintro c d (rfl | ⟨b, hb, rfl⟩)
        · exact Or.inl rfl
        · exact Or.inr ⟨b, Dict.get?_of_mem_toList (List.mem_filter.mp hb).1, rfl⟩
      · -- what is listed is there, and is found with its value
        have hfind : Dict.find? id (Edit.given g.id values) = some b := (hget id hne).trans hb
        have hmem := hknown _ (Dict.mem_of_find? hfind)
        obtain ⟨c, hc⟩ := Option.isSome_iff_exists.mp (contains_iff.mpr hmem)
        have hafter := member?_of_foldlM_set? hkeys hset id
        show (g₁.member? id).map (·.selected) = some b
        rw [hafter, hc, Option.map_some, Option.map_some, Checkbox.assign, id_of_member? hc, hfind, Option.getD_some]
  | add label selected proposed =>
    obtain ⟨⟨id, g₁⟩, hadd, rfl⟩ := map_eq_ok_iff.mp h
    obtain ⟨_, _, _, _, _, hmembers, _, _, _⟩ := add?_spec hadd
    exact .add hmembers
  | amend id label selected =>
    obtain ⟨g₂, hrelabel, hset⟩ := bind_eq_ok_iff.mp h
    obtain ⟨-, hcontains, rfl⟩ := relabel?_spec hrelabel
    obtain ⟨-, rfl⟩ := set?_eq_ok_iff.mp hset
    obtain ⟨c, hc⟩ := Option.isSome_iff_exists.mp hcontains
    obtain ⟨front, back, hbefore, rfl, hfront⟩ := exists_front_of_find? hc
    refine .amend hbefore (fun hmem => ?_) ?_
    · obtain ⟨d, hd, hid⟩ := List.mem_map.mp hmem
      exact hfront d hd hid
    · -- the element keeps its id when it is relabelled, so it is the same one that is set
      show modifyFirst _ _ (modifyFirst _ _ g.members) = _
      rw [hbefore, modifyFirst_append_cons (by simpa using hfront) (by simp),
        modifyFirst_append_cons (by simpa using hfront) (by simp)]
  | remove id =>
    obtain ⟨⟨c, g₁⟩, hremove, rfl⟩ := map_eq_ok_iff.mp h
    obtain ⟨hfound, hmembers, -⟩ := remove?_spec hremove
    obtain ⟨front, back, hbefore, rfl, hfront⟩ := exists_front_of_find? hfound
    refine .remove hbefore (fun hmem => ?_) ?_
    · obtain ⟨d, hd, hid⟩ := List.mem_map.mp hmem
      exact hfront d hd hid
    · rw [hmembers, hbefore, eraseP_append_cons rfl hfront]
  | reorder ids =>
    rw [reorder?_spec h]
    exact .reorder (drawFirst_perm ids g.members)

/-- An edit that is made asks for a selection only if it selects an element. -/
theorem selecting_of_edit? (h : g.edit? e = .ok g₁) (hsel : e.selects g.id = true) : e.Selecting g.members := by
  cases e with
  | set values =>
    rw [edit?] at h
    split at h
    · exact absurd h (by simp)
    · obtain ⟨d, hd, hon⟩ := List.any_eq_true.mp hsel
      obtain ⟨c, hc, hid⟩ := List.mem_map.mp ((setEach?_eq_ok_iff.mp h).1 d hd)
      have hget : values.get? d.1 = some d.2 := Dict.get?_of_mem_toList (List.mem_filter.mp hd).1
      exact .set hc (by rw [hid, hget, hon])
  | add label selected proposed =>
    obtain rfl : selected = true := hsel
    exact .add
  | amend id label selected =>
    obtain rfl : selected = true := hsel
    exact .amend
  | remove id => exact absurd hsel Bool.false_ne_true
  | reorder ids => exact absurd hsel Bool.false_ne_true

end Group

/-! ## In the other groups -/

namespace Form

variable {f f' : Form} {group x : String} {e : Edit}

/-- What an edit of a group may do to a member of another one: the member stays as it is, or it is unselected, if it
was selected, its group is linked to the edited one, and the edit selects an element. -/
inductive Touched (f : Form) (group : String) (e : Edit) (x : String) : Checkbox → Checkbox → Prop
  | kept {c : Checkbox} : Touched f group e x c c
  | unselected {c : Checkbox} (hsel : c.selected = true) (hlinked : f.Linked group x)
    (hselecting : e.Selecting (f.membersOf group)) : Touched f group e x c c.cleared

/-- **An edit touches the members of the other groups one by one.** -/
theorem touched_of_edit? (h : f.edit? group e = .ok f') (hx : x ≠ group) :
    List.Forall₂ (f.Touched group e x) (f.membersOf x) (f'.membersOf x) := by
  obtain ⟨g, g₁, hg, -, hid, hedit, -, -⟩ := edit?_spec h
  rw [membersOf_edit? h hg hedit, if_neg hx]
  split
  · rename_i hrival
    have hselecting : e.Selecting (f.membersOf group) := by
      rw [membersOf_of_group? hg]
      exact Group.selecting_of_edit? hedit (hid ▸ hrival.1)
    rw [List.forall₂_map_right_iff, List.forall₂_same]
    intro c _
    cases hsel : c.selected with
    | true => exact .unselected hsel (mem_rivals_iff_linked.mp hrival.2) hselecting
    | false =>
      rw [Checkbox.cleared_eq_self hsel]
      exact .kept
  · exact List.forall₂_same.mpr fun _ _ => .kept

end Form

/-! ## In the panel -/

namespace Panel

variable {settings : Settings} {p p' : Panel} {group : String} {e : Edit} {searched : Bool}

/-- How far an edit of a group reaches. -/
structure Reach (p : Panel) (group : String) (e : Edit) (p' : Panel) : Prop where
  text : p'.text = p.text
  sensitiveCase : p'.sensitiveCase = p.sensitiveCase
  history : p'.history = p.history
  rules : p'.form.rules = p.form.rules
  outlines : p'.form.groups.map Group.outline = p.form.groups.map Group.outline
  others : ∀ x, x ≠ group →
    List.Forall₂ (p.form.Touched group e x) (p.form.membersOf x) (p'.form.membersOf x)
  own : e.Makes group (p.form.membersOf group) (p'.form.membersOf group)

/-- The members of a group have ids of their own. -/
theorem Intact.order_nodup (h : p.Intact settings) (x : String) : ((p.form.membersOf x).map (·.id)).Nodup := by
  unfold Form.membersOf
  cases hg : p.form.group? x with
  | none => exact List.nodup_nil
  | some g => exact (h.named g (Form.mem_of_group? hg)).distinct

/-- **How far an edit reaches.** In a panel that was ever open, an edit of a filter that is made changes the elements
of the filter as it says. Of the other groups it only unselects members, and only if their group is linked to the filter
and the edit selects an element; the text, the case sensitivity and the history stay as they are. The elements of the
filter have ids of their own, before and after the edit, as long as none has had the last number. -/
theorem edit_reach {trail : List Panel} (h : Reached trail settings p) (hvalid : settings.check = .ok settings)
    (hedit : p.edit? group e = .ok (searched, p')) :
    p.Reach group e p' ∧ ((∀ q ∈ trail, q.InRange) →
      ((p.form.membersOf group).map (·.id)).Nodup ∧ ((p'.form.membersOf group).map (·.id)).Nodup) := by
  have hshaped := h.shaped
  have hform := form_of_edit? hshaped.consistent hedit
  obtain ⟨g, g₁, hg, -, rfl, hedit₁, -, -⟩ := Form.edit?_spec hform
  obtain ⟨htext, hsensitive, hhistory⟩ := edit?_frame hedit
  have hself : g.id ∉ p.form.rules.filterMap (Rule.rivalOf g.id) :=
    Form.not_mem_rivals_self fun a b hrule => (hshaped.rules_valid hvalid hrule).2.2
  refine ⟨⟨htext, hsensitive, hhistory, Form.rules_edit? hform, Form.map_outline_edit? hshaped.fits.groups_nodup hform,
    fun x hx => Form.touched_of_edit? hform hx, ?_⟩, fun hrange => ?_⟩
  · rw [Form.membersOf_edit? hform hg hedit₁, if_neg fun hrival => hself hrival.2, if_pos rfl,
      Form.membersOf_of_group? hg]
    exact Group.makes_of_edit? hedit₁
  · obtain ⟨hintact, hn⟩ := h.intact hrange
    have hintact' := hintact.edit? (Form.numberedAt_of_forall hn _) hedit
    exact ⟨hintact.order_nodup g.id, hintact'.order_nodup g.id⟩

/-- An element is relabelled and selected, which unselects the conventions. -/
theorem edit_reach_over_exclusion :
    let settings := { Settings.standard with rules := [.exclusive included conventions] }
    let p := (restore Store.empty settings).perform (.edit included (.add "*.rs" false none))
    let e : Edit := .amend "filesToInclude-0" "*.ts" true
    let p' := p.perform (.edit included e)
    (p.form.hasSelection conventions = true ∧ p'.form.hasSelection conventions = false) ∧
      (p'.form.membersOf included).map (·.label) = ["*.ts"] ∧ p.Reach included e p' := by
  intro settings p e p'
  have hp : Reached _ settings p := .perform (.first rfl _) _
  have hchanged : p'.form.hasSelection conventions = false := by decide +kernel
  have hselected : p.form.hasSelection conventions = true := by decide +kernel
  refine ⟨⟨hselected, hchanged⟩, by decide +kernel, ?_⟩
  rcases perform_edit p included e with hsame | ⟨searched, q, hedit, hmade⟩
  · rw [show p' = p from hsame, hselected] at hchanged
    exact absurd hchanged (by decide)
  · rw [show p' = q from hmade]
    exact (edit_reach hp rfl hedit).1

end Panel

end AnyCase
