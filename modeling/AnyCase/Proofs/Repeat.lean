import AnyCase.Proofs.Members
import Mathlib.Data.List.ModifyLast

/-!
# `Proofs.Repeat` — an edit made again in another form

A client and the daemon have forms that differ in the numbers that are free, and in nothing else. An edit that
is made in one of them can be made in the other, and the outcome is the same (`Form.edit?_again`), but for the
id of an element that is added: each of the two numbers it in its own way.

No edit looks at numbers, except one that adds an element (`Group.edit?_unnumbered`). Everything else in the
form follows from the members of its groups, so it is enough that the edited group comes to have the same
members in both.
-/

namespace AnyCase

open Layout

/-! ## The id of an added element -/

theorem map_modifyLast {α β : Type} {h : α → β} {f : α → α} {k : β → β} (hf : ∀ x, h (f x) = k (h x))
    (l : List α) : (l.modifyLast f).map h = (l.map h).modifyLast k := by
  induction l using List.reverseRecOn with
  | nil => rfl
  | append_singleton front x _ =>
    rw [List.map_append, List.map_singleton, List.modifyLast_concat, List.modifyLast_concat, List.map_append,
      List.map_singleton, hf]

theorem modifyLast_id {α : Type} (l : List α) : l.modifyLast (fun x => x) = l := by
  induction l using List.reverseRecOn with
  | nil => rfl
  | append_singleton front x _ => exact List.modifyLast_concat _ x front

namespace Edit

/-- The members of a group after an edit, with another id for an element that was added. -/
def renumber (id : String) : Edit → List Checkbox → List Checkbox
  | .add .., members => members.modifyLast (fun c => { c with id := id })
  | _, members => members

theorem map_selected_renumber (id : String) (e : Edit) (members : List Checkbox) :
    (e.renumber id members).map Checkbox.selected = members.map Checkbox.selected := by
  cases e with
  | add label selected proposed =>
    have hmap := map_modifyLast (h := Checkbox.selected) (f := fun c => { c with id := id })
      (k := fun b => b) (fun _ => rfl) members
    exact hmap.trans (modifyLast_id _)
  | _ => rfl

theorem map_cleared_renumber (id : String) (e : Edit) (members : List Checkbox) :
    (e.renumber id members).map Checkbox.cleared = e.renumber id (members.map Checkbox.cleared) := by
  cases e with
  | add label selected proposed =>
    exact map_modifyLast (h := Checkbox.cleared) (f := fun c => { c with id := id })
      (k := fun c => { c with id := id }) (fun _ => rfl) members
  | _ => rfl

end Edit

/-- A group after an edit, with another id for an element that was added. -/
def Group.renumbered (id : String) (e : Edit) (g : Group) : Group :=
  { g with members := e.renumber id g.members }

/-- A form after an edit of a group, with another id for an element that was added. -/
def Form.renumbered (f : Form) (group id : String) (e : Edit) : Form :=
  f.modifyGroup group (Group.renumbered id e)

/-- Setting elements adds none. -/
theorem Form.renumbered_set (f : Form) (group id : String) (values : Dict Bool) :
    f.renumbered group id (.set values) = f :=
  congrArg (fun groups => Form.mk groups f.rules) (modifyFirst_eq_self fun _ _ => rfl)

namespace Group

variable {g g₀ g' g₀' : Group} {e : Edit} {id label : String} {selected : Bool}

theorem hasSelection_renumbered (id : String) (e : Edit) (g : Group) :
    (g.renumbered id e).hasSelection = g.hasSelection := by
  have hany := congrArg (fun l => l.any (fun b => b)) (Edit.map_selected_renumber id e g.members)
  rwa [List.any_map, List.any_map] at hany

theorem Aggregated.renumbered (h : g.Aggregated) (id : String) (e : Edit) : (g.renumbered id e).Aggregated := by
  refine h.congr ?_ rfl
  have hall : ∀ g : Group, g.allSelected
      = (!(g.members.map Checkbox.selected).isEmpty && (g.members.map Checkbox.selected).all (fun b => b)) := by
    intro g
    rw [List.isEmpty_map, List.all_map]
    rfl
  rw [hall, hall]
  show (!((e.renumber id g.members).map _).isEmpty && ((e.renumber id g.members).map _).all _) = _
  rw [Edit.map_selected_renumber]

/-! ## Edits do not look at numbers -/

@[simp] theorem isDynamic_unnumbered (g : Group) : g.unnumbered.isDynamic = g.isDynamic :=
  isDynamic_revised (fun on => on) (fun _ => .ofNat 0) g

/-- The names of elements are told without the numbers that are free. -/
theorem Named.of_unnumbered (h : g.Named) (heq : g'.unnumbered = g.unnumbered) : g'.Named where
  distinct := by
    show g'.unnumbered.order.Nodup
    rw [heq]
    exact h.distinct
  element := by
    rw [← isDynamic_unnumbered]
    show g'.unnumbered.isDynamic = true → ∀ c ∈ g'.unnumbered.members,
      c.label ≠ "" ∧ c.editable = true ∧ ∃ n, n < Numbering.limit ∧ c.id = Numbering.idOf g'.unnumbered.id n
    rw [heq, isDynamic_unnumbered]
    exact h.element

/-- **An edit that adds no element does not look at numbers.** -/
theorem edit?_unnumbered (g : Group) (hadd : ∀ label selected proposed, e ≠ .add label selected proposed) :
    g.unnumbered.edit? e = (g.edit? e).map unnumbered :=
  edit?_revised (fun on => on) (fun _ => .ofNat 0) hadd fun _ _ => rfl

/-- An element with a label can be added to any dynamic group. -/
theorem add?_eq_ok (hdyn : g.isDynamic = true) (hlabel : label ≠ "") (selected : Bool)
    (proposed : Option String) : ∃ id g', g.add? label selected proposed = .ok (id, g') := by
  obtain ⟨s, hs⟩ := Option.isSome_iff_exists.mp hdyn
  simp only [add?, hs, if_neg hlabel]
  exact ⟨_, _, rfl⟩

/-- **An edit that is made in a group can be made in one that differs in numbers only**, and leads to the same
members, but for the id of one that is added. -/
theorem edit?_again (heq : g.unnumbered = g₀.unnumbered) (h : g₀.edit? e = .ok g₀') :
    ∃ id g', g.edit? e = .ok g' ∧ g'.members = e.renumber id g₀'.members := by
  have hmembers : ∀ {g g' : Group}, g.unnumbered = g'.unnumbered → g.members = g'.members := by
    intro g g' heq
    have hm := congrArg Group.members heq
    exact hm
  -- an edit that adds no element is the same one without numbers
  have hagain : (∀ label selected proposed, e ≠ .add label selected proposed) →
      ∃ g', g.edit? e = .ok g' ∧ g'.members = g₀'.members := by
    intro hadd
    have hmap := g.edit?_unnumbered hadd
    rw [heq, g₀.edit?_unnumbered hadd, h] at hmap
    obtain ⟨g', hg', heq'⟩ := map_eq_ok_iff.mp hmap.symm
    exact ⟨g', hg', hmembers heq'⟩
  cases e with
  | add label selected proposed =>
    obtain ⟨⟨id₀, g₀'⟩, h₀, rfl⟩ := map_eq_ok_iff.mp h
    obtain ⟨s, -, hs, hlabel, -, hadded₀, -⟩ := add?_spec h₀
    have hdyn : g.isDynamic = true := by
      rw [← isDynamic_unnumbered, heq, isDynamic_unnumbered, isDynamic, hs]
      rfl
    obtain ⟨id, g', hadd⟩ := add?_eq_ok hdyn hlabel selected proposed
    obtain ⟨-, -, -, -, -, hadded, -⟩ := add?_spec hadd
    refine ⟨id, g', map_eq_ok_iff.mpr ⟨_, hadd, rfl⟩, ?_⟩
    rw [hadded, hmembers heq, hadded₀]
    exact (List.modifyLast_concat (fun c => { c with id := id }) ⟨id₀, label, selected, true⟩ g₀.members).symm
  | _ =>
    obtain ⟨g', hg', heq'⟩ := hagain (by simp)
    exact ⟨"", g', hg', heq'⟩

end Group

/-! ## Edits of a form -/

namespace Form

variable {f f₀ f₀' : Form} {group id : String} {e : Edit} {g g' g₀ g₀' : Group}

theorem membersOf_renumbered (f : Form) (group id : String) (e : Edit) (x : String) :
    (f.renumbered group id e).membersOf x
      = if x = group then e.renumber id (f.membersOf x) else f.membersOf x := by
  have hkeep : ∀ g : Group, g.id = group → (g.renumbered id e).id = group := fun _ hg => hg
  rw [membersOf, renumbered, group?_modifyGroup hkeep, membersOf]
  split
  · cases f.group? x with
    | none => cases e <;> rfl
    | some g => rfl
  · rfl

theorem membersOf_eq_of_unnumbered (heq : f.unnumbered = f₀.unnumbered) (x : String) :
    f.membersOf x = f₀.membersOf x := by
  rw [← membersOf_unnumbered, heq, membersOf_unnumbered]

theorem group?_unnumbered (f : Form) (x : String) : f.unnumbered.group? x = (f.group? x).map Group.unnumbered :=
  group?_map Group.unnumbered (fun _ => rfl) f.rules f.groups x

/-- Where a group of one form has the members of that of another, but for the id of one, so have both forms
after the rules were evaluated. -/
theorem membersOf_replaced (heq : f.unnumbered = f₀.unnumbered) (hg : f.group? group = some g)
    (hid : g'.id = group) (hg₀ : f₀.group? group = some g₀) (hid₀ : g₀'.id = group)
    (hmembers : g'.members = e.renumber id g₀'.members) (selected : Bool) (x : String) :
    ((f.replace g').reconcile group selected).membersOf x
      = (((f₀.replace g₀').reconcile group selected).renumbered group id e).membersOf x := by
  have hrules : (f.replace g').rules = (f₀.replace g₀').rules := (Form.mk.inj heq).2
  rw [membersOf_renumbered, membersOf_reconcile, membersOf_reconcile, hrules, membersOf_replace hg hid,
    membersOf_replace hg₀ hid₀]
  by_cases hx : x = group
  · simp only [if_pos hx, hmembers]
    split
    · exact Edit.map_cleared_renumber id e g₀'.members
    · rfl
  · simp only [if_neg hx, membersOf_eq_of_unnumbered heq]

/-- **An edit that is made in a form can be made in one that differs in numbers only**, and the outcome differs
in numbers only, and in the id of an element that is added. -/
theorem edit?_again (hfits : Fits f) (hfits₀ : Fits f₀) (hcons : f.Consistent) (hcons₀ : f₀.Consistent)
    (heq : f.unnumbered = f₀.unnumbered) (h : f₀.edit? group e = .ok f₀') :
    ∃ id f', f.edit? group e = .ok f' ∧ f'.unnumbered = (f₀'.renumbered group id e).unnumbered := by
  have hfits₀' := hfits₀.edit? h
  have hcons₀' := consistent_edit? hcons₀ h
  obtain ⟨g₀, g₀', hg₀, hdyn₀, -, hedit₀, hid₀, rfl⟩ := edit?_spec h
  -- the group is found in the other form as well, and edited there
  have hfound : (f.group? group).map Group.unnumbered = some g₀.unnumbered := by
    rw [← group?_unnumbered, heq, group?_unnumbered, hg₀]
    rfl
  obtain ⟨g, hg, hsame⟩ := Option.map_eq_some_iff.mp hfound
  have hdyn : g.isDynamic = true := by
    rw [← Group.isDynamic_unnumbered, hsame, Group.isDynamic_unnumbered, hdyn₀]
  obtain ⟨id, g', hedit, hmembers⟩ := Group.edit?_again hsame hedit₀
  have hmade := edit?_eq_ok hg hdyn hedit
  have hid : g'.id = group := (Group.id_eq_of_outline (Group.outline_edit? hedit)).trans (id_of_group? hg)
  refine ⟨id, _, hmade, ?_⟩
  -- another id for an element leaves the form in order
  obtain ⟨g₁, hg₁, hblank⟩ := group?_edited hg₀ hid₀ (e.selects group)
  have hdyn₁ : g₁.isDynamic = true := by
    rw [Group.isDynamic_of_blank hblank, Group.isDynamic_eq_of_outline (Group.outline_edit? hedit₀), hdyn₀]
  have hid₁ : g₁.id = group := id_of_group? hg₁
  have hreplace := modifyGroup_eq_replace hg₁ (Group.renumbered id e) hid₁
  refine Fits.unnumbered_eq_of_members (hfits.edit? hmade) ?_ (consistent_edit? hcons hmade) ?_ ?_
    fun x _ => membersOf_replaced heq hg hid hg₀ hid₀ hmembers _ x
  · rw [renumbered, hreplace]
    exact hfits₀'.replace hg₁ hdyn₁ rfl
  · rw [renumbered, hreplace]
    exact hcons₀'.replace_same hg₁ hid₁ (Group.hasSelection_renumbered id e g₁)
      ((hcons₀'.aggregated g₁ (mem_of_group? hg₁)).renumbered id e) rfl
  · exact (rules_edit? hmade).trans ((Form.mk.inj heq).2.trans (rules_edit? h).symm)

end Form

end AnyCase
