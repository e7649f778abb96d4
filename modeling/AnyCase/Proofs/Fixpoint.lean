import AnyCase.Proofs.Members
import Mathlib.Data.List.Forall2

/-!
# `Proofs.Fixpoint` — forms that are left alone

Settling a form makes it consistent, and leaves a consistent form as it is. So one round of settling is enough: a
group that is unselected in it comes into no new conflict, however the exclusions overlap. A round selects nothing:
each group keeps its members as they are, or all of them are unselected (`Unselected`).

Nor does it do anything to give a consistent form the values that it has. Those are told as a map
(`Form.values`), in which each checkbox has its own entry if all ids are distinct (`value?_of_mem_values`), and
overwriting a checkbox with the value it has leaves its group alone (`overwrite_eq_self`). A main checkbox has an
entry as well, which is left out.

## Contents

* `Unselected` — a form of which some groups were unselected;
* `overwriteAll_eq_self` — overwriting a consistent form with values it has;
* `consistent_left_alone` — the main statement.
-/

namespace AnyCase

/-- The first match is related to its image, and every other element to itself. -/
theorem forall₂_modifyFirst {α : Type} {R : α → α → Prop} {p : α → Bool} {f : α → α} (hrefl : ∀ x, R x x)
    (hf : ∀ x, p x = true → R x (f x)) (l : List α) : List.Forall₂ R l (modifyFirst p f l) := by
  induction l with
  | nil => exact .nil
  | cons x rest ih =>
    rw [modifyFirst]
    split
    · rename_i hp
      exact .cons (hf x hp) (List.forall₂_same.mpr fun y _ => hrefl y)
    · exact .cons (hrefl x) ih

theorem forall₂_trans {α : Type} {R : α → α → Prop} (hR : ∀ x y z, R x y → R y z → R x z) {l₁ l₂ l₃ : List α}
    (h : List.Forall₂ R l₁ l₂) (h' : List.Forall₂ R l₂ l₃) : List.Forall₂ R l₁ l₃ := by
  induction h generalizing l₃ with
  | nil => exact h'
  | cons hxy _ ih =>
    cases h' with
    | cons hyz hrest => exact .cons (hR _ _ _ hxy hyz) (ih hrest)

namespace Group

variable {g g' g'' : Group} {id : String} {c : Checkbox}

/-- A group that kept its members as they were, or of which all were unselected. -/
def Unselected (g g' : Group) : Prop :=
  g'.members = g.members ∨ g'.members = g.members.map Checkbox.cleared

theorem Unselected.trans (h : g.Unselected g') (h' : g'.Unselected g'') : g.Unselected g'' := by
  unfold Unselected at *
  rcases h' with h' | h'
  · rwa [h']
  · right
    rcases h with h | h
    · rw [h', h]
    · rw [h', h, List.map_map]
      rfl

/-- Setting a member to the value it has changes nothing. -/
theorem set?_eq_self (hagg : g.Aggregated) (hc : g.member? id = some c) : g.set? id c.selected = .ok g := by
  refine set?_eq_ok_iff.mpr ⟨contains_iff.mpr (mem_order_of_member? hc), ?_⟩
  have hmembers : (g.modifyMember id fun d => { d with selected := c.selected }) = g := by
    show { g with members := modifyFirst _ _ g.members } = g
    rw [modifyFirst_eq_self]
    intro d hd
    obtain rfl : c = d := Option.some.inj (hc.symm.trans hd)
    rfl
  rw [hmembers]
  exact hagg

end Group

namespace Form

variable {f f' f'' : Form} {id : String} {b : Bool}

/-! ## Settling selects nothing -/

/-- A form of which some groups were unselected. -/
def Unselected (f f' : Form) : Prop := List.Forall₂ Group.Unselected f.groups f'.groups

theorem Unselected.trans (h : f.Unselected f') (h' : f'.Unselected f'') : f.Unselected f'' :=
  forall₂_trans (R := Group.Unselected) (fun _ _ _ => Group.Unselected.trans) h h'

/-- A change of every group that keeps the members unselects nothing. -/
theorem unselected_of_map (change : Group → Group) (hc : ∀ g, (change g).members = g.members)
    (h : f'.groups = f.groups.map change) : f.Unselected f' := by
  rw [Unselected, h, List.forall₂_map_right_iff, List.forall₂_same]
  exact fun g _ => Or.inl (hc g)

theorem unselected_aggregate (f : Form) : f.Unselected f.aggregate :=
  unselected_of_map Group.aggregate Group.aggregate_members rfl

theorem unselected_enable (f : Form) : f.Unselected f.enable :=
  unselected_of_map (fun g => { g with enabled := f.rules.all (Rule.allows f.hasSelection g.id) })
    (fun _ => rfl) rfl

theorem unselected_unselect (f : Form) (ids : List String) : f.Unselected (f.unselect ids) := by
  induction ids generalizing f with
  | nil => exact unselected_of_map (fun g => g) (fun _ => rfl) (List.map_id _).symm
  | cons id ids ih =>
    have hfirst : f.Unselected (f.modifyGroup id (fun g => g.setAll false)) :=
      forall₂_modifyFirst (R := Group.Unselected) (fun _ => Or.inl rfl) (fun _ _ => Or.inr rfl) f.groups
    exact hfirst.trans (ih _)

theorem unselected_settle (f : Form) : f.Unselected f.settle := by
  have hunselect := unselected_unselect f f.losers
  have haggregate := (f.unselect f.losers).unselected_aggregate
  have henable := (f.unselect f.losers).aggregate.unselected_enable
  exact (hunselect.trans haggregate).trans henable

/-! ## Values a form has -/

/-- Overwriting a checkbox with the value it has changes nothing. -/
theorem overwrite_eq_self (hagg : ∀ g ∈ f.groups, g.Aggregated) (h : f.value? id = some b) :
    f.overwrite id b = f := by
  unfold overwrite
  unfold value? at h
  split
  · rename_i place g hlocate
    rw [hlocate] at h
    obtain ⟨c, hc, rfl⟩ := Option.map_eq_some_iff.mp h
    have hplace : f.groups[place]? = some g := (locateIn_spec hlocate).1
    rw [Group.set?_eq_self (hagg g (List.mem_of_getElem? hplace)) hc]
    obtain ⟨hi, hget⟩ := List.getElem?_eq_some_iff.mp hplace
    show { f with groups := f.groups.set place g } = f
    rw [← hget, List.set_getElem_self]
  · rfl

/-- Where all ids are distinct, a checkbox has the value that is told of it. -/
theorem value?_of_mem_values (hd : (f.groups.flatMap Group.order ++ f.groups.map (·.id)).Nodup)
    {e : String × Bool} (he : e ∈ f.values.toList) : f.value? e.1 = some e.2 := by
  obtain ⟨g, hg, hmem⟩ := List.mem_flatMap.mp (Dict.mem_of_mem_toList_ofList he)
  unfold value?
  rcases List.mem_append.mp hmem with hmain | hmember
  · obtain ⟨m, hm, rfl⟩ : ∃ m, g.main = some m ∧ (g.id, m.selected) = e := by
      rwa [Option.mem_toList, Option.map_eq_some_iff] at hmain
    have hspot : g.spot? g.id = some .main := by simp [Group.spot?, hm]
    obtain ⟨place, hlocate⟩ := exists_locate? hd hg hspot
    simp [hlocate, hm]
  · obtain ⟨c, hc, rfl⟩ := List.mem_map.mp hmember
    have hid : c.id ∈ g.order := List.mem_map_of_mem hc
    have hne : g.id ≠ c.id := fun heq => id_not_mem_order hd hg hg (heq ▸ hid)
    obtain ⟨place, hlocate⟩ := exists_locate? hd hg (Group.spot?_of_mem hne hid)
    have hfound : g.member? c.id = some c := find?_of_mem (order_nodup hd hg) hc
    simp [hlocate, hfound]

/-- **Overwriting a consistent form with values it has changes nothing.** -/
theorem overwriteAll_eq_self (h : f.Consistent) {values : Dict Bool}
    (hv : ∀ e ∈ values.toList, f.value? e.1 = some e.2) : f.overwriteAll values = f := by
  have hfold : ∀ l : List (String × Bool), (∀ e ∈ l, f.value? e.1 = some e.2) →
      l.foldl (fun f e => f.overwrite e.1 e.2) f = f := by
    intro l hl
    induction l with
    | nil => rfl
    | cons e rest ih =>
      obtain ⟨hhead, hrest⟩ := List.forall_mem_cons.mp hl
      rw [List.foldl_cons, overwrite_eq_self h.aggregated hhead]
      exact ih hrest
  rw [overwriteAll, hfold _ hv]
  exact h.settle_eq

/-- **Consistent forms are fixed points.** Settling leaves a consistent form as it is; so settling any form a second
time changes nothing, and it only ever unselects, all members of a group at once. Where all ids are distinct, giving
a consistent form the values that it has changes nothing either. -/
theorem consistent_left_alone (f : Form) :
    (f.Consistent → f.settle = f) ∧ f.settle.settle = f.settle ∧ f.Unselected f.settle ∧
      (f.Consistent → (f.groups.flatMap Group.order ++ f.groups.map (·.id)).Nodup →
        f.overwriteAll f.values = f) :=
  ⟨Consistent.settle_eq, (consistent_settle f).settle_eq, unselected_settle f, fun h hd =>
    overwriteAll_eq_self h fun _ he => value?_of_mem_values hd he⟩

/-- Three groups in a chain of exclusions, all of them selected. Two lose in one round, also the one that is
excluded by a group which loses itself. -/
theorem consistent_left_alone_in_chain :
    let box := fun id => Checkbox.mk id id true false
    let groups := [Group.fixed "a" (some "All") [box "a0", box "a1"], Group.dynamic "b" (some "All") [box "b-0"],
      Group.fixed "c" none [box "c0"], Group.fixed "d" (some "All") []]
    let f := make groups [.exclusive "a" "b", .exclusive "b" "c", .disabledWhenAny "d" "a"]
    f.values.toList = [("a", true), ("a0", true), ("a1", true), ("b", false), ("b-0", false), ("c0", false),
      ("d", false)] ∧ f.settle = f ∧ f.overwriteAll f.values = f := by
  intro box groups f
  have hcons : f.Consistent := consistent_settle _
  have hd : (f.groups.flatMap Group.order ++ f.groups.map (·.id)).Nodup := by decide
  exact ⟨by decide, (consistent_left_alone f).1 hcons, (consistent_left_alone f).2.2.2 hcons hd⟩

end Form

end AnyCase
