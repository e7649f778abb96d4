import AnyCase.Form.Edit

/-!
# `Proofs.Group` — what the changes of a group do to it

A group is changed in two ways. Some changes set values: the ids, labels and order of its members and its
numbering stay, which is to say that `Group.blank` stays. The others edit the elements of a dynamic group
(`Group.edit?`). This module has one lemma per change on what it leaves alone and one on what it does.

## Contents

* `modifyFirst` — what it does to a list, to a look-up and to what is read off a list;
* `Checkbox.cleared`, `Group.blank`, `Group.bare`, `Group.unnumbered` — a group without its values, without
  what follows from them, and without its numbers;
* `Group.edit?`, `Edit.selects` — every edit of a group as one operation.
-/

namespace AnyCase

/-! ## Lists -/

section ModifyFirst

variable {α β : Type} {p : α → Bool} {f : α → α}

/-- What the change leaves alone is read off the changed list as before. -/
theorem map_modifyFirst {h : α → β} (hf : ∀ x, p x = true → h (f x) = h x) (l : List α) :
    (modifyFirst p f l).map h = l.map h := by
  induction l with
  | nil => rfl
  | cons x rest ih =>
    rw [modifyFirst]
    split
    · rename_i hp
      rw [List.map_cons, List.map_cons, hf x hp]
    · rw [List.map_cons, List.map_cons, ih]

theorem mem_modifyFirst {y : α} {l : List α} (h : y ∈ modifyFirst p f l) :
    y ∈ l ∨ ∃ x ∈ l, p x = true ∧ y = f x := by
  induction l with
  | nil => exact Or.inl h
  | cons x rest ih =>
    rw [modifyFirst] at h
    split at h
    · rename_i hp
      rcases List.mem_cons.mp h with h | h
      · exact Or.inr ⟨x, List.mem_cons_self, hp, h⟩
      · exact Or.inl (List.mem_cons_of_mem _ h)
    · rcases List.mem_cons.mp h with h | h
      · exact Or.inl (h ▸ List.mem_cons_self)
      · rcases ih h with h | ⟨z, hz, hpz, hy⟩
        · exact Or.inl (List.mem_cons_of_mem _ h)
        · exact Or.inr ⟨z, List.mem_cons_of_mem _ hz, hpz, hy⟩

/-- Looking for what was changed finds it changed. -/
theorem find?_modifyFirst_self (hf : ∀ x, p x = true → p (f x) = true) (l : List α) :
    (modifyFirst p f l).find? p = (l.find? p).map f := by
  induction l with
  | nil => rfl
  | cons x rest ih =>
    rw [modifyFirst]
    by_cases hp : p x = true
    · rw [if_pos hp, List.find?_cons_of_pos (hf x hp), List.find?_cons_of_pos hp, Option.map_some]
    · rw [if_neg hp, List.find?_cons_of_neg hp, List.find?_cons_of_neg hp, ih]

/-- Looking for anything else finds what was found before. -/
theorem find?_modifyFirst_of_disjoint {q : α → Bool} (hx : ∀ x, p x = true → q x = false)
    (hf : ∀ x, p x = true → q (f x) = false) (l : List α) :
    (modifyFirst p f l).find? q = l.find? q := by
  induction l with
  | nil => rfl
  | cons x rest ih =>
    rw [modifyFirst]
    by_cases hp : p x = true
    · rw [if_pos hp, List.find?_cons_of_neg (by simp [hf x hp]), List.find?_cons_of_neg (by simp [hx x hp])]
    · rw [if_neg hp, List.find?_cons, List.find?_cons, ih]

/-- Where keys are distinct, the first element with a key is the only one. -/
theorem modifyFirst_eq_map {k : α → String} {a : String} {l : List α} (h : (l.map k).Nodup) :
    modifyFirst (fun x => k x = a) f l = l.map (fun x => if k x = a then f x else x) := by
  induction l with
  | nil => rfl
  | cons x rest ih =>
    obtain ⟨hx, hrest⟩ := List.nodup_cons.mp h
    rw [modifyFirst, List.map_cons]
    by_cases ha : k x = a
    · rw [if_pos (decide_eq_true ha), if_pos ha]
      congr 1
      refine (List.map_id' rest).symm.trans (List.map_congr_left fun y hy => ?_)
      have hne : k y ≠ a := fun hc => hx (List.mem_map.mpr ⟨y, hy, hc.trans ha.symm⟩)
      rw [if_neg hne]
    · rw [if_neg (by simpa using ha), if_neg ha, ih hrest]

/-- Changing an element to itself changes nothing. -/
theorem modifyFirst_eq_self {l : List α} (h : ∀ x, l.find? p = some x → f x = x) :
    modifyFirst p f l = l := by
  induction l with
  | nil => rfl
  | cons x rest ih =>
    rw [modifyFirst]
    split
    · rename_i hp
      rw [h x (List.find?_cons_of_pos hp)]
    · rename_i hp
      rw [ih fun y hy => h y ((List.find?_cons_of_neg hp).trans hy)]

/-- Only the first match is changed. -/
theorem modifyFirst_of_find? {l : List α} {x : α} (h : l.find? p = some x) :
    modifyFirst p f l = modifyFirst p (fun _ => f x) l := by
  induction l with
  | nil => rfl
  | cons y rest ih =>
    rw [modifyFirst, modifyFirst]
    by_cases hp : p y = true
    · rw [List.find?_cons_of_pos hp] at h
      rw [if_pos hp, if_pos hp, Option.some.inj h]
    · rw [List.find?_cons_of_neg hp] at h
      rw [if_neg hp, if_neg hp, ih h]

/-- The first match is changed where it stands. -/
theorem modifyFirst_append_cons {front back : List α} {x : α} (hfront : ∀ y ∈ front, p y ≠ true) (hx : p x = true) :
    modifyFirst p f (front ++ x :: back) = front ++ f x :: back := by
  induction front with
  | nil => exact if_pos hx
  | cons y rest ih =>
    obtain ⟨hy, hrest⟩ := List.forall_mem_cons.mp hfront
    rw [List.cons_append, modifyFirst, if_neg hy, ih hrest]
    rfl

end ModifyFirst

/-- Where keys are distinct, every element is found under its key. -/
theorem find?_of_mem {α : Type} {k : α → String} {l : List α} {x : α} (hd : (l.map k).Nodup) (hx : x ∈ l) :
    l.find? (fun y => k y = k x) = some x := by
  induction l with
  | nil => exact absurd hx List.not_mem_nil
  | cons y rest ih =>
    obtain ⟨hy, hrest⟩ := List.nodup_cons.mp hd
    rcases List.mem_cons.mp hx with rfl | hx
    · exact List.find?_cons_of_pos (decide_eq_true rfl)
    · have hne : k y ≠ k x := fun hc => hy (hc ▸ List.mem_map_of_mem hx)
      exact (List.find?_cons_of_neg (by simpa using hne)).trans (ih hrest hx)

/-- Where two lists agree in `k` place by place, they agree in whatever `k` determines. -/
theorem map_eq_of_map_eq {α β γ : Type} {k : α → γ} {h h' : α → β} {l l' : List α}
    (hk : l.map k = l'.map k) (heq : ∀ x ∈ l, ∀ y ∈ l', k x = k y → h x = h' y) :
    l.map h = l'.map h' := by
  induction l generalizing l' with
  | nil =>
    cases l' with
    | nil => rfl
    | cons y rest' => exact absurd hk (by simp)
  | cons x rest ih =>
    cases l' with
    | nil => exact absurd hk (by simp)
    | cons y rest' =>
      obtain ⟨hhead, htail⟩ := List.cons.inj hk
      rw [List.map_cons, List.map_cons, heq x List.mem_cons_self y List.mem_cons_self hhead,
        ih htail fun x hx y hy => heq x (List.mem_cons_of_mem _ hx) y (List.mem_cons_of_mem _ hy)]

/-! ## Groups without their values -/

/-- A checkbox, not selected. -/
def Checkbox.cleared (c : Checkbox) : Checkbox := { c with selected := false }

@[simp] theorem Checkbox.cleared_id (c : Checkbox) : c.cleared.id = c.id := rfl

@[simp] theorem Checkbox.cleared_selected (c : Checkbox) : c.cleared.selected = false := rfl

theorem Checkbox.cleared_eq_self {c : Checkbox} (h : c.selected = false) : c.cleared = c := by
  obtain ⟨id, label, selected, editable⟩ := c
  obtain rfl : selected = false := h
  rfl

namespace Group

/-- A group with what follows from its members and the rules reset. -/
def bare (g : Group) : Group :=
  { g with main := g.main.map (fun m => { m with selected := false }), enabled := true }

/-- A group with no value set: all that is left alone when values are set. -/
def blank (g : Group) : Group := { g.bare with members := g.members.map Checkbox.cleared }

/-- A group with its numbers forgotten, as messages tell it. -/
def unnumbered (g : Group) : Group := { g with numbering := g.numbering.map (fun _ => .ofNat 0) }

/-- Whether the main checkbox says what the members say. -/
def Aggregated (g : Group) : Prop := g.aggregate = g

/-! ## Looking a member up -/

theorem id_of_member? {g : Group} {id : String} {c : Checkbox} (h : g.member? id = some c) : c.id = id := by
  have hid := List.find?_some h
  exact of_decide_eq_true hid

theorem mem_of_member? {g : Group} {id : String} {c : Checkbox} (h : g.member? id = some c) :
    c ∈ g.members :=
  List.mem_of_find?_eq_some h

theorem mem_order_of_member? {g : Group} {id : String} {c : Checkbox} (h : g.member? id = some c) :
    id ∈ g.order := by
  rw [← id_of_member? h]
  exact List.mem_map_of_mem (mem_of_member? h)

theorem contains_iff {g : Group} {id : String} : g.contains id = true ↔ id ∈ g.order := by
  unfold contains
  rw [Option.isSome_iff_exists]
  constructor
  · rintro ⟨c, hc⟩
    exact mem_order_of_member? hc
  · intro hid
    obtain ⟨c, hc, rfl⟩ := List.mem_map.mp hid
    exact Option.isSome_iff_exists.mp (List.find?_isSome.mpr ⟨c, hc, decide_eq_true rfl⟩)

/-! ## Setting values -/

@[simp] theorem aggregate_members (g : Group) : g.aggregate.members = g.members := rfl

@[simp] theorem bare_aggregate (g : Group) : g.aggregate.bare = g.bare := by
  simp [bare, aggregate, Function.comp_def]

@[simp] theorem blank_aggregate (g : Group) : g.aggregate.blank = g.blank := by
  rw [blank, bare_aggregate]
  rfl

theorem aggregated_aggregate (g : Group) : g.aggregate.Aggregated := by
  simp [Aggregated, aggregate, allSelected, Function.comp_def]

/-- The main checkbox of an aggregated group is selected exactly when the group has members and all of
them are. -/
theorem Aggregated.main_selected {g : Group} {m : Main} (h : g.Aggregated) (hm : g.main = some m) :
    m.selected = true ↔ g.members ≠ [] ∧ ∀ c ∈ g.members, c.selected = true := by
  have hmain : g.aggregate.main = some m := by rw [h, hm]
  have hsel : g.allSelected = m.selected := by
    simp only [aggregate, hm, Option.map_some, Option.some.injEq] at hmain
    exact congrArg Main.selected hmain
  rw [← hsel]
  simp [allSelected]

/-- The main checkbox depends on no more than whether all members are selected. -/
theorem Aggregated.congr {g g' : Group} (h : g.Aggregated) (hall : g'.allSelected = g.allSelected)
    (hmain : g'.main = g.main) : g'.Aggregated := by
  have hagg := congrArg Group.main h
  rw [Aggregated, aggregate, hall, hmain]
  simp only [aggregate] at hagg
  rw [hagg, ← hmain]

/-- The main checkbox does not depend on the order of the members. -/
theorem Aggregated.of_perm {g g' : Group} (h : g.Aggregated) (hperm : g'.members.Perm g.members)
    (hmain : g'.main = g.main) : g'.Aggregated := by
  refine h.congr ?_ hmain
  rw [allSelected, allSelected, hperm.all_eq, hperm.isEmpty_eq]

@[simp] theorem setAll_id (g : Group) (b : Bool) : (g.setAll b).id = g.id := rfl

@[simp] theorem setAll_members (g : Group) (b : Bool) :
    (g.setAll b).members = g.members.map (fun c => { c with selected := b }) := rfl

@[simp] theorem blank_setAll (g : Group) (b : Bool) : (g.setAll b).blank = g.blank := by
  rw [setAll, blank_aggregate]
  simp [blank, bare, Checkbox.cleared, Function.comp_def]

/-- Of two settings of all members the second one counts. -/
@[simp] theorem setAll_setAll (g : Group) (b b' : Bool) : (g.setAll b).setAll b' = g.setAll b' := by
  simp [setAll, aggregate, allSelected, Function.comp_def]

theorem hasSelection_setAll_false (g : Group) : (g.setAll false).hasSelection = false := by
  simp [hasSelection]

/-- What the change leaves alone is read off the members as before. -/
theorem map_members_modifyMember {α : Type} {h : Checkbox → α} {change : Checkbox → Checkbox}
    (hc : ∀ c, h (change c) = h c) (g : Group) (id : String) :
    (g.modifyMember id change).members.map h = g.members.map h :=
  map_modifyFirst (fun c _ => hc c) g.members

theorem blank_modifyMember {g : Group} {id : String} {change : Checkbox → Checkbox}
    (h : ∀ c, (change c).cleared = c.cleared) : (g.modifyMember id change).blank = g.blank := by
  rw [blank, map_members_modifyMember h]
  rfl

/-- Setting a member succeeds exactly if there is one of that id. -/
theorem set?_eq_ok_iff {g g' : Group} {id : String} {b : Bool} :
    g.set? id b = .ok g' ↔
      g.contains id = true ∧ (g.modifyMember id (fun c => { c with selected := b })).aggregate = g' := by
  rw [set?]
  split
  · rename_i h
    simp [h]
  · rename_i h
    simp [h]

theorem blank_of_set? {g g' : Group} {id : String} {b : Bool} (h : g.set? id b = .ok g') :
    g'.blank = g.blank := by
  obtain ⟨-, rfl⟩ := set?_eq_ok_iff.mp h
  rw [blank_aggregate]
  exact blank_modifyMember fun _ => rfl

/-! What two groups have in common that differ in values only. -/

theorem id_eq_of_blank {g g' : Group} (h : g'.blank = g.blank) : g'.id = g.id := by
  have hid := congrArg Group.id h
  exact hid

theorem numbering_eq_of_blank {g g' : Group} (h : g'.blank = g.blank) :
    g'.numbering = g.numbering := by
  have hnumbering := congrArg Group.numbering h
  exact hnumbering

theorem cleared_eq_of_blank {g g' : Group} (h : g'.blank = g.blank) :
    g'.members.map Checkbox.cleared = g.members.map Checkbox.cleared := by
  have hmembers := congrArg Group.members h
  exact hmembers

theorem order_eq_of_blank {g g' : Group} (h : g'.blank = g.blank) : g'.order = g.order := by
  have hids := congrArg (List.map Checkbox.id) (cleared_eq_of_blank h)
  rwa [List.map_map, List.map_map] at hids

/-- Every member of the one is a member of the other, but for its value. -/
theorem exists_member_of_blank {g g' : Group} (h : g'.blank = g.blank) {c : Checkbox} (hc : c ∈ g'.members) :
    ∃ d ∈ g.members, d.id = c.id ∧ d.label = c.label ∧ d.editable = c.editable := by
  have hcleared : c.cleared ∈ g.members.map Checkbox.cleared :=
    cleared_eq_of_blank h ▸ List.mem_map_of_mem hc
  obtain ⟨d, hd, heq⟩ := List.mem_map.mp hcleared
  obtain ⟨hid, hlabel, -, heditable⟩ := Checkbox.mk.inj heq
  exact ⟨d, hd, hid, hlabel, heditable⟩

end Group

end AnyCase
