import AnyCase.Form.Edit
import AnyCase.Proofs.Group

/-!
# `Proofs.Form` — consistent forms

Rules are evaluated in three phases. After all of them a form is *consistent* (`Form.Consistent`): main
checkboxes say what their members say, no exclusion has a selection on both sides, and groups are enabled
as the rules say. This holds after `Form.settle` for any form, and after `Form.reconcile` if the group
that was changed is the only one that can have come into conflict.

Main checkboxes and enablement follow from the rest. So a consistent form is left alone by a further
evaluation (`Consistent.settle_eq`), and two consistent forms are the same if they are the same without
what follows (`Consistent.unnumbered_eq`).

## Contents

* `Form.blank`, `Form.bare`, `Form.unnumbered` — a form without some of what its groups have;
* `group?_…`, `hasSelection_…` — what the phases do to a look-up and to the selection of a group;
* `Form.Exclusive`, `Form.Consistent` — what the evaluation of the rules establishes.
-/

namespace AnyCase

/-- A rival is the other side of an exclusion. -/
theorem Rule.rivalOf_eq_some_iff {group x : String} {rule : Rule} :
    rule.rivalOf group = some x ↔ rule = .exclusive group x ∨ rule = .exclusive x group := by
  cases rule with
  | exclusive a b =>
    by_cases ha : a = group
    · by_cases hb : b = group
      · simp [rivalOf, ha, hb]
      · simp [rivalOf, ha, hb]
    · simp [rivalOf, ha, and_comm]
  | enabledWhenAny g target => simp [rivalOf]
  | disabledWhenAny g target => simp [rivalOf]

namespace Form

variable {f f' : Form}

/-! ## Parts of a form -/

/-- A form with no value set: all that is left alone when values are set. -/
def blank (f : Form) : Form := { f with groups := f.groups.map Group.blank }

/-- A form with what follows from members and rules reset. -/
def bare (f : Form) : Form := { f with groups := f.groups.map Group.bare }

/-- A form with the numbers of elements forgotten. -/
def unnumbered (f : Form) : Form := { f with groups := f.groups.map Group.unnumbered }

theorem rules_eq_of_blank (h : f'.blank = f.blank) : f'.rules = f.rules := (Form.mk.inj h).2

theorem groups_eq_of_blank (h : f'.blank = f.blank) :
    f'.groups.map Group.blank = f.groups.map Group.blank := (Form.mk.inj h).1

/-- Setting values leaves the ids of the groups. -/
theorem ids_of_blank (h : f'.blank = f.blank) : f'.groups.map (·.id) = f.groups.map (·.id) := by
  have hids := congrArg (List.map Group.id) (groups_eq_of_blank h)
  rw [List.map_map, List.map_map] at hids
  exact hids

/-- A group of a form is one of the other form but for values. -/
theorem exists_of_blank (h : f'.blank = f.blank) {g' : Group} (hg' : g' ∈ f'.groups) :
    ∃ g ∈ f.groups, g'.blank = g.blank := by
  have hmem : g'.blank ∈ f.groups.map Group.blank :=
    groups_eq_of_blank h ▸ List.mem_map_of_mem hg'
  obtain ⟨g, hg, heq⟩ := List.mem_map.mp hmem
  exact ⟨g, hg, heq.symm⟩

theorem bare_unnumbered (f : Form) : f.unnumbered.bare = f.bare.unnumbered := by
  show Form.mk ((f.groups.map Group.unnumbered).map Group.bare) f.rules
    = Form.mk ((f.groups.map Group.bare).map Group.unnumbered) f.rules
  rw [List.map_map, List.map_map]
  rfl

/-! ## Looking a group up -/

theorem id_of_group? {x : String} {g : Group} (h : f.group? x = some g) : g.id = x := by
  have hx := List.find?_some h
  exact of_decide_eq_true hx

theorem mem_of_group? {x : String} {g : Group} (h : f.group? x = some g) : g ∈ f.groups :=
  List.mem_of_find?_eq_some h

/-- Where ids are distinct, every group is found under its id. -/
theorem group?_of_mem (hd : (f.groups.map (·.id)).Nodup) {g : Group} (hg : g ∈ f.groups) :
    f.group? g.id = some g :=
  find?_of_mem hd hg

/-- Changing every group in a way that keeps its id changes what is found. -/
theorem group?_map (change : Group → Group) (hc : ∀ g, (change g).id = g.id) (rules : List Rule)
    (groups : List Group) (x : String) :
    (Form.mk (groups.map change) rules).group? x
      = ((Form.mk groups rules).group? x).map change := by
  rw [group?, group?, List.find?_map]
  congr 2
  funext g
  simp [hc]

theorem group?_blank (f : Form) (x : String) : f.blank.group? x = (f.group? x).map Group.blank :=
  group?_map Group.blank (fun _ => rfl) f.rules f.groups x

/-- Where values were set, the group that is found is the one that was found, but for values. -/
theorem exists_group?_of_blank (h : f'.blank = f.blank) {x : String} {g : Group} (hg : f.group? x = some g) :
    ∃ g', f'.group? x = some g' ∧ g'.blank = g.blank := by
  have hlook : (f'.group? x).map Group.blank = some g.blank := by
    rw [← group?_blank, h, group?_blank, hg, Option.map_some]
  exact Option.map_eq_some_iff.mp hlook

theorem group?_aggregate (f : Form) (x : String) :
    f.aggregate.group? x = (f.group? x).map Group.aggregate :=
  group?_map Group.aggregate (fun _ => rfl) f.rules f.groups x

theorem group?_enable (f : Form) (x : String) :
    f.enable.group? x = (f.group? x).map fun g =>
      { g with enabled := f.rules.all (Rule.allows f.hasSelection g.id) } :=
  group?_map (fun g => { g with enabled := f.rules.all (Rule.allows f.hasSelection g.id) })
    (fun _ => rfl) f.rules f.groups x

theorem group?_modifyGroup {id : String} {change : Group → Group}
    (hc : ∀ g, g.id = id → (change g).id = id) (f : Form) (x : String) :
    (f.modifyGroup id change).group? x = if x = id then (f.group? x).map change else f.group? x := by
  by_cases hx : x = id
  · subst hx
    rw [if_pos rfl]
    refine find?_modifyFirst_self (fun g hg => ?_) f.groups
    exact decide_eq_true (hc g (of_decide_eq_true hg))
  · rw [if_neg hx]
    refine find?_modifyFirst_of_disjoint (fun g hg => ?_) (fun g hg => ?_) f.groups
    · exact decide_eq_false fun h => hx (h.symm.trans (of_decide_eq_true hg))
    · exact decide_eq_false fun h => hx (h.symm.trans (hc g (of_decide_eq_true hg)))

/-- Unselecting groups unselects what is found under their ids. -/
theorem group?_unselect (f : Form) (ids : List String) (x : String) :
    (f.unselect ids).group? x
      = (f.group? x).map (fun g => if x ∈ ids then g.setAll false else g) := by
  -- a group may be named several times; unselecting it again does nothing
  induction ids generalizing f with
  | nil => simp [unselect]
  | cons id ids ih =>
    have hstep : (f.unselect (id :: ids)) = (f.modifyGroup id (fun g => g.setAll false)).unselect ids :=
      rfl
    rw [hstep, ih, group?_modifyGroup fun g hg => by rw [Group.setAll_id, hg]]
    cases f.group? x with
    | none => simp
    | some g =>
      by_cases hx : x = id
      · by_cases hmem : x ∈ ids <;> simp [hx]
      · simp [hx]

/-! ## The selection of a group -/

theorem hasSelection_congr {x : String} {change : Group → Group}
    (h : f'.group? x = (f.group? x).map change)
    (hc : ∀ g, (change g).hasSelection = g.hasSelection) : f'.hasSelection x = f.hasSelection x := by
  rw [hasSelection, hasSelection, h]
  cases f.group? x with
  | none => rfl
  | some g => exact hc g

@[simp] theorem hasSelection_aggregate (f : Form) : f.aggregate.hasSelection = f.hasSelection :=
  funext fun x => hasSelection_congr (group?_aggregate f x) fun _ => rfl

@[simp] theorem hasSelection_enable (f : Form) : f.enable.hasSelection = f.hasSelection :=
  funext fun x => hasSelection_congr (group?_enable f x) fun _ => rfl

@[simp] theorem hasSelection_bare (f : Form) : f.bare.hasSelection = f.hasSelection :=
  funext fun x => hasSelection_congr (group?_map Group.bare (fun _ => rfl) f.rules f.groups x)
    fun _ => rfl

@[simp] theorem hasSelection_unnumbered (f : Form) : f.unnumbered.hasSelection = f.hasSelection :=
  funext fun x => hasSelection_congr (group?_map Group.unnumbered (fun _ => rfl) f.rules f.groups x)
    fun _ => rfl

/-- A group that was unselected has no selection; every other one has the selection it had. -/
theorem hasSelection_unselect {ids : List String} {x : String} :
    (f.unselect ids).hasSelection x = true ↔ x ∉ ids ∧ f.hasSelection x = true := by
  rw [hasSelection, group?_unselect, hasSelection]
  cases f.group? x with
  | none => simp
  | some g => by_cases hx : x ∈ ids <;> simp [hx, Group.hasSelection_setAll_false]

/-! ## Values only -/

@[simp] theorem bare_aggregate (f : Form) : f.aggregate.bare = f.bare := by
  simp [bare, aggregate, Function.comp_def]

@[simp] theorem bare_enable (f : Form) : f.enable.bare = f.bare := by
  simp [bare, enable, Group.bare, Function.comp_def]

/-- What follows from values is not left alone when values are set. -/
theorem blank_eq_of_bare (h : f'.bare = f.bare) : f'.blank = f.blank := by
  obtain ⟨hgroups, hrules⟩ := Form.mk.inj h
  have hblank : ∀ f : Form, f.groups.map Group.blank
      = (f.groups.map Group.bare).map fun g => { g with members := g.members.map Checkbox.cleared } := by
    intro f
    rw [List.map_map]
    rfl
  rw [blank, blank, hblank f', hblank f, hgroups, hrules]

@[simp] theorem blank_aggregate (f : Form) : f.aggregate.blank = f.blank :=
  blank_eq_of_bare (bare_aggregate f)

@[simp] theorem blank_enable (f : Form) : f.enable.blank = f.blank :=
  blank_eq_of_bare (bare_enable f)

theorem blank_modifyGroup {id : String} {change : Group → Group}
    (hc : ∀ g, (change g).blank = g.blank) (f : Form) : (f.modifyGroup id change).blank = f.blank := by
  rw [blank, blank]
  congr 1
  exact map_modifyFirst (fun g _ => hc g) f.groups

@[simp] theorem blank_unselect (f : Form) (ids : List String) : (f.unselect ids).blank = f.blank := by
  induction ids generalizing f with
  | nil => rfl
  | cons id ids ih =>
    have hstep := ih (f.modifyGroup id (fun g => g.setAll false))
    rw [blank_modifyGroup fun g => Group.blank_setAll g false] at hstep
    exact hstep

@[simp] theorem blank_reconcile (f : Form) (origin : String) (selected : Bool) :
    (f.reconcile origin selected).blank = f.blank := by
  rw [reconcile, blank_enable, blank_aggregate]
  split
  · exact blank_unselect f _
  · rfl

@[simp] theorem blank_settle (f : Form) : f.settle.blank = f.blank := by
  rw [settle, blank_enable, blank_aggregate, blank_unselect]

/-! ## Consistency -/

/-- No exclusion has a selection on both of its sides. -/
def Exclusive (f : Form) : Prop :=
  ∀ a b, .exclusive a b ∈ f.rules → ¬(f.hasSelection a = true ∧ f.hasSelection b = true)

/-- What holds after the rules were evaluated. -/
structure Consistent (f : Form) : Prop where
  aggregated : ∀ g ∈ f.groups, g.Aggregated
  exclusive : f.Exclusive
  enabled : ∀ g ∈ f.groups, g.enabled = f.rules.all (Rule.allows f.hasSelection g.id)

/-- Whether a group is enabled, told rule by rule. -/
theorem all_allows_iff (any : String → Bool) (group : String) (rules : List Rule) :
    rules.all (Rule.allows any group) = true ↔
      (∀ target, .enabledWhenAny group target ∈ rules → any target = true) ∧
        (∀ target, .disabledWhenAny group target ∈ rules → any target = false) := by
  rw [List.all_eq_true]
  constructor
  · intro h
    constructor
    · intro target hrule
      simpa [Rule.allows] using h _ hrule
    · intro target hrule
      simpa [Rule.allows] using h _ hrule
  · rintro ⟨hon, hoff⟩ rule hrule
    cases rule with
    | exclusive a b => rfl
    | enabledWhenAny g target =>
      by_cases heq : g = group
      · subst heq
        simp [Rule.allows, hon target hrule]
      · simp [Rule.allows, heq]
    | disabledWhenAny g target =>
      by_cases heq : g = group
      · subst heq
        simp [Rule.allows, hoff target hrule]
      · simp [Rule.allows, heq]

/-- The last two phases do the rest once no exclusion is violated. -/
theorem Exclusive.consistent (h : f.Exclusive) : f.aggregate.enable.Consistent where
  aggregated := by
    intro g hg
    obtain ⟨g₁, hg₁, rfl⟩ := List.mem_map.mp hg
    obtain ⟨g₂, -, rfl⟩ := List.mem_map.mp hg₁
    have hagg := congrArg Group.main (Group.aggregated_aggregate g₂)
    simpa [Group.Aggregated, Group.aggregate, Group.allSelected] using hagg
  exclusive := by
    intro a b hrule
    rw [hasSelection_enable, hasSelection_aggregate]
    exact h a b hrule
  enabled := by
    intro g hg
    obtain ⟨g₁, -, rfl⟩ := List.mem_map.mp hg
    rw [hasSelection_enable]
    rfl

/-- Unselecting groups leaves no exclusion violated if those that were lose one of their sides. -/
theorem exclusive_unselect {ids : List String}
    (h : ∀ a b, .exclusive a b ∈ f.rules → f.hasSelection a = true → f.hasSelection b = true →
      a ∈ ids ∨ b ∈ ids) : (f.unselect ids).Exclusive := by
  intro a b hrule hboth
  rw [rules_eq_of_blank (blank_unselect f ids)] at hrule
  obtain ⟨ha, hsa⟩ := hasSelection_unselect.mp hboth.1
  obtain ⟨hb, hsb⟩ := hasSelection_unselect.mp hboth.2
  exact (h a b hrule hsa hsb).elim ha hb

/-- The groups that lose are the second sides of violated exclusions. -/
theorem mem_losers {x : String} :
    x ∈ f.losers ↔ ∃ a, .exclusive a x ∈ f.rules ∧ f.hasSelection a = true ∧ f.hasSelection x = true := by
  unfold losers
  rw [List.mem_filterMap]
  constructor
  · rintro ⟨rule, hrule, hx⟩
    cases rule with
    | exclusive a b =>
      simp only [Option.ite_none_right_eq_some, Bool.and_eq_true, Option.some.injEq] at hx
      obtain ⟨⟨ha, hb⟩, rfl⟩ := hx
      exact ⟨a, hrule, ha, hb⟩
    | enabledWhenAny group target => exact absurd hx (by simp)
    | disabledWhenAny group target => exact absurd hx (by simp)
  · rintro ⟨a, hrule, ha, hx⟩
    exact ⟨_, hrule, by simp [ha, hx]⟩

/-- **Settling makes any form consistent.** -/
theorem consistent_settle (f : Form) : f.settle.Consistent := by
  refine Exclusive.consistent (exclusive_unselect fun a b hrule ha hb => Or.inr ?_)
  exact mem_losers.mpr ⟨a, hrule, ha, hb⟩

/-- The rivals of a group are the other sides of its exclusions. -/
theorem mem_rivals {x y : String} :
    y ∈ f.rules.filterMap (Rule.rivalOf x) ↔ .exclusive x y ∈ f.rules ∨ .exclusive y x ∈ f.rules := by
  rw [List.mem_filterMap]
  constructor
  · rintro ⟨rule, hrule, hy⟩
    rcases Rule.rivalOf_eq_some_iff.mp hy with rfl | rfl
    · exact Or.inl hrule
    · exact Or.inr hrule
  · rintro (hrule | hrule)
    · exact ⟨_, hrule, Rule.rivalOf_eq_some_iff.mpr (Or.inl rfl)⟩
    · exact ⟨_, hrule, Rule.rivalOf_eq_some_iff.mpr (Or.inr rfl)⟩

/-- Where no group excludes itself, none is its own rival. -/
theorem not_mem_rivals_self (h : ∀ a b, .exclusive a b ∈ f.rules → a ≠ b) {x : String} :
    x ∉ f.rules.filterMap (Rule.rivalOf x) := by
  intro hmem
  rcases mem_rivals.mp hmem with hrule | hrule
  · exact h x x hrule rfl
  · exact h x x hrule rfl

/-- **Reconciling makes a form consistent** if the changed group has a part in every violated exclusion,
and was selected where there is one. -/
theorem consistent_reconcile {origin : String} {selected : Bool}
    (h : ∀ a b, .exclusive a b ∈ f.rules → f.hasSelection a = true → f.hasSelection b = true →
      selected = true ∧ (a = origin ∨ b = origin)) : (f.reconcile origin selected).Consistent := by
  apply Exclusive.consistent
  -- without a selection by the change no conflict is possible, so nothing needs to be unselected
  split
  · refine exclusive_unselect fun a b hrule ha hb => ?_
    rcases (h a b hrule ha hb).2 with rfl | rfl
    · exact Or.inr (mem_rivals.mpr (Or.inl hrule))
    · exact Or.inl (mem_rivals.mpr (Or.inr hrule))
  · rename_i hoff
    exact fun a b hrule hboth => hoff (h a b hrule hboth.1 hboth.2).1

/-! ## What follows from the rest -/

/-- **The last two phases restore what follows from members and rules.** -/
theorem Consistent.bare_aggregate_enable (h : f.Consistent) : f.bare.aggregate.enable = f := by
  obtain ⟨groups, rules⟩ := f
  rw [enable, hasSelection_aggregate, hasSelection_bare]
  congr 1
  rw [aggregate, bare, List.map_map, List.map_map]
  refine (List.map_congr_left fun g hg => ?_).trans (List.map_id' groups)
  have hmain : (g.bare.aggregate).main = g.main := by
    have hagg := congrArg Group.main (h.aggregated g hg)
    simpa [Group.bare, Group.aggregate, Group.allSelected, Function.comp_def] using hagg
  have henabled := h.enabled g hg
  obtain ⟨id, main, members, enabled, numbering⟩ := g
  simp only [Function.comp_apply, Group.mk.injEq]
  exact ⟨rfl, hmain, rfl, henabled.symm, rfl⟩

theorem Consistent.unnumbered (h : f.Consistent) : f.unnumbered.Consistent where
  aggregated := by
    intro g hg
    obtain ⟨g₁, hg₁, rfl⟩ := List.mem_map.mp hg
    have hagg := congrArg Group.main (h.aggregated g₁ hg₁)
    simpa [Group.Aggregated, Group.aggregate, Group.allSelected, Group.unnumbered] using hagg
  exclusive := by
    intro a b hrule
    rw [hasSelection_unnumbered]
    exact h.exclusive a b hrule
  enabled := by
    intro g hg
    obtain ⟨g₁, hg₁, rfl⟩ := List.mem_map.mp hg
    rw [hasSelection_unnumbered]
    exact h.enabled g₁ hg₁

/-- **Two consistent forms that differ at most in what follows from the rest, and in numbers, differ in
numbers only.** -/
theorem Consistent.unnumbered_eq (h : f.Consistent) (h' : f'.Consistent)
    (heq : f.unnumbered.bare = f'.unnumbered.bare) : f.unnumbered = f'.unnumbered := by
  rw [← h.unnumbered.bare_aggregate_enable, heq, h'.unnumbered.bare_aggregate_enable]

/-- In a form without violated exclusions nobody loses. -/
theorem Exclusive.losers_eq_nil (h : f.Exclusive) : f.losers = [] := by
  refine List.eq_nil_iff_forall_not_mem.mpr fun x hx => ?_
  obtain ⟨a, hrule, ha, hxsel⟩ := mem_losers.mp hx
  exact h a x hrule ⟨ha, hxsel⟩

/-- Settling a form without violated exclusions touches no member. -/
theorem Exclusive.bare_settle (h : f.Exclusive) : f.settle.bare = f.bare := by
  rw [settle, h.losers_eq_nil, bare_enable, bare_aggregate]
  rfl

/-- **A form that is read from a consistent one settles to it**: no rule changes a member. -/
theorem Consistent.settle_of_bare (h : f.Consistent) (heq : f'.unnumbered.bare = f.unnumbered.bare) :
    f'.settle.bare = f'.bare ∧ f'.settle.unnumbered = f.unnumbered := by
  have hsel : f'.hasSelection = f.hasSelection := by
    have hcongr := congrArg Form.hasSelection heq
    simpa only [hasSelection_bare, hasSelection_unnumbered] using hcongr
  -- the values are those of the consistent form, so no exclusion is violated and settling unselects nothing
  have hexcl : f'.Exclusive := by
    intro a b hrule
    rw [hsel]
    exact h.exclusive a b ((Form.mk.inj heq).2 ▸ hrule)
  have hsettled : f'.settle.bare = f'.bare := hexcl.bare_settle
  refine ⟨hsettled, (consistent_settle f').unnumbered_eq h ?_⟩
  rw [bare_unnumbered, hsettled, ← bare_unnumbered, heq]

theorem Consistent.aggregate_enable (h : f.Consistent) : f.aggregate.enable = f := by
  have hbare : f.aggregate.enable.bare = f.bare := by rw [bare_enable, bare_aggregate]
  rw [← (h.exclusive.consistent).bare_aggregate_enable, hbare, h.bare_aggregate_enable]

/-- **A consistent form is settled already.** -/
theorem Consistent.settle_eq (h : f.Consistent) : f.settle = f := by
  rw [settle, h.exclusive.losers_eq_nil]
  exact h.aggregate_enable

end Form

end AnyCase
