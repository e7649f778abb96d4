import AnyCase.Proofs.Consistency
import AnyCase.Proofs.Winners

/-!
# `Proofs.Effect` — what setting a checkbox changes, and what it leaves alone

The ids of a form are taken to be distinct, so an id stands for something in one group at most (`Group.Owns`). Setting
a checkbox is refused if there is no such group, or if it is disabled (`set_eq_error_iff`). Otherwise the group is
replaced by one that differs in the values of one member, or of all (`exists_set`), and the rules are evaluated.

Main checkboxes and enablement are recomputed everywhere in that evaluation, but only exclusions touch members, and only
those of the groups that the changed one is linked to. `SetEffect` says so group by group. What it says of the changed
group holds if no group excludes itself: such a group would lose its members again.
-/

namespace AnyCase

namespace Form

variable {f f' : Form} {g g' : Group} {id : String} {v : Bool}

/-- What setting a checkbox of a group does to a form. Everything but values stays as it is. -/
structure SetEffect (f : Form) (g : Group) (id : String) (v : Bool) (f' : Form) : Prop where
  blank : f'.blank = f.blank
  consistent : f'.Consistent
  /-- The main checkbox sets all members, and every other one itself. -/
  own : f'.membersOf g.id
    = g.members.map fun c => if id = g.id ∨ c.id = id then { c with selected := v } else c
  /-- If the group has a selected member, the groups it is linked to are unselected. -/
  rivals : f'.hasSelection g.id = true → ∀ x, f.Linked g.id x →
    f'.membersOf x = (f.membersOf x).map Checkbox.cleared
  others : ∀ x, x ≠ g.id → ¬(f'.hasSelection g.id = true ∧ f.Linked g.id x) → f'.membersOf x = f.membersOf x

/-! ## The group that is changed -/

section Distinct

variable (hd : (f.groups.flatMap Group.order ++ f.groups.map (·.id)).Nodup)

include hd

/-- A checkbox of an enabled group is set by replacing the group. -/
theorem exists_set (hg : g ∈ f.groups) (howns : g.Owns id) (hon : g.enabled = true) (v : Bool) :
    ∃ g', g'.blank = g.blank ∧
      g'.members = (g.members.map fun c => if id = g.id ∨ c.id = id then { c with selected := v } else c) ∧
      f.set id v = .ok ((f.replace g').reconcile g.id g'.hasSelection) := by
  obtain ⟨place, spot, hlocate⟩ := exists_locate?_of_owns hd hg howns
  have hspot : g.spot? id = some spot := (locateIn_spec hlocate).2
  obtain ⟨g', hblank, -, -, hmembers, hset⟩ := set_of_locate? (groups_nodup hd) hlocate hon v
  refine ⟨g', hblank, hmembers.trans ?_, hset⟩
  cases spot with
  | main =>
    have hid : id = g.id := (Group.id_of_spot? hspot).symm
    simp [hid]
  | member =>
    have hid : id ∈ g.order := Group.contains_iff.mp (Group.contains_of_spot? hspot)
    have hne : id ≠ g.id := fun heq => id_not_mem_order hd hg hg (heq ▸ hid)
    simp only [hne, false_or]
    exact modifyFirst_eq_map (order_nodup hd hg)

/-- **A checkbox is not set exactly if there is none of that id, or its group is disabled.** -/
theorem set_eq_error_iff {r : Refusal} :
    f.set id v = .error r ↔
      (r = .noCheckbox id ∧ ∀ g ∈ f.groups, ¬g.Owns id) ∨
        ∃ g ∈ f.groups, g.Owns id ∧ g.enabled = false ∧ r = .disabled id g.id := by
  constructor
  · intro h
    cases hlocate : f.locate? id with
    | none =>
      left
      rw [set, hlocate] at h
      refine ⟨(Except.error.inj h).symm, fun g hg => ?_⟩
      exact Group.spot?_eq_none_iff.mp (locateIn_eq_none_iff.mp hlocate g hg)
    | some l =>
      right
      obtain ⟨place, g, spot⟩ := l
      obtain ⟨hplace, hspot⟩ := locateIn_spec hlocate
      have hg : g ∈ f.groups := List.mem_of_getElem? hplace
      have howns : g.Owns id := Group.owns_of_spot? hspot
      cases hon : g.enabled with
      | true =>
        obtain ⟨g', -, -, hset⟩ := exists_set hd hg howns hon v
        exact absurd (h.symm.trans hset) (by simp)
      | false =>
        rw [set, hlocate] at h
        simp only [hon, Bool.not_false, if_true] at h
        exact ⟨g, hg, howns, hon, (Except.error.inj h).symm⟩
  · rintro (⟨rfl, hnone⟩ | ⟨g, hg, howns, hoff, rfl⟩)
    · have hlocate : f.locate? id = none :=
        locateIn_eq_none_iff.mpr fun g hg => Group.spot?_eq_none_iff.mpr (hnone g hg)
      rw [set, hlocate]
    · obtain ⟨place, spot, hlocate⟩ := exists_locate?_of_owns hd hg howns
      rw [set, hlocate]
      simp only [hoff, Bool.not_false, if_true]

end Distinct

/-! ## The other groups -/

/-- Replacing a group by one that differs in values, and evaluating the rules for it, does what setting a checkbox
does. -/
theorem setEffect_of_replace (hf : f.Consistent) (hd : (f.groups.map (·.id)).Nodup)
    (hself : ∀ a b, .exclusive a b ∈ f.rules → a ≠ b) (hg : g ∈ f.groups) (hblank : g'.blank = g.blank)
    (hmembers : g'.members = g.members.map fun c => if id = g.id ∨ c.id = id then { c with selected := v } else c) :
    f.SetEffect g id v ((f.replace g').reconcile g.id g'.hasSelection) := by
  have hfound := group?_of_mem hd hg
  have hid := Group.id_eq_of_blank hblank
  have hrivals : ∀ x, x ∈ (f.replace g').rules.filterMap (Rule.rivalOf g.id) ↔ f.Linked g.id x := fun x =>
    mem_rivals_iff_linked
  have hown : ((f.replace g').reconcile g.id g'.hasSelection).membersOf g.id = g'.members := by
    rw [membersOf_reconcile, if_neg fun h => ((hrivals _).mp h.2).ne hself rfl, membersOf_replace hfound hid,
      if_pos rfl]
  have hsel : ((f.replace g').reconcile g.id g'.hasSelection).hasSelection g.id = g'.hasSelection := by
    rw [hasSelection_eq, hown]
    rfl
  refine ⟨blank_reconcile_replace hd hfound hblank _ _, hf.replaced hfound hid, hown.trans hmembers, ?_, ?_⟩
  · intro hon x hlinked
    rw [membersOf_reconcile, if_pos ⟨hsel.symm.trans hon, (hrivals x).mpr hlinked⟩, membersOf_replace hfound hid,
      if_neg (hlinked.ne hself).symm]
  · intro x hne hnot
    rw [membersOf_reconcile, if_neg fun h => hnot ⟨hsel.trans h.1, (hrivals x).mp h.2⟩, membersOf_replace hfound hid,
      if_neg hne]

/-- **The effect of setting a checkbox.** Let the ids of a consistent form be distinct, and no group exclude itself.
Setting a checkbox is refused, and does nothing, exactly if there is no checkbox of the id or its group is disabled.
Otherwise a member is set, or all of its group by the main checkbox; if then the group has a selected member, the
groups it is linked to are unselected; and everything else is as it was. -/
theorem set_effect (hf : f.Consistent) (hd : (f.groups.flatMap Group.order ++ f.groups.map (·.id)).Nodup)
    (hself : ∀ a b, .exclusive a b ∈ f.rules → a ≠ b) (id : String) (v : Bool) :
    (∀ r, f.set id v = .error r ↔
      (r = .noCheckbox id ∧ ∀ g ∈ f.groups, ¬g.Owns id) ∨
        ∃ g ∈ f.groups, g.Owns id ∧ g.enabled = false ∧ r = .disabled id g.id) ∧
    (∀ r, f.set id v = .error r → f.step (.set id v) = f) ∧
    ∀ g ∈ f.groups, g.Owns id → g.enabled = true → ∃ f', f.set id v = .ok f' ∧ f.SetEffect g id v f' := by
  refine ⟨fun r => set_eq_error_iff hd, fun r hr => ?_, fun g hg howns hon => ?_⟩
  · have hchange : f.change? (.set id v) = .error r := hr
    rw [step, hchange]
  · obtain ⟨g', hblank, hmembers, hset⟩ := exists_set hd hg howns hon v
    exact ⟨_, hset, setEffect_of_replace hf (groups_nodup hd) hself hg hblank hmembers⟩

/-- A group between two others that it excludes, and one that depends on one of these. -/
def between : Form :=
  make
    [Group.fixed "a" (some "All") [⟨"a0", "a0", true, false⟩, ⟨"a1", "a1", false, false⟩],
      Group.dynamic "b" (some "All") [⟨"b-0", "b-0", false, true⟩, ⟨"b-1", "b-1", false, true⟩],
      Group.fixed "c" none [⟨"c0", "c0", true, false⟩], Group.fixed "d" none [⟨"d0", "d0", true, false⟩]]
    [.exclusive "a" "b", .exclusive "b" "c", .enabledWhenAny "d" "c"]

/-- The main checkbox in the middle unselects both neighbours. The group that is disabled by that keeps its member. -/
theorem set_effect_between :
    ∃ f', between.set "b" true = .ok f' ∧ f'.membersOf "b" = [⟨"b-0", "b-0", true, true⟩, ⟨"b-1", "b-1", true, true⟩] ∧
      f'.hasSelection "b" = true ∧ (∀ x ∈ ["a", "c"], f'.membersOf x = (between.membersOf x).map Checkbox.cleared) ∧
      f'.membersOf "d" = between.membersOf "d" := by
  let b := Group.dynamic "b" (some "All") [⟨"b-0", "b-0", false, true⟩, ⟨"b-1", "b-1", false, true⟩]
  have hself : ∀ x y, .exclusive x y ∈ between.rules → x ≠ y := by
    intro x y hrule
    have hrules : between.rules = [.exclusive "a" "b", .exclusive "b" "c", .enabledWhenAny "d" "c"] := by decide
    simp only [hrules, List.mem_cons, Rule.exclusive.injEq, List.not_mem_nil, or_false, reduceCtorEq] at hrule
    rcases hrule with ⟨rfl, rfl⟩ | ⟨rfl, rfl⟩
    · decide
    · decide
  obtain ⟨-, -, heffect⟩ := set_effect (f := between) (consistent_settle _) (by decide) hself "b" true
  obtain ⟨f', hset, h⟩ := heffect b (by decide) (Or.inr ⟨rfl, rfl⟩) rfl
  have hown : f'.membersOf "b" = [⟨"b-0", "b-0", true, true⟩, ⟨"b-1", "b-1", true, true⟩] := h.own
  have hsel : f'.hasSelection "b" = true := by
    rw [hasSelection_eq, hown]
    rfl
  have hlinked : ∀ x ∈ ["a", "c"], x ∈ between.rules.filterMap (Rule.rivalOf "b") := by decide
  have hnot : "d" ∉ between.rules.filterMap (Rule.rivalOf "b") := by decide
  exact ⟨f', hset, hown, hsel, fun x hx => h.rivals hsel x (mem_rivals_iff_linked.mp (hlinked x hx)),
    h.others "d" (by decide) fun hboth => hnot (mem_rivals_iff_linked.mpr hboth.2)⟩

end Form

end AnyCase
