import AnyCase.Proofs.Members

/-!
# `Proofs.Consistency` — a form is consistent whatever is set in it

Values are set in six ways (`Form.Change`): a checkbox is toggled or set, a group is set as a whole, the rules
are evaluated for a group or for all of them, and members are overwritten. Nothing is assumed of the form: its
groups have any members with any values, and its rules are any rules, also of a group with itself.

One change keeps a form consistent and touches nothing but values (`Consistent.change?`); refused changes do
nothing at all. So a form is consistent after any changes (`Consistent.run`), from the moment it is made on,
and `consistent_after_changes` says what that means for main checkboxes, exclusions and enablement.
-/

namespace AnyCase

namespace Form

variable {f f' : Form} {groups : List Group} {id group : String} {b : Bool}

/-! ## Changes of values -/

/-- The ways to set values in a form. -/
inductive Change
  | toggle (id : String)
  | set (id : String) (selected : Bool)
  | setGroup (group : String) (selected : Bool)
  | reconcile (origin : String) (selected : Bool)
  | settle
  | overwriteAll (values : Dict Bool)
  deriving DecidableEq

/-- What a change makes of a form, or why it is refused. -/
def change? (f : Form) : Change → Except Refusal Form
  | .toggle id => f.toggle id
  | .set id selected => f.set id selected
  | .setGroup group selected => f.setGroup group selected
  | .reconcile origin selected => .ok (f.reconcile origin selected)
  | .settle => .ok f.settle
  | .overwriteAll values => .ok (f.overwriteAll values)

/-- The form after a change; one that is refused leaves it as it is. -/
def step (f : Form) (c : Change) : Form :=
  match f.change? c with
  | .ok f' => f'
  | .error _ => f

/-- The form after some changes. -/
def run (f : Form) (changes : List Change) : Form := changes.foldl step f

/-- The rules that name groups of a list only. -/
def keptRules (groups : List Group) (rules : List Rule) : List Rule :=
  rules.filter (fun rule => rule.groups.all (fun id => groups.any (fun g => g.id = id)))

/-! ## One change -/

/-- What setting a group is made of: it is replaced by one that differs in values only. -/
theorem setGroup_spec (h : f.setGroup group b = .ok f') :
    ∃ g, f.group? g.id = some g ∧
      f' = (f.replace (g.setAll b)).reconcile g.id (g.setAll b).hasSelection := by
  unfold setGroup at h
  split at h
  · exact absurd h (by simp)
  · rename_i g hg
    have hid : g.id = group := id_of_group? hg
    subst hid
    refine ⟨g, hg, ?_⟩
    rw [← modifyGroup_eq_replace hg (fun g => g.setAll b) rfl]
    exact (Except.ok.inj h).symm

/-- Setting a group that is found sets values only. -/
theorem blank_reconcile_replace (hd : (f.groups.map (·.id)).Nodup) {g g' : Group}
    (hg : f.group? g.id = some g) (hblank : g'.blank = g.blank) (origin : String) (selected : Bool) :
    ((f.replace g').reconcile origin selected).blank = f.blank :=
  (blank_reconcile _ _ _).trans (blank_replace hd hg hblank)

/-- **A change keeps a form consistent, and sets values only.** -/
theorem Consistent.change? (h : f.Consistent) (hd : (f.groups.map (·.id)).Nodup) {c : Change}
    (hc : f.change? c = .ok f') : f'.Consistent ∧ f'.blank = f.blank := by
  have hset : ∀ {id : String} {b : Bool}, f.set id b = .ok f' → f'.Consistent ∧ f'.blank = f.blank := by
    intro id b hset
    obtain ⟨place, g, spot, g', -, hg, hblank, rfl, -⟩ := set_spec hd hset
    have hid := Group.id_eq_of_blank hblank
    exact ⟨h.replaced hg hid, blank_reconcile_replace hd hg hblank _ _⟩
  cases c with
  | toggle id =>
    obtain ⟨b, hb⟩ := toggle_spec hc
    exact hset hb
  | set id selected => exact hset hc
  | setGroup group selected =>
    obtain ⟨g, hg, rfl⟩ := setGroup_spec hc
    exact ⟨h.replaced hg rfl, blank_reconcile_replace hd hg (g.blank_setAll selected) _ _⟩
  | reconcile origin selected =>
    -- nothing has come into conflict before the rules are evaluated, whichever group is named
    obtain rfl := Except.ok.inj hc
    refine ⟨consistent_reconcile fun a b hrule ha hb => ?_, blank_reconcile f origin selected⟩
    exact absurd ⟨ha, hb⟩ (h.exclusive a b hrule)
  | settle =>
    obtain rfl := Except.ok.inj hc
    exact ⟨consistent_settle f, blank_settle f⟩
  | overwriteAll values =>
    obtain rfl := Except.ok.inj hc
    exact ⟨consistent_settle _, blank_overwriteAll f values⟩

theorem Consistent.step (h : f.Consistent) (hd : (f.groups.map (·.id)).Nodup) (c : Change) :
    (f.step c).Consistent ∧ (f.step c).blank = f.blank := by
  unfold Form.step
  split
  · rename_i f' hc
    exact h.change? hd hc
  · exact ⟨h, rfl⟩

/-! ## Any changes -/

/-- **Any changes keep a form consistent, and set values only.** -/
theorem Consistent.run (h : f.Consistent) (hd : (f.groups.map (·.id)).Nodup) (changes : List Change) :
    (f.run changes).Consistent ∧ (f.run changes).blank = f.blank := by
  induction changes generalizing f with
  | nil => exact ⟨h, rfl⟩
  | cons c rest ih =>
    obtain ⟨hcons, hblank⟩ := h.step hd c
    have hd' : ((f.step c).groups.map (·.id)).Nodup := by
      rw [ids_of_blank hblank]
      exact hd
    obtain ⟨hrun, hrest⟩ := ih hcons hd'
    exact ⟨hrun, hrest.trans hblank⟩

/-- **Whatever is set in a form, it is in order.** The changes set values only: the groups and their members
are those the form was made of, and the rules are those that name such groups. Main checkboxes are selected
exactly when their groups have members and all of them are; no exclusion has a selection on both sides; and
groups are enabled exactly as the rules say. -/
theorem consistent_after_changes {groups : List Group} (hd : (groups.map (·.id)).Nodup) (rules : List Rule)
    (changes : List Change) :
    let f := (make groups rules).run changes
    (f.rules = keptRules groups rules ∧ f.groups.map Group.blank = groups.map Group.blank) ∧
    (∀ g ∈ f.groups, ∀ m, g.main = some m →
      (m.selected = true ↔ g.members ≠ [] ∧ ∀ c ∈ g.members, c.selected = true)) ∧
    (∀ a b, .exclusive a b ∈ f.rules → ¬(f.hasSelection a = true ∧ f.hasSelection b = true)) ∧
    (∀ g ∈ f.groups, g.enabled = true ↔
      (∀ target, .enabledWhenAny g.id target ∈ f.rules → f.hasSelection target = true) ∧
        (∀ target, .disabledWhenAny g.id target ∈ f.rules → f.hasSelection target = false)) := by
  intro f
  have hmake : (make groups rules).blank = blank ⟨groups, keptRules groups rules⟩ := blank_settle _
  have hids : ((make groups rules).groups.map (·.id)).Nodup := by
    rw [ids_of_blank hmake]
    exact hd
  obtain ⟨hcons, hrun⟩ := (consistent_settle ⟨groups, keptRules groups rules⟩).run hids changes
  have hblank : f.blank = blank ⟨groups, keptRules groups rules⟩ := hrun.trans hmake
  refine ⟨⟨rules_eq_of_blank hblank, groups_eq_of_blank hblank⟩, ?_, hcons.exclusive, ?_⟩
  · intro g hg m hm
    exact (hcons.aggregated g hg).main_selected hm
  · intro g hg
    rw [hcons.enabled g hg]
    exact all_allows_iff _ _ _

/-- Three groups in a chain of exclusions, one of which excludes itself, and one that depends on another. The
second group wins over both others, a change of the disabled group is refused, and then all is overwritten. -/
theorem consistent_after_changes_in_chain :
    let box := fun id => Checkbox.mk id id true false
    let groups := [Group.fixed "a" (some "All") [box "a0", box "a1"], Group.fixed "b" (some "All") [box "b0"],
      Group.dynamic "c" none [box "c-0", box "b0"], Group.fixed "d" (some "All") []]
    let rules := [.exclusive "a" "b", .exclusive "b" "c", .exclusive "c" "c", .enabledWhenAny "d" "b",
      .disabledWhenAny "a" "c", .exclusive "a" "nowhere"]
    let f := (make groups rules).run [.toggle "b", .toggle "d", .set "a0" true, .setGroup "c" true]
    (groups.map (·.id)).Nodup ∧ f.rules.length = 5 ∧ f.hasSelection "a" = true ∧
      ∀ a b, .exclusive a b ∈ f.rules → ¬(f.hasSelection a = true ∧ f.hasSelection b = true) := by
  intro box groups rules f
  have hd : (groups.map (·.id)).Nodup := by decide
  exact ⟨hd, by decide, by decide, (consistent_after_changes hd rules _).2.2.1⟩

end Form

end AnyCase
