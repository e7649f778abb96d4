import AnyCase.Proofs.Consistency

/-!
# `Proofs.RuleOrder` — rules are declarative

Rules are declared in a list, and are evaluated in its order. Neither that order nor how often a rule is listed
makes a difference: two forms that are made of the same groups and the same rules answer every change alike and
have the same groups all the time (`same_trace`). Nothing is assumed of the groups; several may have one id.

What is unselected is found before anything is unselected, so only the order in which groups are unselected is
left. A group that is named is unselected, however often and wherever it is named (`unselect_cons`), so the order
does not matter either (`unselect_congr`).
-/

namespace AnyCase

namespace Form

variable {f f' : Form} {groups : List Group} {rules rules' : List Rule} {ids ids' : List String}

/-! ## Unselecting groups -/

/-- Unselecting named groups, told group by group: the first group is unselected if it is named, and only then
hides its id from the others. -/
theorem unselect_cons (g : Group) (groups : List Group) (rules : List Rule) (ids : List String) :
    (unselect ⟨g :: groups, rules⟩ ids).groups
      = (if g.id ∈ ids then g.setAll false else g)
        :: (unselect ⟨groups, rules⟩ (ids.filter (fun id => id ≠ g.id))).groups := by
  induction ids generalizing g groups with
  | nil => rfl
  | cons id ids ih =>
    by_cases hid : g.id = id
    · -- the first group has this id, and may be named again
      have hstep : unselect ⟨g :: groups, rules⟩ (id :: ids) = unselect ⟨g.setAll false :: groups, rules⟩ ids := by
        simp [unselect, modifyGroup, modifyFirst, hid]
      rw [hstep, ih, Group.setAll_id]
      simp [hid]
    · have hstep : unselect ⟨g :: groups, rules⟩ (id :: ids)
          = unselect ⟨g :: modifyFirst (fun g => g.id = id) (fun g => g.setAll false) groups, rules⟩ ids := by
        simp [unselect, modifyGroup, modifyFirst, hid]
      have hrest : (id :: ids).filter (fun id => id ≠ g.id) = id :: ids.filter (fun id => id ≠ g.id) :=
        List.filter_cons_of_pos (decide_eq_true (Ne.symm hid))
      rw [hstep, ih, hrest]
      simp [hid, unselect, modifyGroup]

/-- **Unselecting groups depends on which ones are named**, not on their order or on how often they are. -/
theorem unselect_congr (h : ∀ x, x ∈ ids ↔ x ∈ ids') :
    (unselect ⟨groups, rules⟩ ids).groups = (unselect ⟨groups, rules'⟩ ids').groups := by
  induction groups generalizing ids ids' with
  | nil =>
    have hnone : ∀ rules ids, (unselect ⟨[], rules⟩ ids).groups = [] := by
      intro rules ids
      have hlength := congrArg List.length (groups_eq_of_blank (blank_unselect ⟨[], rules⟩ ids))
      exact List.eq_nil_of_length_eq_zero (by simpa using hlength)
    rw [hnone, hnone]
  | cons g rest ih =>
    have hrest : ∀ x, x ∈ ids.filter (fun id => id ≠ g.id) ↔ x ∈ ids'.filter (fun id => id ≠ g.id) := by
      intro x
      rw [List.mem_filter, List.mem_filter, h]
    rw [unselect_cons, unselect_cons, ih hrest]
    simp only [h]

/-! ## Forms with the same rules -/

/-- Whether two forms have the same groups, and the same rules but for their order and repetitions. -/
structure Alike (f f' : Form) : Prop where
  groups : f.groups = f'.groups
  rules : ∀ rule, rule ∈ f.rules ↔ rule ∈ f'.rules

namespace Alike

theorem hasSelection (h : Alike f f') : f.hasSelection = f'.hasSelection := by
  funext x
  rw [Form.hasSelection, Form.hasSelection, group?, group?, h.groups]

theorem unselect (h : Alike f f') (hids : ∀ x, x ∈ ids ↔ x ∈ ids') : Alike (f.unselect ids) (f'.unselect ids') where
  groups := by
    obtain ⟨groups, rules⟩ := f
    obtain ⟨groups', rules'⟩ := f'
    obtain rfl : groups = groups' := h.groups
    exact unselect_congr hids
  rules := by
    intro rule
    rw [rules_eq_of_blank (blank_unselect f ids), rules_eq_of_blank (blank_unselect f' ids')]
    exact h.rules rule

theorem aggregate (h : Alike f f') : Alike f.aggregate f'.aggregate where
  groups := congrArg (List.map Group.aggregate) h.groups
  rules := h.rules

theorem enable (h : Alike f f') : Alike f.enable f'.enable where
  groups := by
    have hallows : ∀ id, f.rules.all (Rule.allows f.hasSelection id) = f'.rules.all (Rule.allows f'.hasSelection id) := by
      intro id
      rw [Bool.eq_iff_iff, List.all_eq_true, List.all_eq_true, h.hasSelection]
      simp only [h.rules]
    show f.groups.map _ = f'.groups.map _
    rw [h.groups]
    simp only [hallows]
  rules := h.rules

/-- The same groups lose, and one loses if it is listed at all. -/
theorem settle (h : Alike f f') : Alike f.settle f'.settle := by
  refine (h.unselect fun x => ?_).aggregate.enable
  rw [mem_losers, mem_losers, h.hasSelection]
  simp only [h.rules]

/-- A group has the same rivals, and one is unselected if it is listed at all. -/
theorem reconcile (h : Alike f f') (origin : String) (selected : Bool) :
    Alike (f.reconcile origin selected) (f'.reconcile origin selected) := by
  cases selected with
  | false => exact h.aggregate.enable
  | true =>
    refine (h.unselect fun x => ?_).aggregate.enable
    rw [mem_rivals, mem_rivals, h.rules, h.rules]

end Alike

/-! ## Changes -/

/-- Whether two changes are made with like outcomes, or refused for one reason. -/
inductive AlikeOutcomes : Except Refusal Form → Except Refusal Form → Prop
  | made {f f' : Form} (h : Alike f f') : AlikeOutcomes (.ok f) (.ok f')
  | refused (r : Refusal) : AlikeOutcomes (.error r) (.error r)

namespace Alike

/-- Setting a checkbox looks at the groups only, until the rules are evaluated. -/
theorem set (h : Alike f f') (id : String) (b : Bool) : AlikeOutcomes (f.set id b) (f'.set id b) := by
  have hlocate : f.locate? id = f'.locate? id := congrArg (locateIn id) h.groups
  unfold Form.set
  rw [hlocate]
  cases f'.locate? id with
  | none => exact .refused _
  | some location =>
    obtain ⟨place, g, spot⟩ := location
    have hset : ∀ g' : Group, Alike { f with groups := f.groups.set place g' } { f' with groups := f'.groups.set place g' } :=
      fun g' => ⟨congrArg (List.set · place g') h.groups, h.rules⟩
    cases hon : g.enabled with
    | false =>
      simp only [hon]
      exact .refused _
    | true =>
      simp only [hon]
      cases spot with
      | main => exact .made ((hset _).reconcile _ _)
      | member =>
        cases g.set? id b with
        | error r => exact .refused r
        | ok g' => exact .made ((hset g').reconcile _ _)

theorem toggle (h : Alike f f') (id : String) : AlikeOutcomes (f.toggle id) (f'.toggle id) := by
  have hvalue : f.value? id = f'.value? id := by
    rw [value?, value?, locate?, locate?, h.groups]
  unfold Form.toggle
  rw [hvalue]
  cases f'.value? id with
  | none => exact .refused _
  | some b => exact h.set id !b

theorem setGroup (h : Alike f f') (group : String) (b : Bool) :
    AlikeOutcomes (f.setGroup group b) (f'.setGroup group b) := by
  have hgroup : f.group? group = f'.group? group := by
    rw [group?, group?, h.groups]
  have hmodify : ∀ change : Group → Group, Alike (f.modifyGroup group change) (f'.modifyGroup group change) :=
    fun change => ⟨congrArg (modifyFirst _ change) h.groups, h.rules⟩
  unfold Form.setGroup
  rw [hgroup]
  cases f'.group? group with
  | none => exact .refused _
  | some g => exact .made ((hmodify _).reconcile _ _)

theorem overwrite (h : Alike f f') (id : String) (b : Bool) : Alike (f.overwrite id b) (f'.overwrite id b) := by
  have hlocate : f.locate? id = f'.locate? id := congrArg (locateIn id) h.groups
  unfold Form.overwrite
  rw [hlocate]
  split
  · rename_i place g _
    split
    · rename_i g' _
      exact ⟨congrArg (List.set · place g') h.groups, h.rules⟩
    · exact h
  · exact h

theorem overwriteAll (h : Alike f f') (values : Dict Bool) : Alike (f.overwriteAll values) (f'.overwriteAll values) := by
  refine settle ?_
  generalize values.toList = entries
  induction entries generalizing f f' with
  | nil => exact h
  | cons e rest ih => exact ih (h.overwrite e.1 e.2)

/-- **Every change has like outcomes.** -/
theorem change? (h : Alike f f') (c : Change) : AlikeOutcomes (f.change? c) (f'.change? c) := by
  cases c with
  | toggle id => exact h.toggle id
  | set id b => exact h.set id b
  | setGroup group b => exact h.setGroup group b
  | reconcile origin b => exact .made (h.reconcile origin b)
  | settle => exact .made h.settle
  | overwriteAll values => exact .made (h.overwriteAll values)

end Alike

theorem alike_make (groups : List Group) (h : ∀ rule, rule ∈ rules ↔ rule ∈ rules') :
    Alike (make groups rules) (make groups rules') := by
  refine Alike.settle ⟨rfl, fun rule => ?_⟩
  rw [List.mem_filter, List.mem_filter, h]

/-! ## Any changes -/

/-- What is seen of a form while changes are made: for each change, whether it is made or why it is refused, and
the groups after it. -/
def trace (f : Form) : List Change → List (Except Refusal Unit × List Group)
  | [] => []
  | c :: rest => ((f.change? c).map (fun _ => ()), (f.step c).groups) :: trace (f.step c) rest

theorem Alike.trace (h : Alike f f') (changes : List Change) : f.trace changes = f'.trace changes := by
  induction changes generalizing f f' with
  | nil => rfl
  | cons c rest ih =>
    have hstep : (f.change? c).map (fun _ => ()) = (f'.change? c).map (fun _ => ()) ∧ Alike (f.step c) (f'.step c) := by
      have hc := h.change? c
      unfold Form.step
      cases hf : f.change? c <;> cases hf' : f'.change? c <;> rw [hf, hf'] at hc
      · cases hc
        exact ⟨rfl, h⟩
      · cases hc
      · cases hc
      · cases hc with
        | made h => exact ⟨rfl, h⟩
    rw [Form.trace, Form.trace, hstep.1, hstep.2.groups, ih hstep.2]

/-- **Neither the order of the rules nor their repetition shows.** Two forms of the same groups, whose rules are the
same but for that, have the same groups when they are made; whatever is then set in both, each change is made in
both or refused in both for one reason, and the groups are the same after it. -/
theorem same_trace (groups : List Group) {rules rules' : List Rule} (h : ∀ rule, rule ∈ rules ↔ rule ∈ rules')
    (changes : List Change) :
    (make groups rules).groups = (make groups rules').groups ∧
      (make groups rules).trace changes = (make groups rules').trace changes :=
  ⟨(alike_make groups h).groups, (alike_make groups h).trace changes⟩

/-- Three groups that exclude each other in a circle, one of them twice over, and a second group of one id. The
selection in the first group wins, whichever rule comes first; the disabled group refuses in both forms. -/
theorem same_trace_in_circle :
    let box := fun id => Checkbox.mk id id true false
    let groups := [Group.fixed "a" (some "All") [box "a0"], Group.fixed "b" (some "All") [box "b0"],
      Group.dynamic "c" none [box "c-0"], Group.fixed "b" (some "All") [box "b1"]]
    let rules := [.exclusive "a" "b", .exclusive "b" "c", .exclusive "c" "a", .disabledWhenAny "c" "a"]
    let rules' := [.disabledWhenAny "c" "a", .exclusive "c" "a", .exclusive "a" "b", .exclusive "b" "c",
      .exclusive "c" "a"]
    let changes := [.set "a0" true, .set "c-0" true, .toggle "b1", .setGroup "c" true]
    (∀ rule : Rule, rule ∈ rules ↔ rule ∈ rules') ∧
      ((make groups rules').trace changes).map Prod.fst
        = [.ok (), .error (.disabled "c-0" "c"), .ok (), .ok ()] ∧
      (make groups rules).groups = (make groups rules').groups ∧
      (make groups rules).trace changes = (make groups rules').trace changes := by
  intro box groups rules rules' changes
  have hrules : ∀ rule : Rule, rule ∈ rules ↔ rule ∈ rules' := by
    intro rule
    simp only [rules, rules', List.mem_cons, List.not_mem_nil, or_false]
    tauto
  exact ⟨hrules, by decide, same_trace groups hrules changes⟩

end Form

end AnyCase
