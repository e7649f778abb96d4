import AnyCase.Proofs.Locate
import AnyCase.Proofs.Store

/-!
# `Proofs.Members` — the members of the groups of a form

Everything in a consistent form follows from the members of its groups (`Fits.unnumbered_eq_of_members`).
So what a change does is told by what it does to them: `membersOf_…` has a lemma for each phase of the
evaluation of the rules and for replacing a group. Setting a checkbox is such a replacement (`set_spec`).
-/

namespace AnyCase

open Layout

/-- Where keys are distinct, replacing the first element with a key is replacing it at its place. -/
theorem modifyFirst_eq_set {α : Type} {k : α → String} {a : String} {l : List α} {i : Nat} {x : α}
    (h : (l.map k).Nodup) (hx : l[i]? = some x) (hk : k x = a) (y : α) :
    modifyFirst (fun x => k x = a) (fun _ => y) l = l.set i y := by
  induction l generalizing i with
  | nil => exact absurd hx (by simp)
  | cons z rest ih =>
    obtain ⟨hz, hrest⟩ := List.nodup_cons.mp h
    cases i with
    | zero =>
      obtain rfl : z = x := Option.some.inj hx
      rw [modifyFirst, if_pos (decide_eq_true hk), List.set_cons_zero]
    | succ j =>
      rw [List.getElem?_cons_succ] at hx
      have hmem : k x ∈ rest.map k := List.mem_map_of_mem (List.mem_of_getElem? hx)
      have hne : k z ≠ a := fun hc => hz (by rwa [hc, ← hk])
      rw [modifyFirst, if_neg (by simpa using hne), List.set_cons_succ, ih hrest hx]

/-! ## Given values -/

namespace Checkbox

/-- A checkbox with the value that a list gives for it, if it gives one. -/
def assign (values : List (String × Bool)) (c : Checkbox) : Checkbox :=
  { c with selected := (Dict.find? c.id values).getD c.selected }

/-- Where every key is listed once, a value can be set before those that follow. -/
theorem assign_cons {id : String} {b : Bool} {rest : List (String × Bool)} (h : id ∉ rest.map (·.1))
    (c : Checkbox) :
    assign rest (if c.id = id then { c with selected := b } else c) = assign ((id, b) :: rest) c := by
  unfold assign
  rw [Dict.find?]
  by_cases hc : c.id = id
  · have hnone : Dict.find? id rest = none := by
      cases hfind : Dict.find? id rest with
      | none => rfl
      | some v => exact absurd (List.mem_map_of_mem (Dict.mem_of_find? hfind)) h
    simp [hc, hnone]
  · simp [hc]

/-- Checkboxes become those whose values are listed, if they differ in values only. -/
theorem map_assign_eq {values : List (String × Bool)} {members members' : List Checkbox}
    (hcleared : members'.map cleared = members.map cleared)
    (hlisted : ∀ c ∈ members', Dict.find? c.id values = some c.selected) :
    members.map (assign values) = members' := by
  -- a value that is listed makes no difference before it is given
  have hassign : ∀ c d : Checkbox, d.cleared = c.cleared → Dict.find? d.id values = some d.selected →
      assign values c = d := by
    intro c d heq hd
    obtain ⟨hid, hlabel, -, heditable⟩ := Checkbox.mk.inj heq
    unfold assign
    rw [← hid, hd, ← hlabel, ← heditable]
    rfl
  have heq : members.map (assign values) = members'.map fun d => d :=
    map_eq_of_map_eq hcleared.symm fun c _ d hd heq => hassign c d heq.symm (hlisted d hd)
  rwa [List.map_id'] at heq

end Checkbox

/-! ## The members of a group -/

namespace Form

variable {f f' : Form} {group x id : String} {g g' : Group} {b : Bool}

/-- The members of the group of an id; none if there is no such group. -/
def membersOf (f : Form) (x : String) : List Checkbox := ((f.group? x).map (·.members)).getD []

theorem membersOf_of_group? (h : f.group? x = some g) : f.membersOf x = g.members := by
  rw [membersOf, h]
  rfl

theorem membersOf_of_mem (hd : (f.groups.map (·.id)).Nodup) (hg : g ∈ f.groups) :
    f.membersOf g.id = g.members :=
  membersOf_of_group? (group?_of_mem hd hg)

/-- The ids of the members of the group of an id, in order; none if there is no such group. -/
def orderOf (f : Form) (x : String) : List String := (f.membersOf x).map (·.id)

theorem orderOf_of_mem (hd : (f.groups.map (·.id)).Nodup) (hg : g ∈ f.groups) : f.orderOf g.id = g.order := by
  rw [orderOf, membersOf_of_mem hd hg]
  rfl

theorem mem_membersOf {c : Checkbox} (h : c ∈ f.membersOf x) : ∃ g ∈ f.groups, g.id = x ∧ c ∈ g.members := by
  unfold membersOf at h
  cases hg : f.group? x with
  | none =>
    rw [hg] at h
    exact absurd h List.not_mem_nil
  | some g =>
    rw [hg] at h
    exact ⟨g, mem_of_group? hg, id_of_group? hg, h⟩

theorem hasSelection_eq (f : Form) (x : String) : f.hasSelection x = (f.membersOf x).any (·.selected) := by
  rw [hasSelection, membersOf]
  cases f.group? x <;> rfl

theorem values_of_group? (f : Form) (x : String) :
    ((f.group? x).map Group.values).getD [] = (f.membersOf x).map fun c => (c.id, c.selected) := by
  rw [membersOf]
  cases f.group? x <;> rfl

/-- A change of every group that keeps the members keeps them. -/
theorem membersOf_congr {change : Group → Group} (h : f'.group? x = (f.group? x).map change)
    (hc : ∀ g, (change g).members = g.members) : f'.membersOf x = f.membersOf x := by
  rw [membersOf, membersOf, h]
  cases f.group? x with
  | none => rfl
  | some g => exact hc g

@[simp] theorem membersOf_aggregate (f : Form) (x : String) : f.aggregate.membersOf x = f.membersOf x :=
  membersOf_congr (group?_aggregate f x) fun _ => rfl

@[simp] theorem membersOf_enable (f : Form) (x : String) : f.enable.membersOf x = f.membersOf x :=
  membersOf_congr (group?_enable f x) fun _ => rfl

@[simp] theorem membersOf_unnumbered (f : Form) (x : String) : f.unnumbered.membersOf x = f.membersOf x :=
  membersOf_congr (group?_map Group.unnumbered (fun _ => rfl) f.rules f.groups x) fun _ => rfl

theorem membersOf_unselect (f : Form) (ids : List String) (x : String) :
    (f.unselect ids).membersOf x
      = if x ∈ ids then (f.membersOf x).map Checkbox.cleared else f.membersOf x := by
  rw [membersOf, group?_unselect, membersOf]
  cases f.group? x with
  | none => simp
  | some g =>
    by_cases hx : x ∈ ids
    · simp [hx, Checkbox.cleared]
    · simp [hx]

theorem membersOf_settle (f : Form) (x : String) :
    f.settle.membersOf x
      = if x ∈ f.losers then (f.membersOf x).map Checkbox.cleared else f.membersOf x := by
  rw [settle, membersOf_enable, membersOf_aggregate, membersOf_unselect]

theorem membersOf_reconcile (f : Form) (origin : String) (selected : Bool) (x : String) :
    (f.reconcile origin selected).membersOf x
      = if selected = true ∧ x ∈ f.rules.filterMap (Rule.rivalOf origin)
        then (f.membersOf x).map Checkbox.cleared else f.membersOf x := by
  rw [reconcile, membersOf_enable, membersOf_aggregate]
  cases selected with
  | true => simp [membersOf_unselect]
  | false => simp

theorem membersOf_replace (hg : f.group? group = some g) (hid : g'.id = group) (x : String) :
    (f.replace g').membersOf x = if x = group then g'.members else f.membersOf x := by
  rw [membersOf, group?_replace hg hid]
  split
  · rfl
  · rfl

/-- Clearing members of which none is selected does nothing. -/
theorem map_cleared_eq_self {members : List Checkbox} (h : members.any (·.selected) = false) :
    members.map Checkbox.cleared = members := by
  refine (List.map_congr_left fun c hc => ?_).trans (List.map_id _)
  rw [List.any_eq_false] at h
  exact Checkbox.cleared_eq_self (Bool.eq_false_iff.mpr (h c hc))

/-- A group put in the place of another one of its id. -/
theorem set_eq_replace (hd : (f.groups.map (·.id)).Nodup) {place : Nat}
    (hplace : f.groups[place]? = some g) (hid : g'.id = g.id) :
    { f with groups := f.groups.set place g' } = f.replace g' := by
  rw [replace, modifyGroup, modifyFirst_eq_set hd hplace hid.symm]

/-- Setting a member that is in no group of a list does nothing to the list. -/
theorem map_set_of_not_mem {members : List Checkbox} (h : id ∉ members.map (·.id)) :
    members.map (fun c => if c.id = id then { c with selected := b } else c) = members := by
  refine (List.map_congr_left fun c hc => ?_).trans (List.map_id _)
  have hne : c.id ≠ id := fun heq => h (heq ▸ List.mem_map_of_mem hc)
  exact if_neg hne

/-- Overwriting a member sets it in its group, and nothing in the others. -/
theorem membersOf_overwrite_of_locate? (hd : (f.groups.map (·.id)).Nodup) {place : Nat}
    (hlocate : f.locate? id = some ⟨place, g, .member⟩) (hdistinct : g.order.Nodup) (b : Bool) (x : String) :
    (f.overwrite id b).membersOf x = if x = g.id
      then (f.membersOf x).map (fun c => if c.id = id then { c with selected := b } else c)
      else f.membersOf x := by
  obtain ⟨hplace, hspot⟩ := locateIn_spec hlocate
  have hfound : f.group? g.id = some g := group?_of_mem hd (List.mem_of_getElem? hplace)
  let g' := (g.modifyMember id (fun c => { c with selected := b })).aggregate
  have hset : g.set? id b = .ok g' := Group.set?_eq_ok_iff.mpr ⟨Group.contains_of_spot? hspot, rfl⟩
  have hoverwrite : f.overwrite id b = f.replace g' := by
    simp only [overwrite, hlocate, hset]
    exact set_eq_replace hd hplace rfl
  have hid' : g'.id = g.id := rfl
  rw [hoverwrite, membersOf_replace hfound hid']
  split
  · rename_i hx
    rw [hx, membersOf_of_group? hfound]
    exact modifyFirst_eq_map hdistinct
  · rfl

/-- A checkbox of an enabled group is set by replacing the group by one that differs in values only: in those of all
members, or in that of one. -/
theorem set_of_locate? (hd : (f.groups.map (·.id)).Nodup) {place : Nat} {spot : Spot}
    (hlocate : f.locate? id = some ⟨place, g, spot⟩) (hon : g.enabled = true) (b : Bool) :
    ∃ g', g'.blank = g.blank ∧ g'.enabled = true ∧ g'.Aggregated ∧
      g'.members = (if spot = .main then g.members.map fun c => { c with selected := b }
        else modifyFirst (fun c => c.id = id) (fun c => { c with selected := b }) g.members) ∧
      f.set id b = .ok ((f.replace g').reconcile g.id g'.hasSelection) := by
  have hplace : f.groups[place]? = some g := (locateIn_spec hlocate).1
  have hspot : g.spot? id = some spot := (locateIn_spec hlocate).2
  unfold set
  rw [hlocate]
  cases spot with
  | main =>
    refine ⟨g.setAll b, g.blank_setAll b, hon, Group.aggregated_aggregate _, rfl, ?_⟩
    rw [← set_eq_replace hd hplace (g.setAll_id b)]
    simp only [hon, Bool.not_true, Bool.false_eq_true, if_false]
    rfl
  | member =>
    let g' := (g.modifyMember id fun c => { c with selected := b }).aggregate
    have hset : g.set? id b = .ok g' := Group.set?_eq_ok_iff.mpr ⟨Group.contains_of_spot? hspot, rfl⟩
    have hid : g'.id = g.id := rfl
    refine ⟨g', Group.blank_of_set? hset, hon, Group.aggregated_aggregate _, rfl, ?_⟩
    rw [← set_eq_replace hd hplace hid]
    simp only [hon, Bool.not_true, Bool.false_eq_true, if_false, hset]
    rfl

/-- What setting a checkbox is made of: its group is enabled, and is replaced by one that differs in values
only. -/
theorem set_spec (hd : (f.groups.map (·.id)).Nodup) (h : f.set id b = .ok f') :
    ∃ place g spot g', f.locate? id = some ⟨place, g, spot⟩ ∧ f.group? g.id = some g ∧
      g'.blank = g.blank ∧ f' = (f.replace g').reconcile g.id g'.hasSelection ∧
      g.enabled = true ∧ g'.enabled = true ∧ g'.Aggregated := by
  cases hlocate : f.locate? id with
  | none =>
    rw [set, hlocate] at h
    exact absurd h (by simp)
  | some l =>
    obtain ⟨place, g, spot⟩ := l
    have hfound : f.group? g.id = some g := group?_of_mem hd (List.mem_of_getElem? (locateIn_spec hlocate).1)
    cases hon : g.enabled with
    | false =>
      rw [set, hlocate] at h
      simp [hon] at h
    | true =>
      obtain ⟨g', hblank, hon', hagg, -, hset⟩ := set_of_locate? hd hlocate hon b
      exact ⟨place, g, spot, g', rfl, hfound, hblank, Except.ok.inj (h.symm.trans hset), hon, hon', hagg⟩

/-- Toggling a checkbox is setting it. -/
theorem toggle_spec (h : f.toggle id = .ok f') : ∃ b, f.set id b = .ok f' := by
  unfold toggle at h
  split at h
  · exact absurd h (by simp)
  · exact ⟨_, h⟩

/-- Replacing a group by one that differs in values only. -/
theorem blank_replace (hd : (f.groups.map (·.id)).Nodup) (hg : f.group? g.id = some g)
    (hblank : g'.blank = g.blank) : (f.replace g').blank = f.blank := by
  show Form.mk ((modifyFirst _ _ f.groups).map Group.blank) f.rules = f.blank
  rw [modifyFirst_eq_map hd, List.map_map]
  congr 1
  refine List.map_congr_left fun h hh => ?_
  have hid := Group.id_eq_of_blank hblank
  by_cases heq : h.id = g'.id
  · have hfound := group?_of_mem hd hh
    rw [heq, hid, hg] at hfound
    rw [Function.comp_apply, if_pos heq, hblank, Option.some.inj hfound]
  · rw [Function.comp_apply, if_neg heq]

/-- **Setting a group keeps a form consistent**: the group wins its exclusions, and no other one has come into
conflict. -/
theorem Consistent.replaced (h : f.Consistent) (hg : f.group? g.id = some g) (hid : g'.id = g.id) :
    ((f.replace g').reconcile g.id g'.hasSelection).Consistent := by
  refine consistent_reconcile fun a b hrule ha hb => ?_
  rw [hasSelection_replace hg hid] at ha hb
  by_cases hag : a = g.id
  · rw [if_pos hag] at ha
    exact ⟨ha, Or.inl hag⟩
  · by_cases hbg : b = g.id
    · rw [if_pos hbg] at hb
      exact ⟨hb, Or.inr hbg⟩
    · rw [if_neg hag] at ha
      rw [if_neg hbg] at hb
      exact absurd ⟨ha, hb⟩ (h.exclusive a b hrule)

end Form

/-! ## What members determine -/

namespace Layout

variable {f f' : Form}

theorem Fits.of_unnumbered (h : Fits f) (heq : f'.unnumbered = f.unnumbered) : Fits f' := by
  have houtline : ∀ g : Group, g.unnumbered.outline = g.outline := by
    intro g
    obtain ⟨id, main, members, enabled, numbering⟩ := g
    cases numbering <;> rfl
  have hgroups : f'.groups.map Group.unnumbered = f.groups.map Group.unnumbered := (Form.mk.inj heq).1
  constructor
  · have houtlines := congrArg (List.map Group.outline) hgroups
    simp only [List.map_map, Function.comp_def, houtline] at houtlines
    exact houtlines.trans h.outlines
  · intro g' hg' hfix
    have hmem : g'.unnumbered ∈ f.groups.map Group.unnumbered := hgroups ▸ List.mem_map_of_mem hg'
    obtain ⟨g, hg, heq⟩ := List.mem_map.mp hmem
    have hmembers : g.unnumbered.members = g'.unnumbered.members := by rw [heq]
    have hout : g.outline = g'.outline := by rw [← houtline g, ← houtline g', heq]
    have hid := Group.id_eq_of_outline hout
    have hdyn := Group.isDynamic_eq_of_outline hout
    have hfixed := h.fixed g hg (hdyn.trans hfix)
    rw [← hid, ← hfixed]
    exact congrArg (List.map Checkbox.cleared) hmembers.symm

/-- **In a consistent form of a panel everything follows from the members**, but for the numbers that are
free. -/
theorem Fits.unnumbered_eq_of_members (h : Fits f) (h' : Fits f') (hcons : f.Consistent)
    (hcons' : f'.Consistent) (hrules : f.rules = f'.rules)
    (hmembers : ∀ x ∈ fixedGroups ++ filterGroups, f.membersOf x = f'.membersOf x) :
    f.unnumbered = f'.unnumbered := by
  apply hcons.unnumbered_eq hcons'
  show Form.mk _ _ = Form.mk _ _
  rw [Form.unnumbered, Form.unnumbered, List.map_map, List.map_map, hrules]
  congr 1
  -- the groups correspond by their outlines, in the same order
  refine map_eq_of_map_eq (h.outlines.trans h'.outlines.symm) fun g hg g' hg' houtline => ?_
  apply Group.unnumbered_bare_eq houtline
  have hid := Group.id_eq_of_outline houtline
  have hknown : g.id ∈ fixedGroups ++ filterGroups := h.groups_ids ▸ List.mem_map_of_mem hg
  have heq := hmembers g.id hknown
  rw [Form.membersOf_of_mem h.groups_nodup hg, hid, Form.membersOf_of_mem h'.groups_nodup hg'] at heq
  exact heq

end Layout

end AnyCase
