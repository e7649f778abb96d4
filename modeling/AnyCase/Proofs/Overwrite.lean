import AnyCase.Proofs.Members
import AnyCase.View

/-!
# `Proofs.Overwrite` — the values of a main form

A main form has the values of all members of the fixed groups of a view. Overwriting a form of the same
panel with them gives its fixed groups the members they have in the view, and leaves the filters alone
(`membersOf_overwrites`), before the rules are evaluated.
-/

namespace AnyCase

open Layout

namespace Form

variable {f f' : Form} {k id x : String} {b : Bool}

/-- The members of a fixed group are those it always has, but for their values. -/
theorem cleared_membersOf (h : Fits f) (hk : k ∈ fixedGroups) :
    (f.membersOf k).map Checkbox.cleared = fixedMembers k := by
  obtain ⟨g, hg, rfl⟩ := h.exists_group (List.mem_append_left _ hk)
  rw [membersOf_of_mem h.groups_nodup hg]
  exact h.fixed g hg ((h.fixed_iff hg).mpr hk)

theorem ids_membersOf (h : Fits f) (hk : k ∈ fixedGroups) : (f.membersOf k).map (·.id) = fixedIds k := by
  rw [fixedIds, ← cleared_membersOf h hk, List.map_map]
  rfl

/-- Overwriting a fixed member sets it, in its group only. -/
theorem membersOf_overwrite (h : Fits f) (hk : k ∈ fixedGroups) (hid : id ∈ fixedIds k) (b : Bool)
    (x : String) :
    (f.overwrite id b).membersOf x = if x ∈ fixedGroups
      then (f.membersOf x).map (fun c => if c.id = id then { c with selected := b } else c)
      else f.membersOf x := by
  obtain ⟨place, g, hlocate, hplace, hfound⟩ := h.locate?_member hk hid
  have hgid : g.id = k := id_of_group? hfound
  have horder : g.order = fixedIds k := by
    rw [← ids_membersOf h hk, membersOf_of_group? hfound]
    rfl
  have hdistinct : g.order.Nodup := by
    have hall : ∀ k ∈ fixedGroups, (fixedIds k).Nodup := by decide
    rw [horder]
    exact hall k hk
  rw [membersOf_overwrite_of_locate? h.groups_nodup hlocate hdistinct, hgid]
  by_cases hx : x ∈ fixedGroups
  · rw [if_pos hx]
    by_cases hxk : x = k
    · rw [if_pos hxk]
    · rw [if_neg hxk]
      -- the id belongs to the other fixed group
      refine (map_set_of_not_mem fun hmem => ?_).symm
      rw [ids_membersOf h hx] at hmem
      exact hxk (fixedIds_disjoint x hx k hk id hmem hid)
  · have hxk : x ≠ k := fun heq => hx (heq ▸ hk)
    rw [if_neg hx, if_neg hxk]

/-- **Overwriting fixed members sets each of them as it is listed**, and leaves the filters alone. -/
theorem membersOf_overwrites (h : Fits f) {l : List (String × Bool)}
    (hl : ∀ e ∈ l, ∃ k ∈ fixedGroups, e.1 ∈ fixedIds k) (hd : (l.map (·.1)).Nodup) (x : String) :
    (l.foldl (fun f e => f.overwrite e.1 e.2) f).membersOf x
      = if x ∈ fixedGroups then (f.membersOf x).map (Checkbox.assign l) else f.membersOf x := by
  induction l generalizing f with
  | nil =>
    show f.membersOf x = _
    split
    · exact (List.map_id _).symm
    · rfl
  | cons e rest ih =>
    obtain ⟨id, b⟩ := e
    obtain ⟨k, hk, hid⟩ := hl (id, b) List.mem_cons_self
    rw [List.map_cons, List.nodup_cons] at hd
    have hfits : Fits (f.overwrite id b) := h.of_blank (blank_overwrite f id b)
    rw [List.foldl_cons, ih hfits (fun e he => hl e (List.mem_cons_of_mem _ he)) hd.2,
      membersOf_overwrite h hk hid]
    by_cases hx : x ∈ fixedGroups
    · rw [if_pos hx, if_pos hx, if_pos hx, List.map_map]
      exact List.map_congr_left fun c _ => Checkbox.assign_cons hd.1 c
    · rw [if_neg hx, if_neg hx, if_neg hx]

end Form

namespace View

variable {v : View} {f : Form}

/-- The fixed groups of a form of a panel. -/
theorem map_id_fixed (h : Fits f) : (f.groups.filter (!·.isDynamic)).map (·.id) = fixedGroups := by
  have hfilter := congrArg (fun l => (l.filter (fun o => !o.2.2)).map Prod.fst) h.outlines
  simp only [List.filter_map, List.map_map] at hfilter
  exact hfilter

/-- The keys of the values in a main form. -/
theorem keys_values_fixed (h : Fits f) :
    ((f.groups.filter (!·.isDynamic)).flatMap Group.values).map (·.1) = fixedGroups.flatMap fixedIds := by
  rw [List.map_flatMap, ← map_id_fixed h, List.flatMap_map]
  refine List.flatMap_congr fun g hg => ?_
  obtain ⟨hmem, hfix⟩ := List.mem_filter.mp hg
  rw [← h.order_fixed hmem (by simpa using hfix), Group.values, List.map_map]
  rfl

/-- A main form has only values of fixed members. -/
theorem key_mainForm (h : Fits v.form) :
    ∀ e ∈ v.mainForm.checks.toList, ∃ k ∈ fixedGroups, e.1 ∈ fixedIds k := by
  intro e he
  have hmem := Dict.mem_of_get?_ofList (Dict.get?_of_mem_toList he)
  have hkey : e.1 ∈ fixedGroups.flatMap fixedIds := keys_values_fixed h ▸ List.mem_map_of_mem hmem
  exact List.mem_flatMap.mp hkey

/-- A main form has the values of all fixed members. -/
theorem get?_mainForm (h : Fits v.form) {k : String} (hk : k ∈ fixedGroups) {c : Checkbox}
    (hc : c ∈ v.form.membersOf k) : v.mainForm.checks.get? c.id = some c.selected := by
  obtain ⟨g, hg, rfl⟩ := h.exists_group (List.mem_append_left _ hk)
  rw [Form.membersOf_of_mem h.groups_nodup hg] at hc
  have hfix := (h.fixed_iff hg).mpr hk
  refine Dict.get?_ofList_of_mem ?_ (List.mem_flatMap.mpr ⟨g, List.mem_filter.mpr ⟨hg, by simp [hfix]⟩, ?_⟩)
  · rw [keys_values_fixed h]
    decide
  · exact List.mem_map.mpr ⟨c, hc, rfl⟩

/-- **Overwriting a form with a main form** gives the fixed groups the members they have in the view. -/
theorem membersOf_mainForm (hf : Fits f) (hv : Fits v.form) (x : String) :
    (v.mainForm.checks.toList.foldl (fun f e => f.overwrite e.1 e.2) f).membersOf x
      = if x ∈ fixedGroups then v.form.membersOf x else f.membersOf x := by
  rw [Form.membersOf_overwrites hf (key_mainForm hv) (Dict.keys_nodup _)]
  by_cases hx : x ∈ fixedGroups
  · rw [if_pos hx, if_pos hx]
    -- both have the same fixed members, and each of them is listed
    apply Checkbox.map_assign_eq
    · rw [Form.cleared_membersOf hf hx, Form.cleared_membersOf hv hx]
    · exact fun c hc => get?_mainForm hv hx hc
  · rw [if_neg hx, if_neg hx]

end View

end AnyCase
