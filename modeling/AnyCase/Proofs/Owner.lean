import AnyCase.Proofs.Foresight
import Mathlib.Data.List.Find

/-!
# `Proofs.Owner` — what a view tells of a checkbox that was toggled

A view looks an id up twice when a checkbox is toggled. Its form sets the checkbox in the first group in which the
id stands for one (`Form.locate?`). The view takes the first group that has the id or a member with it for the owner
(`View.ownerOf?`), and sends a request about that group.

The two are not the same: the id of a group without a main checkbox stands for nothing in it. So the owner is the
group that was toggled, unless one in front of it has the id (`Form.Toggled.ownerOf?_eq`). `View.toggle_request_iff`
says when the request is that of the group that was toggled. Nothing is assumed of the groups, which may be those of
any message.
-/

namespace AnyCase

/-! ## Keys of values -/

/-- Groups that tell the same values have members of the same ids. -/
theorem Group.mem_order_of_values {g g' : Group} (h : Dict.ofList g.values = Dict.ofList g'.values) (id : String) :
    id ∈ g.order ↔ id ∈ g'.order := by
  rw [← keys_values, ← keys_values, ← Dict.contains_ofList_iff, ← Dict.contains_ofList_iff, h]

/-! ## The group that is toggled -/

namespace Form

variable {f f' : Form} {front : List Group} {g g' : Group} {id : String}

/-- Toggling an id has made `g'` of the group `g`, which is behind the groups `front`. -/
structure Toggled (f : Form) (id : String) (front : List Group) (g : Group) (f' : Form) (g' : Group) : Prop where
  toggled : f.toggle id = .ok f'
  located : ∃ spot, f.locate? id = some ⟨front.length, g, spot⟩
  /-- The id stands for a checkbox of the group, and for none in front of it. -/
  owns : g.Owns id
  unowned : ∀ o ∈ front, ¬o.Owns id
  before : ∃ back, f.groups = front ++ g :: back
  /-- The groups in front may have lost an exclusion, but they are still there. -/
  after : ∃ front' back', f'.groups = front' ++ g' :: back' ∧ front'.map Group.blank = front.map Group.blank
  blank : f'.blank = f.blank
  blank_group : g'.blank = g.blank

/-- **Toggling a checkbox toggles one in the first group in which its id stands for one.** -/
theorem exists_toggled (h : f.toggle id = .ok f') : ∃ front g g', f.Toggled id front g f' g' := by
  obtain ⟨b, hset⟩ := toggle_spec h
  have hblank : f'.blank = f.blank := blank_of_set hset
  cases hlocate : f.locate? id with
  | none =>
    rw [set, hlocate] at hset
    exact absurd hset (by simp)
  | some l =>
    obtain ⟨place, g, spot⟩ := l
    obtain ⟨front, back, hgroups, hlength, hfront⟩ := exists_front_of_locateIn hlocate
    simp only at hgroups hlength
    subst hlength
    -- setting values leaves every group at its place
    have hsame : f'.groups.map Group.blank = front.map Group.blank ++ g.blank :: back.map Group.blank := by
      rw [groups_eq_of_blank hblank, hgroups, List.map_append, List.map_cons]
    obtain ⟨front', rest', hgroups', hfront', hrest'⟩ := List.map_eq_append_iff.mp hsame
    obtain ⟨g', back', rfl, hg', -⟩ := List.map_eq_cons_iff.mp hrest'
    refine ⟨front, g, g', ?_⟩
    constructor
    · exact h
    · exact ⟨spot, hlocate⟩
    · exact Group.owns_of_spot? (locateIn_spec hlocate).2
    · intro o ho
      exact Group.spot?_eq_none_iff.mp (hfront o ho)
    · exact ⟨back, hgroups⟩
    · exact ⟨front', back', hgroups', hfront'⟩
    · exact hblank
    · exact hg'

namespace Toggled

/-- The group that was toggled is found under its id if none in front has that id. -/
theorem group?_eq (h : f.Toggled id front g f' g') (hnone : ∀ o ∈ front, o.id ≠ g.id) :
    f'.group? g.id = some g' := by
  obtain ⟨front', back', hgroups', hfront'⟩ := h.after
  have hnone' : front'.find? (fun o => o.id = g.id) = none := by
    rw [List.find?_eq_none]
    intro o' ho'
    have hmem : o'.blank ∈ front.map Group.blank := hfront' ▸ List.mem_map_of_mem ho'
    obtain ⟨o, ho, heq⟩ := List.mem_map.mp hmem
    have hid : o'.id = o.id := Group.id_eq_of_blank heq.symm
    simpa [hid] using hnone o ho
  have hid' : g'.id = g.id := Group.id_eq_of_blank h.blank_group
  unfold group?
  rw [hgroups', List.find?_append, hnone', Option.none_or, List.find?_cons_of_pos (by simp [hid'])]

/-- What is found in front is found in the form. -/
theorem group?_front (h : f.Toggled id front g f' g') {x : String} {o : Group}
    (hfound : front.find? (fun o => o.id = x) = some o) :
    ∃ o', f'.group? x = some o' ∧ o'.blank = o.blank := by
  apply exists_group?_of_blank h.blank
  obtain ⟨back, hgroups⟩ := h.before
  unfold group?
  rw [hgroups, List.find?_append, hfound, Option.some_or]

/-- **The owner of the id is the group that was toggled, unless one in front of it has the id.** -/
theorem ownerOf?_eq {v : View} (h : v.form.Toggled id front g f' g') :
    v.ownerOf? id = (front.find? (fun o => o.id = id)).or (some g) := by
  obtain ⟨back, hgroups⟩ := h.before
  have hfront : front.find? (fun o => o.id = id || o.contains id) = front.find? (fun o => o.id = id) := by
    apply List.find?_congr
    intro o ho
    -- a group in front has no member with the id
    have hmember : o.contains id = false := by
      rw [← Group.not_mem_order_iff]
      intro hmem
      exact h.unowned o ho (Or.inl hmem)
    rw [hmember, Bool.or_false]
  have hown : (decide (g.id = id) || g.contains id) = true := by
    rcases h.owns with hmem | ⟨hid, -⟩
    · simp [Group.contains_iff.mpr hmem]
    · simp [hid]
  unfold View.ownerOf?
  rw [hgroups, List.find?_append, hfront, List.find?_cons, hown]

end Toggled

end Form

/-! ## The request -/

namespace View

variable {v v' : View} {id : String} {r : Request} {front : List Group} {g g' o : Group}

/-- What is to be told of a group: the values of the members of a dynamic one, and the main form of a fixed one. -/
def requestOf (v : View) (g : Group) : Request :=
  if g.isDynamic then .edit g.id (.set (Dict.ofList g.values)) else .mainInstant v.mainForm

/-- A group in front that has the id of the toggled one, but not the id that was toggled, tells other values: it
has no member of that id. -/
theorem values_ne_of_front (h : v.form.Toggled id front g v'.form g') (ho : o ∈ front) (hid : g.id ≠ id) {o' : Group}
    (hblank : o'.blank = o.blank) : Dict.ofList o'.values ≠ Dict.ofList g'.values := by
  intro heq
  have hmem : id ∈ g.order := by
    rcases h.owns with hmem | ⟨hmain, -⟩
    · exact hmem
    · exact absurd hmain hid
  rw [← Group.order_eq_of_blank h.blank_group, ← Group.mem_order_of_values heq,
    Group.order_eq_of_blank hblank] at hmem
  exact h.unowned o ho (Or.inl hmem)

/-- The group that was toggled is taken for the owner. The values that are told are looked up by its id, so they are
those of the first group of that id. -/
theorem toldOf_toggled_iff (h : v.form.Toggled id front g v'.form g')
    (hnone : front.find? (fun o => o.id = id) = none) :
    v'.toldOf g = v'.requestOf g' ↔ (g.isDynamic = true → ∀ o ∈ front, o.id ≠ g.id) := by
  have hid' : g'.id = g.id := Group.id_eq_of_blank h.blank_group
  have hdyn' : g'.isDynamic = g.isDynamic := Group.isDynamic_of_blank h.blank_group
  unfold toldOf requestOf
  rw [hid', hdyn']
  cases g.isDynamic with
  | false => simp
  | true =>
    simp only [if_true]
    constructor
    · intro heq _ o ho hoid
      have hsome : (front.find? (fun o => o.id = g.id)).isSome = true :=
        List.find?_isSome.mpr ⟨o, ho, decide_eq_true hoid⟩
      obtain ⟨first, hfirst⟩ := Option.isSome_iff_exists.mp hsome
      obtain ⟨first', hfound, hblank⟩ := h.group?_front hfirst
      have hmem : first ∈ front := List.mem_of_find?_eq_some hfirst
      have hne : g.id ≠ id := by
        intro hc
        exact List.find?_eq_none.mp hnone o ho (by simp [hoid, hc])
      rw [hfound] at heq
      obtain ⟨-, hset⟩ := Request.edit.inj heq
      exact values_ne_of_front h hmem hne hblank (Edit.set.inj hset)
    · intro hfirst
      rw [h.group?_eq (hfirst trivial), Option.map_some, Option.getD_some]

/-- A group in front that has the id is taken for the owner. It is told of instead, so this is right only if the two
cannot be told apart. -/
theorem toldOf_front_iff (h : v.form.Toggled id front g v'.form g')
    (hfront : front.find? (fun o => o.id = id) = some o) :
    v'.toldOf o = v'.requestOf g' ↔
      o.isDynamic = g.isDynamic ∧ (g.isDynamic = true → g.id = id ∧
        ∃ o', v'.form.group? id = some o' ∧ Dict.ofList o'.values = Dict.ofList g'.values) := by
  have hid' : g'.id = g.id := Group.id_eq_of_blank h.blank_group
  have hdyn' : g'.isDynamic = g.isDynamic := Group.isDynamic_of_blank h.blank_group
  have hoid : o.id = id := by simpa using List.find?_some hfront
  obtain ⟨o', hfound, -⟩ := h.group?_front hfront
  unfold toldOf requestOf
  rw [hid', hdyn', hoid, hfound, Option.map_some, Option.getD_some]
  cases g.isDynamic with
  | false =>
    cases o.isDynamic with
    | false => simp
    | true => simp
  | true =>
    cases o.isDynamic with
    | false => simp
    | true => simp [eq_comm]

/-- **When the request is that of the group that was toggled.** If no group in front of it has the id, the request is
about the right group; the values that it tells are those of the first group of that name, so the group must be the
first one. If a group in front has the id, that one is taken for the owner. Then the request is right exactly if the
two groups are fixed, or both are dynamic, have the same name and show the same values. -/
theorem toggle_request_iff (h : v.toggle id = .ok (r, v')) :
    ∃ front g g', v.form.Toggled id front g v'.form g' ∧
      (r = v'.requestOf g' ↔
        match front.find? (fun o => o.id = id) with
        | none => g.isDynamic = true → ∀ o ∈ front, o.id ≠ g.id
        | some o => o.isDynamic = g.isDynamic ∧ (g.isDynamic = true → g.id = id ∧
            ∃ o', v'.form.group? id = some o' ∧ Dict.ofList o'.values = Dict.ofList g'.values)) := by
  obtain ⟨owner, howner, htoggle, -, rfl⟩ := toggle_spec h
  obtain ⟨front, g, g', ht⟩ := Form.exists_toggled htoggle
  refine ⟨front, g, g', ht, ?_⟩
  rw [ht.ownerOf?_eq] at howner
  cases hfront : front.find? (fun o => o.id = id) with
  | none =>
    rw [hfront, Option.none_or] at howner
    obtain rfl := Option.some.inj howner
    exact toldOf_toggled_iff ht hfront
  | some o =>
    rw [hfront, Option.some_or] at howner
    obtain rfl := Option.some.inj howner
    exact toldOf_front_iff ht hfront

/-- The main checkbox of a filter is toggled, which unselects a linked group in front of it that has no main checkbox.
The values of both elements are told. -/
theorem toggle_request_behind_linked_group :
    let v := ofState ⟨"", true, [⟨"a", none, true, false, false, [⟨"a0", "A", true, false⟩]⟩,
      ⟨"b", some ⟨"All", false⟩, true, true, false, [⟨"b-0", "*.rs", false, true⟩, ⟨"b-1", "*.ts", false, true⟩]⟩],
      [.exclusive "a" "b"]⟩
    let r := Request.edit "b" (.set (Dict.ofList [("b-0", true), ("b-1", true)]))
    ∃ v', v.toggle "b" = .ok (r, v') ∧ v'.form.hasSelection "a" = false ∧
      ∃ front g g', v.form.Toggled "b" front g v'.form g' ∧ front.map (·.id) = ["a"] ∧ r = v'.requestOf g' := by
  intro v r
  let a : Group := ⟨"a", none, [⟨"a0", "A", false, false⟩], true, none⟩
  let b' : Group :=
    ⟨"b", some ⟨"All", true⟩, [⟨"b-0", "*.rs", true, true⟩, ⟨"b-1", "*.ts", true, true⟩], true, some (.ofNat 2)⟩
  let v' : View := { v with form := ⟨[a, b'], [.exclusive "a" "b"]⟩ }
  have htoggle : v.toggle "b" = .ok (r, v') := by decide +kernel
  refine ⟨v', htoggle, by decide +kernel, ?_⟩
  obtain ⟨front, g, g', ht, hiff⟩ := toggle_request_iff htoggle
  -- the id is that of the second group, so one group is in front
  obtain ⟨spot, hlocated⟩ := ht.located
  obtain ⟨back, hgroups⟩ := ht.before
  have hplace : (v.form.locate? "b").map (·.place) = some 1 := by decide +kernel
  rw [hlocated, Option.map_some] at hplace
  have hlength : front.length = 1 := Option.some.inj hplace
  have hids : front.map (·.id) ++ (g :: back).map (·.id) = ["a"] ++ ["b"] := by
    rw [← List.map_append, ← hgroups]
    decide +kernel
  obtain ⟨hfront, hrest⟩ := List.append_inj hids (by simpa using hlength)
  have hg : g.id = "b" := (List.cons.inj hrest).1
  have hnone : ∀ o ∈ front, o.id ≠ "b" := by
    intro o ho
    have hmem : o.id ∈ ["a"] := hfront ▸ List.mem_map_of_mem ho
    rw [List.mem_singleton.mp hmem]
    decide
  have hfind : front.find? (fun o => o.id = "b") = none := List.find?_eq_none.mpr (by simpa using hnone)
  rw [hfind] at hiff
  exact ⟨front, g, g', ht, hfront, hiff.mpr fun _ => hg ▸ hnone⟩

/-- A group without a main checkbox has the id that is toggled, and the checkbox is in another group behind it, which
is fixed. The element of the first group is told, and nothing of what was toggled. -/
theorem toggle_told_of_group_in_front :
    let v := ofState ⟨"", true, [⟨"a", none, true, true, false, [⟨"a-0", "*.rs", true, true⟩]⟩,
      ⟨"b", none, true, false, false, [⟨"a", "A", false, false⟩]⟩], []⟩
    let r := Request.edit "a" (.set (Dict.ofList [("a-0", true)]))
    ∃ v' front g g', v.toggle "a" = .ok (r, v') ∧ v.form.Toggled "a" front g v'.form g' ∧
      v'.requestOf g' = .mainInstant ⟨"", true, Dict.ofList [("a", true)]⟩ ∧ r ≠ v'.requestOf g' := by
  intro v r
  let a : Group := ⟨"a", none, [⟨"a-0", "*.rs", true, true⟩], true, some (.ofNat 1)⟩
  let b : Group := ⟨"b", none, [⟨"a", "A", false, false⟩], true, none⟩
  let b' : Group := ⟨"b", none, [⟨"a", "A", true, false⟩], true, none⟩
  let v' : View := { v with form := ⟨[a, b'], []⟩ }
  have htoggle : v.toggle "a" = .ok (r, v') := by decide +kernel
  have hform : v.form.toggle "a" = .ok v'.form := by decide +kernel
  refine ⟨v', [a], b, b', htoggle, ?_, by decide +kernel, by decide +kernel⟩
  constructor
  · exact hform
  · exact ⟨.member, by decide +kernel⟩
  · exact Or.inl (by decide)
  · intro o ho
    obtain rfl := List.mem_singleton.mp ho
    rintro (hmem | hmain)
    · exact absurd hmem (by decide)
    · exact absurd hmain.2 (by decide)
  · exact ⟨[], by decide +kernel⟩
  · exact ⟨[a], [], rfl, rfl⟩
  · decide +kernel
  · decide +kernel

end View

end AnyCase
