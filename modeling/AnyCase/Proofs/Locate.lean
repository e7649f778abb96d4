import AnyCase.Proofs.Layout
import Mathlib.Data.List.Pairwise

/-!
# `Proofs.Locate` — where a checkbox is

The checkbox of an id is looked for group by group. `locateIn_spec` says what is found: a group in which the
id stands for something. Overwriting a member changes that group at its place and nothing but a value, so
everything that no value has a part in stays (`blank_overwriteAll`).

Where all ids of a form are distinct, an id stands for something in one group at most (`Group.Owns`), and there it
is found (`exists_locate?`).

In the form of a panel the fixed groups come first, so a fixed id stands for what it always does, whatever
the elements of the filters are called (`Fits.locate?_member`).
-/

namespace AnyCase

theorem map_set_of_eq {α β : Type} {h : α → β} {l : List α} {i : Nat} {x y : α} (hx : l[i]? = some x)
    (hy : h y = h x) : (l.set i y).map h = l.map h := by
  obtain ⟨hi, rfl⟩ := List.getElem?_eq_some_iff.mp hx
  rw [List.map_set, hy, ← List.getElem_map h (h := by rwa [List.length_map]), List.set_getElem_self]

namespace Form

variable {f : Form}

/-- What is found is the first group in which the id stands for a checkbox. -/
theorem locateIn_spec {id : String} {groups : List Group} {l : Location}
    (h : locateIn id groups = some l) :
    groups[l.place]? = some l.group ∧ l.group.spot? id = some l.spot := by
  induction groups generalizing l with
  | nil => exact absurd h (by simp [locateIn])
  | cons g rest ih =>
    rw [locateIn] at h
    cases hspot : g.spot? id with
    | some spot =>
      rw [hspot] at h
      obtain rfl := Option.some.inj h
      exact ⟨rfl, hspot⟩
    | none =>
      rw [hspot] at h
      obtain ⟨l₁, hl₁, rfl⟩ := Option.map_eq_some_iff.mp h
      exact ih hl₁

/-- Nothing is found exactly if the id stands for nothing in any group. -/
theorem locateIn_eq_none_iff {id : String} {groups : List Group} :
    locateIn id groups = none ↔ ∀ g ∈ groups, g.spot? id = none := by
  induction groups with
  | nil => simp [locateIn]
  | cons g rest ih =>
    rw [locateIn, List.forall_mem_cons]
    cases hspot : g.spot? id with
    | some spot => simp
    | none => simp [ih]

/-- What is found is behind groups in which the id stands for nothing. -/
theorem exists_front_of_locateIn {id : String} {groups : List Group} {l : Location}
    (h : locateIn id groups = some l) :
    ∃ front back, groups = front ++ l.group :: back ∧ front.length = l.place ∧
      ∀ g ∈ front, g.spot? id = none := by
  induction groups generalizing l with
  | nil => exact absurd h (by simp [locateIn])
  | cons g rest ih =>
    rw [locateIn] at h
    cases hspot : g.spot? id with
    | some spot =>
      rw [hspot] at h
      obtain rfl := Option.some.inj h
      exact ⟨[], rest, rfl, rfl, fun _ hg => absurd hg List.not_mem_nil⟩
    | none =>
      rw [hspot] at h
      obtain ⟨l₁, hl₁, rfl⟩ := Option.map_eq_some_iff.mp h
      obtain ⟨front, back, rfl, hlength, hfront⟩ := ih hl₁
      refine ⟨g :: front, back, rfl, congrArg (· + 1) hlength, ?_⟩
      exact List.forall_mem_cons.mpr ⟨hspot, hfront⟩

/-- Where all groups have main checkboxes, a checkbox is in the first group that has the id or a member with
it. -/
theorem find?_of_locateIn {id : String} {groups : List Group} {l : Location}
    (hmain : ∀ g ∈ groups, g.main.isSome = true) (h : locateIn id groups = some l) :
    groups.find? (fun g => g.id = id || g.contains id) = some l.group := by
  have hspot : (l.group.spot? id) = some l.spot := (locateIn_spec h).2
  obtain ⟨front, back, rfl, -, hfront⟩ := exists_front_of_locateIn h
  -- an id stands for something in a group exactly when the view takes the group for its owner
  have hown : ∀ g ∈ front ++ l.group :: back,
      (decide (g.id = id) || g.contains id) = (g.spot? id).isSome := by
    intro g hg
    unfold Group.spot?
    rw [hmain g hg, Bool.and_true]
    cases decide (g.id = id) <;> cases g.contains id <;> rfl
  have hnone : front.find? (fun g => g.id = id || g.contains id) = none := by
    rw [List.find?_eq_none]
    intro g hg
    rw [hown g (List.mem_append_left _ hg), hfront g hg]
    simp
  have hfound := hown l.group (List.mem_append_right _ List.mem_cons_self)
  rw [List.find?_append, hnone, Option.none_or, List.find?_cons, hfound, hspot]
  rfl

/-- Setting a checkbox sets values only, whatever ids the groups have. -/
theorem blank_of_set {f' : Form} {id : String} {selected : Bool} (h : f.set id selected = .ok f') :
    f'.blank = f.blank := by
  unfold set at h
  split at h
  · exact absurd h (by simp)
  · rename_i place g spot hlocate
    have hplace : f.groups[place]? = some g := (locateIn_spec hlocate).1
    split at h
    · exact absurd h (by simp)
    · have hput : ∀ {g' : Group} {origin : String} {b : Bool}, g'.blank = g.blank →
          (Form.reconcile { f with groups := f.groups.set place g' } origin b).blank = f.blank := by
        intro g' origin b hblank
        rw [blank_reconcile]
        show Form.mk ((f.groups.set place g').map Group.blank) f.rules = f.blank
        rw [map_set_of_eq hplace hblank]
        rfl
      cases spot with
      | main =>
        rw [← Except.ok.inj h]
        exact hput (g.blank_setAll selected)
      | member =>
        obtain ⟨g', hset, h⟩ := bind_eq_ok_iff.mp h
        rw [← Except.ok.inj h]
        exact hput (Group.blank_of_set? hset)

/-- Overwriting sets at most a value. -/
@[simp] theorem blank_overwrite (f : Form) (id : String) (selected : Bool) :
    (f.overwrite id selected).blank = f.blank := by
  unfold overwrite
  split
  · rename_i place g hfound
    split
    · rename_i g' hset
      have hplace : f.groups[place]? = some g := (locateIn_spec hfound).1
      show Form.mk ((f.groups.set place g').map Group.blank) f.rules = f.blank
      rw [map_set_of_eq hplace (Group.blank_of_set? hset)]
      rfl
    · rfl
  · rfl

theorem blank_foldl_overwrite (f : Form) (l : List (String × Bool)) :
    (l.foldl (fun f e => f.overwrite e.1 e.2) f).blank = f.blank := by
  induction l generalizing f with
  | nil => rfl
  | cons e rest ih => exact (ih (f.overwrite e.1 e.2)).trans (blank_overwrite f e.1 e.2)

@[simp] theorem blank_overwriteAll (f : Form) (values : Dict Bool) :
    (f.overwriteAll values).blank = f.blank :=
  (blank_settle _).trans (blank_foldl_overwrite f values.toList)

end Form

/-! ## What an id stands for -/

namespace Group

variable {g : Group} {id : String}

theorem spot?_of_mem (hne : g.id ≠ id) (h : id ∈ g.order) : g.spot? id = some .member := by
  rw [spot?, decide_eq_false hne, Bool.false_and, if_neg Bool.false_ne_true, if_pos (contains_iff.mpr h)]

theorem spot?_of_not_mem (hne : g.id ≠ id) (h : id ∉ g.order) : g.spot? id = none := by
  rw [spot?, decide_eq_false hne, Bool.false_and, if_neg Bool.false_ne_true,
    if_neg fun hc => h (contains_iff.mp hc)]

/-- An id that stands for a member is that of one. -/
theorem contains_of_spot? (h : g.spot? id = some .member) : g.contains id = true := by
  unfold spot? at h
  split at h
  · exact absurd h (by simp)
  · split at h
    · assumption
    · exact absurd h (by simp)

/-- An id that stands for a main checkbox is that of the group. -/
theorem id_of_spot? (h : g.spot? id = some .main) : g.id = id := by
  unfold spot? at h
  split at h
  · rename_i hid
    simp only [Bool.and_eq_true, decide_eq_true_eq] at hid
    exact hid.1
  · split at h
    · exact absurd h (by simp)
    · exact absurd h (by simp)

/-- Whether an id stands for a checkbox of a group: for a member, or for the main checkbox. -/
def Owns (g : Group) (id : String) : Prop := id ∈ g.order ∨ g.id = id ∧ g.main.isSome = true

theorem isSome_spot?_iff : (g.spot? id).isSome = true ↔ g.Owns id := by
  unfold spot? Owns
  rw [← contains_iff]
  split
  · rename_i hmain
    simp only [Bool.and_eq_true, decide_eq_true_eq] at hmain
    exact ⟨fun _ => Or.inr hmain, fun _ => rfl⟩
  · rename_i hmain
    simp only [Bool.and_eq_true, decide_eq_true_eq] at hmain
    split
    · rename_i hcontains
      exact ⟨fun _ => Or.inl hcontains, fun _ => rfl⟩
    · rename_i hcontains
      exact ⟨fun hsome => absurd hsome (by simp), fun howns => absurd howns (not_or.mpr ⟨hcontains, hmain⟩)⟩

theorem spot?_eq_none_iff : g.spot? id = none ↔ ¬g.Owns id := by
  rw [← isSome_spot?_iff, Option.not_isSome_iff_eq_none]

theorem owns_of_spot? {spot : Spot} (h : g.spot? id = some spot) : g.Owns id :=
  isSome_spot?_iff.mp (Option.isSome_of_eq_some h)

end Group

/-! ## Where all ids are distinct -/

namespace Form

section Distinct

variable {f : Form} {g g' : Group} {id : String}

variable (hd : (f.groups.flatMap Group.order ++ f.groups.map (·.id)).Nodup)

include hd

theorem groups_nodup : (f.groups.map (·.id)).Nodup := (List.nodup_append'.mp hd).2.1

theorem order_nodup (hg : g ∈ f.groups) : g.order.Nodup :=
  (List.nodup_flatMap.mp (List.nodup_append'.mp hd).1).1 g hg

/-- No member has the id of a group. -/
theorem id_not_mem_order (hg : g ∈ f.groups) (hg' : g' ∈ f.groups) : g'.id ∉ g.order := fun hmem =>
  (List.nodup_append'.mp hd).2.2 (List.mem_flatMap.mpr ⟨g, hg, hmem⟩) (List.mem_map_of_mem hg')

/-- The id of a member tells its group. -/
theorem eq_of_mem_order (hg : g ∈ f.groups) (hg' : g' ∈ f.groups) (h : id ∈ g.order) (h' : id ∈ g'.order) :
    g = g' := by
  by_contra hne
  have hsymm : Std.Symm (Function.onFun List.Disjoint Group.order) := ⟨fun _ _ h _ hx hx' => h hx' hx⟩
  have hdisjoint := (List.nodup_flatMap.mp (List.nodup_append'.mp hd).1).2
  exact hdisjoint.forall hg hg' hne h h'

/-- So does the id of any checkbox. -/
theorem eq_of_owns (hg : g ∈ f.groups) (hg' : g' ∈ f.groups) (h : g.Owns id) (h' : g'.Owns id) : g = g' := by
  rcases h with hmem | ⟨rfl, -⟩
  · rcases h' with hmem' | ⟨rfl, -⟩
    · exact eq_of_mem_order hd hg hg' hmem hmem'
    · exact absurd hmem (id_not_mem_order hd hg hg')
  · rcases h' with hmem' | ⟨hid, -⟩
    · exact absurd hmem' (id_not_mem_order hd hg' hg)
    · exact List.inj_on_of_nodup_map (groups_nodup hd) hg hg' hid.symm

/-- A checkbox is found in the one group that its id stands for something in. -/
theorem exists_locate? (hg : g ∈ f.groups) {spot : Spot} (h : g.spot? id = some spot) :
    ∃ place, f.locate? id = some ⟨place, g, spot⟩ := by
  cases hlocate : f.locate? id with
  | none => exact absurd (locateIn_eq_none_iff.mp hlocate g hg) (by simp [h])
  | some l =>
    obtain ⟨place, g', spot'⟩ := l
    obtain ⟨hplace, hspot⟩ := locateIn_spec hlocate
    obtain rfl : g = g' :=
      eq_of_owns hd hg (List.mem_of_getElem? hplace) (Group.owns_of_spot? h) (Group.owns_of_spot? hspot)
    obtain rfl : spot = spot' := Option.some.inj (h.symm.trans hspot)
    exact ⟨place, rfl⟩

theorem exists_locate?_of_owns (hg : g ∈ f.groups) (h : g.Owns id) :
    ∃ place spot, f.locate? id = some ⟨place, g, spot⟩ := by
  obtain ⟨spot, hspot⟩ := Option.isSome_iff_exists.mp (Group.isSome_spot?_iff.mpr h)
  obtain ⟨place, hlocate⟩ := exists_locate? hd hg hspot
  exact ⟨place, spot, hlocate⟩

end Distinct

end Form

/-! ## In the form of a panel -/

namespace Layout.Fits

variable {f : Form} {group id : String}

/-- The fixed groups come first. -/
theorem groups_eq (h : Fits f) : ∃ g₁ g₂ rest, f.groups = g₁ :: g₂ :: rest ∧ g₁.id = conventions ∧
    g₂.id = edges := by
  have hids := h.groups_ids
  match hgroups : f.groups with
  | [] => exact absurd (hgroups ▸ hids) (by decide)
  | [g] => exact absurd (congrArg List.length (hgroups ▸ hids)) (by simp [fixedGroups])
  | g₁ :: g₂ :: rest =>
    rw [hgroups] at hids
    obtain ⟨hid₁, hrest⟩ := List.cons.inj hids
    obtain ⟨hid₂, -⟩ := List.cons.inj hrest
    exact ⟨g₁, g₂, rest, rfl, hid₁, hid₂⟩

/-- A fixed id stands for the member of its group. -/
theorem locate?_member (h : Fits f) (hgroup : group ∈ fixedGroups) (hid : id ∈ fixedIds group) :
    ∃ place g, f.locate? id = some ⟨place, g, .member⟩ ∧ f.groups[place]? = some g ∧
      f.group? group = some g := by
  obtain ⟨g₁, g₂, rest, hgroups, hid₁, hid₂⟩ := h.groups_eq
  have hmem₁ : g₁ ∈ f.groups := by simp [hgroups]
  have hmem₂ : g₂ ∈ f.groups := by simp [hgroups]
  have horder : ∀ g ∈ f.groups, g.id ∈ fixedGroups → g.order = fixedIds g.id :=
    fun g hg hfix => h.order_fixed hg ((h.fixed_iff hg).mpr hfix)
  have horder₁ : g₁.order = fixedIds conventions := hid₁ ▸ horder g₁ hmem₁ (hid₁ ▸ by decide)
  have horder₂ : g₂.order = fixedIds edges := hid₂ ▸ horder g₂ hmem₂ (hid₂ ▸ by decide)
  have hplain : ∀ k ∈ fixedGroups, ∀ x ∈ fixedIds k, x ≠ conventions ∧ x ≠ edges := by decide
  have hother : ∀ x ∈ fixedIds edges, x ∉ fixedIds conventions := by decide
  -- no member has the id of a fixed group, so the id does not stand for a main checkbox
  obtain ⟨hne₁, hne₂⟩ := hplain group hgroup id hid
  rw [← hid₁] at hne₁
  rw [← hid₂] at hne₂
  have hcases : group = conventions ∨ group = edges := by simpa [fixedGroups] using hgroup
  rcases hcases with rfl | rfl
  · refine ⟨0, g₁, ?_, ?_, ?_⟩
    · rw [Form.locate?, hgroups, Form.locateIn, Group.spot?_of_mem hne₁.symm (horder₁ ▸ hid)]
    · rw [hgroups]
      rfl
    · rw [← hid₁, Form.group?_of_mem h.groups_nodup hmem₁]
  · refine ⟨1, g₂, ?_, ?_, ?_⟩
    · rw [Form.locate?, hgroups, Form.locateIn,
        Group.spot?_of_not_mem hne₁.symm (horder₁ ▸ hother id hid)]
      rw [Form.locateIn, Group.spot?_of_mem hne₂.symm (horder₂ ▸ hid)]
      rfl
    · rw [hgroups]
      rfl
    · rw [← hid₂, Form.group?_of_mem h.groups_nodup hmem₂]

end Layout.Fits

end AnyCase
