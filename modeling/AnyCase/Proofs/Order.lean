import AnyCase.Proofs.InPlace
import AnyCase.Proofs.Occurrences

/-!
# `Proofs.Order` — the order of the elements of a group

Reordering takes the members with the listed ids out of a group one by one, and looks for each in what is left. An id
that is listed again is not there any more, so what is drawn are the listed ids where they come first, and the others
follow as they stood (`Group.map_id_drawFirst`). All that is said of the order of a group follows from this, if its
members have distinct ids: the members are the same, so the order of the ids is that of the members.

Moving one element is reordering with all members listed, of which one has another place (`View.moveTo`). The list
that is sent has the same effect in any group with these members, whatever order they have in it.

## Contents

* `Group.Reordered` — the outcome of reordering a group;
* `Group.reorder_listed_first` — when a group is reordered, and how;
* `View.move_arranges` — moving an element, in the view and in a panel that gets the request.
-/

namespace AnyCase

/-! ## Lists without repetitions -/

section Lists

variable {α : Type} [BEq α] [LawfulBEq α] {l : List α} {x : α}

/-- A new element is taken out where it was put in. -/
theorem erase_insertIdx {n : Nat} (hn : n ≤ l.length) (hx : x ∉ l) : (l.insertIdx n x).erase x = l := by
  induction l generalizing n with
  | nil =>
    obtain rfl : n = 0 := Nat.le_zero.mp hn
    exact List.erase_cons_head x []
  | cons y rest ih =>
    obtain ⟨hne, hrest⟩ := List.ne_and_not_mem_of_not_mem_cons hx
    cases n with
    | zero => exact List.erase_cons_head x _
    | succ n =>
      rw [List.insertIdx_succ_cons, List.erase_cons_tail (by simpa using Ne.symm hne),
        ih (Nat.le_of_succ_le_succ hn) hrest]

end Lists

/-! ## Drawing members to the front -/

namespace Group

variable {g g' : Group} {id : String} {ids order : List String} {members members' : List Checkbox}

/-- **What is drawn comes in the order of the list, each id where it comes first; what is left keeps its order.** -/
theorem map_id_drawFirst (ids : List String) {rest : List Checkbox} (hd : (rest.map (·.id)).Nodup) :
    (drawFirst ids rest).map (·.id)
      = (ids.filter (· ∈ rest.map (·.id))).eraseDups ++ (rest.map (·.id)).filter (· ∉ ids) := by
  induction ids generalizing rest with
  | nil => simp [drawFirst]
  | cons id ids ih =>
    unfold drawFirst
    cases hfind : rest.find? (fun c => c.id = id) with
    | none =>
      have hnot : id ∉ rest.map (·.id) := by
        intro hmem
        obtain ⟨c, hc, hid⟩ := List.mem_map.mp hmem
        exact List.find?_eq_none.mp hfind c hc (decide_eq_true hid)
      have hrest : (rest.map (·.id)).filter (· ∉ id :: ids) = (rest.map (·.id)).filter (· ∉ ids) := by
        refine List.filter_congr fun x hx => ?_
        have hne : x ≠ id := fun heq => hnot (heq ▸ hx)
        simp [hne]
      rw [List.filter_cons_of_neg (by simpa using hnot), hrest]
      exact ih hd
    | some c =>
      have hid : c.id = id := by simpa using List.find?_some hfind
      have hmem : id ∈ rest.map (·.id) := hid ▸ List.mem_map_of_mem (List.mem_of_find?_eq_some hfind)
      -- what is left has the same ids but for this one, so a repetition of it is not found
      have hleft : (rest.eraseP (fun c => c.id = id)).map (·.id) = (rest.map (·.id)).filter (· != id) := by
        rw [Panel.order_eraseP, hd.erase_eq_filter]
      have hlisted : ids.filter (· ∈ (rest.map (·.id)).filter (· != id))
          = (ids.filter (· ∈ rest.map (·.id))).filter (fun x => !x == id) := by
        rw [List.filter_filter]
        refine List.filter_congr fun x _ => ?_
        rw [Bool.eq_iff_iff, decide_eq_true_iff, List.mem_filter]
        simp [and_comm]
      have hrest : ((rest.map (·.id)).filter (· != id)).filter (· ∉ ids)
          = (rest.map (·.id)).filter (· ∉ id :: ids) := by
        rw [List.filter_filter]
        refine List.filter_congr fun x _ => ?_
        by_cases hx : x = id
        · simp [hx]
        · simp [hx]
      rw [List.map_cons, hid, ih (hleft ▸ hd.filter _), hleft, hlisted, hrest,
        List.filter_cons_of_pos (by simpa using hmem), List.eraseDups_cons, List.cons_append]

/-- Where all listed ids are known, they stand in front, and the others follow as they stood. -/
theorem map_id_drawFirst_of_known (hd : (members.map (·.id)).Nodup) (hknown : ∀ id ∈ ids, id ∈ members.map (·.id)) :
    (drawFirst ids members).map (·.id) = ids.eraseDups ++ (members.map (·.id)).filter (· ∉ ids) := by
  have hlisted : ids.filter (· ∈ members.map (·.id)) = ids := by
    rw [List.filter_eq_self]
    intro id hid
    exact decide_eq_true (hknown id hid)
  rw [map_id_drawFirst ids hd, hlisted]

/-- Members that were only moved stand where they stood if their ids do. -/
theorem eq_of_perm_of_ids (hperm : members'.Perm members) (hd : (members.map (·.id)).Nodup)
    (hids : members'.map (·.id) = members.map (·.id)) : members' = members := by
  rw [← drawFirst_ids hperm hd, hids, drawFirst_ids (List.Perm.refl members) hd]

/-- Drawing the same once more changes nothing. -/
theorem drawFirst_again (hd : (members.map (·.id)).Nodup) (hknown : ∀ id ∈ ids, id ∈ members.map (·.id)) :
    drawFirst ids (drawFirst ids members) = drawFirst ids members := by
  have hperm := (drawFirst_perm ids members).map Checkbox.id
  have hd' : ((drawFirst ids members).map (·.id)).Nodup := hperm.nodup_iff.mpr hd
  have hknown' : ∀ id ∈ ids, id ∈ (drawFirst ids members).map (·.id) := fun id hid =>
    hperm.symm.subset (hknown id hid)
  apply eq_of_perm_of_ids (drawFirst_perm ids _) hd'
  have hfront : ids.eraseDups.filter (· ∉ ids) = [] := by
    rw [List.filter_eq_nil_iff]
    intro id hid
    simpa using List.mem_eraseDups.mp hid
  rw [map_id_drawFirst_of_known hd' hknown', map_id_drawFirst_of_known hd hknown, List.filter_append, hfront,
    List.nil_append, List.filter_filter]
  simp only [Bool.and_self]

theorem eraseP_eq_filter (hd : (members.map (·.id)).Nodup) (id : String) :
    members.eraseP (fun c => c.id = id) = members.filter (fun c => c.id ≠ id) := by
  induction members with
  | nil => rfl
  | cons c rest ih =>
    obtain ⟨hc, hrest⟩ := List.nodup_cons.mp hd
    by_cases hid : c.id = id
    · have hkept : rest.filter (fun d => d.id ≠ id) = rest := by
        rw [List.filter_eq_self]
        intro d hmem
        have hne : d.id ≠ id := by
          intro heq
          exact hc (List.mem_map.mpr ⟨d, hmem, heq.trans hid.symm⟩)
        simpa using hne
      rw [List.eraseP_cons_of_pos (by simpa using hid), List.filter_cons_of_neg (by simpa using hid), hkept]
    · rw [List.eraseP_cons_of_neg (by simpa using hid), List.filter_cons_of_pos (by simpa using hid), ih hrest]

/-- Where members have distinct ids, it makes no difference to a look-up how they stand. -/
theorem member?_of_perm (hd : g.order.Nodup) (hperm : g'.members.Perm g.members) (id : String) :
    g'.member? id = g.member? id := by
  have hd' : g'.order.Nodup := (hperm.map Checkbox.id).nodup_iff.mpr hd
  cases hfound : g.member? id with
  | none =>
    rw [member?_eq_none_iff] at hfound ⊢
    exact fun hmem => hfound ((hperm.map Checkbox.id).subset hmem)
  | some c =>
    obtain rfl : c.id = id := by simpa using List.find?_some hfound
    exact find?_of_mem hd' (hperm.symm.subset (mem_of_member? hfound))

/-! ## Reordering a group -/

/-- What becomes of a group of which the members with the given ids are moved to the front. -/
structure Reordered (g : Group) (ids : List String) (g' : Group) : Prop where
  /-- The listed ids stand in front, each where it is listed first, and the others follow as they stood. -/
  order : g'.order = ids.eraseDups ++ g.order.filter (· ∉ ids)
  /-- No member is lost, and none is there twice. -/
  perm : g'.members.Perm g.members
  /-- Each member has its label, its value and whether it is editable. -/
  member : ∀ id, g'.member? id = g.member? id
  rest : g' = { g with members := g'.members }
  again : g'.reorder? ids = .ok g'
  /-- If a member is removed after that, the others stand as they did. -/
  removed : ∀ id ∈ g'.order, ∃ c,
    g'.remove? id = .ok (c, aggregate { g' with members := g'.members.filter (fun d => d.id ≠ id) })

theorem remove?_of_mem (hdyn : g.isDynamic = true) (hd : g.order.Nodup) (hid : id ∈ g.order) :
    ∃ c, g.remove? id = .ok (c, aggregate { g with members := g.members.filter (fun d => d.id ≠ id) }) := by
  obtain ⟨c, hc⟩ := Option.isSome_iff_exists.mp (contains_iff.mpr hid)
  refine ⟨c, ?_⟩
  rw [remove?, if_pos hdyn, hc, ← eraseP_eq_filter hd]

/-- **Reordering a group only moves its members, to where the list says.** -/
theorem reordered_of_reorder? (hdyn : g.isDynamic = true) (hd : g.order.Nodup) (h : g.reorder? ids = .ok g') :
    g.Reordered ids g' := by
  have hknown := mem_order_of_reorder? h
  obtain rfl := reorder?_spec h
  have hperm := drawFirst_perm ids g.members
  have hd' : ((drawFirst ids g.members).map (·.id)).Nodup := (hperm.map Checkbox.id).nodup_iff.mpr hd
  constructor
  · exact map_id_drawFirst_of_known hd hknown
  · exact hperm
  · exact member?_of_perm hd hperm
  · rfl
  · have hknown' : ∀ id ∈ ids, id ∈ (drawFirst ids g.members).map (·.id) := fun id hid =>
      (hperm.map Checkbox.id).symm.subset (hknown id hid)
    refine Eq.trans (reorder?_of_known (g := { g with members := drawFirst ids g.members }) hdyn hknown') ?_
    show Except.ok { g with members := drawFirst ids (drawFirst ids g.members) } = _
    rw [drawFirst_again hd hknown]
  · intro id hid
    exact remove?_of_mem hdyn hd' hid

/-- **A group is reordered exactly if all listed ids are known, and else nothing happens to it.** Its members have
distinct ids. The members are taken out and put back one by one (`reorderInPlace`), and the outcome is that of the
function. -/
theorem reorder_listed_first (g : Group) (hdyn : g.isDynamic = true) (hd : g.order.Nodup) (ids : List String) :
    ((∃ r, (reorderInPlace ids).on g = (.error r, g) ∧ g.reorder? ids = .error r) ↔ ∃ id ∈ ids, id ∉ g.order) ∧
      ((∀ id ∈ ids, id ∈ g.order) →
        ∃ g', (reorderInPlace ids).on g = (.ok (), g') ∧ g.reorder? ids = .ok g' ∧ g.Reordered ids g') := by
  constructor
  · constructor
    · rintro ⟨r, -, hr⟩
      obtain ⟨id, hid, hnot, -⟩ := reorder?_eq_error hdyn hr
      exact ⟨id, hid, hnot⟩
    · rintro ⟨id, hid, hnot⟩
      cases h : g.reorder? ids with
      | ok g' => exact absurd (mem_order_of_reorder? h id hid) hnot
      | error r =>
        refine ⟨r, ?_, rfl⟩
        rw [on_reorderInPlace, h]
        rfl
  · intro hknown
    have h := reorder?_of_known hdyn hknown
    refine ⟨_, ?_, h, reordered_of_reorder? hdyn hd h⟩
    rw [on_reorderInPlace, h]
    rfl

/-- Two of four elements are listed, one of them twice. -/
theorem reorder_listed_first_partial :
    let box := fun id => Checkbox.mk id id true true
    let g := Group.dynamic "a" (some "All") [box "a-0", box "a-1", box "a-2", box "a-5"]
    let ids := ["a-5", "a-1", "a-5"]
    ∃ g', (reorderInPlace ids).on g = (.ok (), g') ∧ g'.order = ["a-5", "a-1", "a-0", "a-2"] ∧
      g'.numbering = some (.ofNat 6) ∧ g'.reorder? ids = .ok g' := by
  intro box g ids
  obtain ⟨g', hon, -, h⟩ := (reorder_listed_first g rfl (by decide) ids).2 (by decide)
  refine ⟨g', hon, ?_, ?_, h.again⟩
  · rw [h.order]
    decide
  · rw [h.rest]
    show g.numbering = some (.ofNat 6)
    decide

end Group

/-! ## Naming all members -/

/-- **Naming all members of a group gives it that order,** whatever order they had. -/
theorem Group.reorder?_all {g : Group} {order : List String} (hdyn : g.isDynamic = true) (hd : order.Nodup)
    (hall : g.order.Perm order) : ∃ g', g.reorder? order = .ok g' ∧ g'.order = order ∧ g.Reordered order g' := by
  have h := reorder?_of_known hdyn fun id hid => hall.symm.subset hid
  have hreordered := reordered_of_reorder? hdyn (hall.nodup_iff.mpr hd) h
  refine ⟨_, h, ?_, hreordered⟩
  have hleft : g.order.filter (· ∉ order) = [] := by
    rw [List.filter_eq_nil_iff]
    intro id hid
    simpa using hall.subset hid
  rw [hreordered.order, eraseDups_of_nodup hd, hleft, List.append_nil]

theorem Form.reorder?_eq_ok {f : Form} {group : String} {g g' : Group} {ids : List String}
    (hg : f.group? group = some g) (hdyn : g.isDynamic = true) (h : g.reorder? ids = .ok g') :
    f.reorder? group ids = .ok (f.replace g') := by
  simp only [reorder?, dynamic?_eq_ok_iff.mpr ⟨hg, hdyn⟩, bind, Except.bind, h]

/-- A panel gives a group the order it is told. -/
theorem Panel.edit?_reorder {p : Panel} {group : String} {g g' : Group} {ids : List String}
    (hg : p.form.group? group = some g) (hdyn : g.isDynamic = true) (h : g.reorder? ids = .ok g') :
    ∃ due p', p.edit? group (.reorder ids) = .ok (due, p') ∧ p'.form = p.form.replace g' := by
  have hform := Form.reorder?_eq_ok hg hdyn h
  have hchange : p.change? group (.reorder ids)
      = .ok (.ifFiltersChanged, { p with form := p.form.replace g' }.saveOrder group) := by
    simp only [change?, hform, bind, Except.bind]
  unfold edit?
  rw [hchange]
  refine ⟨_, _, rfl, ?_⟩
  rw [form_saveChanges, form_saveOrder]

/-! ## Moving one element -/

namespace View

variable {v : View} {group id : String} {g : Group} {order : List String}

theorem moveTo_perm (hid : id ∈ order) (place : Nat) : (moveTo id place order).Perm order :=
  (List.perm_insertIdx id _ (Nat.min_le_right _ _)).trans (List.perm_cons_erase hid).symm

/-- The moved element is at the place, or at the end. -/
theorem getElem?_moveTo (hid : id ∈ order) (place : Nat) :
    (moveTo id place order)[min place (order.length - 1)]? = some id := by
  rw [← List.length_erase_of_mem hid, moveTo, List.getElem?_insertIdx_self, if_pos (Nat.min_le_right _ _)]

/-- The others stand as they did. -/
theorem erase_moveTo (hd : order.Nodup) (place : Nat) : (moveTo id place order).erase id = order.erase id :=
  erase_insertIdx (Nat.min_le_right _ _) (List.Nodup.not_mem_erase hd)

/-- **Moving an element.** In the group it comes to its place, or to the end if there are fewer elements, and the
others stand as they did; nothing else in the view is changed. The request names all elements in the new order. A panel
that has these elements, whatever their order in it, makes the edit and has them in that order then. -/
theorem move_arranges (hg : v.form.group? group = some g) (hdyn : g.isDynamic = true) (hd : g.order.Nodup)
    (hid : id ∈ g.order) (place : Nat) :
    ∃ v' g', v.move group id place = .ok (.edit group (.reorder g'.order), v') ∧
      v'.form.group? group = some g' ∧ v' = { v with form := v.form.replace g' } ∧
      (g'.order[min place (g.order.length - 1)]? = some id ∧ g'.order.erase id = g.order.erase id ∧
        g.Reordered g'.order g') ∧
      ∀ settings (p : Panel) q, p.form.group? group = some q → q.isDynamic = true → q.order.Perm g.order →
        ∃ p' q', ((Session.active p).respond settings (.edit group (.reorder g'.order))).session = .active p' ∧
          p'.form.group? group = some q' ∧ q'.order = g'.order ∧ q'.members.Perm q.members := by
  have hperm := moveTo_perm hid place
  have hd' : (moveTo id place g.order).Nodup := hperm.nodup_iff.mpr hd
  obtain ⟨g', hreorder, horder, hreordered⟩ := Group.reorder?_all hdyn hd' hperm.symm
  have hfound := Form.group?_reordered hg hreorder
  refine ⟨{ v with form := v.form.replace g' }, g', ?_, hfound, rfl, ⟨?_, ?_, ?_⟩, ?_⟩
  · have hcontains : g.order.contains id = true := List.contains_iff_mem.mpr hid
    have hnow : v.form.order? group = .ok g.order := by rw [Form.order?, hg]
    have hthen : (v.form.replace g').order? group = .ok g'.order := by rw [Form.order?, hfound]
    have hform := Form.reorder?_eq_ok hg hdyn hreorder
    simp only [move, reorder, hnow, hcontains, hform, hthen, bind, Except.bind, if_true]
  · rw [horder]
    exact getElem?_moveTo hid place
  · rw [horder]
    exact erase_moveTo hd place
  · rw [horder]
    exact hreordered
  · intro settings p q hq hqdyn hsame
    obtain ⟨q', hedit, hqorder, hq'⟩ := Group.reorder?_all hqdyn hd' (hsame.trans hperm.symm)
    obtain ⟨due, p', hmade, hform⟩ := Panel.edit?_reorder hq hqdyn hedit
    have hrespond : ((Session.active p).respond settings (.edit group (.reorder g'.order))).session = .active p' := by
      simp only [Session.respond, Session.answerOpen, horder, hmade]
    refine ⟨p', q', hrespond, ?_, hqorder.trans horder.symm, hq'.perm⟩
    rw [hform]
    exact Form.group?_reordered hq hedit

/-- An element is moved to the right, further than the last place. The panel has the elements in another order, and
one of them with another label. -/
theorem move_arranges_past_end :
    let box := fun id label => Checkbox.mk id label false true
    let g := Group.dynamic "a" (some "All") [box "a-2" "x", box "a-0" "y", box "a-1" "z"]
    let q := Group.dynamic "a" none [box "a-1" "z", box "a-2" "w", box "a-0" "y"]
    let v : View := { ofState default with form := ⟨[g], []⟩ }
    let p : Panel := { (default : Panel) with form := ⟨[q], []⟩ }
    let r := Request.edit "a" (.reorder ["a-0", "a-1", "a-2"])
    (∃ v', v.move "a" "a-2" 9 = .ok (r, v') ∧ v'.form.order? "a" = .ok ["a-0", "a-1", "a-2"]) ∧
      ∃ p' q', ((Session.active p).respond Settings.standard r).session = .active p' ∧
        p'.form.group? "a" = some q' ∧ q'.order = ["a-0", "a-1", "a-2"] := by
  intro box g q v p r
  let moved : View := { v with form := ⟨[{ g with members := [box "a-0" "y", box "a-1" "z", box "a-2" "x"] }], []⟩ }
  have hmade : v.move "a" "a-2" 9 = .ok (r, moved) := by decide +kernel
  have hg : v.form.group? "a" = some g := by decide
  obtain ⟨v', g', hmove, -, -, -, hpanel⟩ := move_arranges hg rfl (by decide) (by decide : "a-2" ∈ g.order) 9
  obtain ⟨hrequest, rfl⟩ := Prod.mk.inj (Except.ok.inj (hmove.symm.trans hmade))
  have horder : g'.order = ["a-0", "a-1", "a-2"] := (Edit.reorder.inj (Request.edit.inj hrequest).2)
  rw [horder] at hpanel
  obtain ⟨p', q', hrespond, hfound, hq', -⟩ := hpanel Settings.standard p q (by decide) rfl (by decide)
  exact ⟨⟨moved, hmade, by decide +kernel⟩, p', q', hrespond, hfound, hq'⟩

end View

end AnyCase
