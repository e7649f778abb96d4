import AnyCase.Proofs.Refused
import AnyCase.Proofs.Repeat
import AnyCase.Proofs.Sync

/-!
# `Proofs.Foresight` — a view foresees what becomes of the filters

A view makes a change of a filter first and sends it as an edit. The daemon makes the edit in its own form and
answers with its state. `elements_foreseen` says that it accepts every change of a filter that a view sends, and
that the groups in the answer are those that the view shows already. One thing a view cannot know is the number of
the next element, so the daemon may give another id to an element that is added.

The argument has three steps. A view sends an edit for every action on the elements of a filter, the toggling of one
of its checkboxes included (`View.request_of_edit?`). What it sends is what it has done: the edit, made in the form
that the view had before, leads to the form that it has now (`View.edit?_sent`). This is not obvious of a checkbox
that is toggled, for which the values of all elements of its group are sent, and of an order, which is sent in full.
And the form of a view differs from that of the panel in numbers only, so the edit does the same there
(`Form.edit?_again`).

All of it is about elements with ids of their own. After the last number two elements may have one id, and the values
that are sent then have one value for both (`elements_not_foreseen_after_last_number`).
-/

namespace AnyCase

open Layout

/-! ## Sending what was done -/

/-- The id that a view gives to an element is the one that it would take. -/
theorem Numbering.issue_issued (s : Numbering) (group : String) :
    s.issue group (some (s.issue group none).1) = s.issue group none := by
  show (s.take? group (idOf group s.next)).getD (s.fresh group) = s.fresh group
  unfold take?
  cases hnumber : numberOf? group (idOf group s.next) with
  | none => rfl
  | some n =>
    obtain ⟨-, hid⟩ := numberOf?_eq_some_iff.mp hnumber
    have hn : s.next = n := idOf_number_inj hid
    simp only [hn, Nat.lt_irrefl, if_false]
    rw [fresh, hn]
    rfl

namespace Group

variable {g g' : Group} {e : Edit} {id label : String} {selected : Bool}

theorem add?_issued (h : g.add? label selected none = .ok (id, g')) :
    g.add? label selected (some id) = .ok (id, g') := by
  obtain ⟨s, s', hs, hlabel, hissue, -⟩ := add?_spec h
  have hissued : s.issue g.id (some id) = s.issue g.id none := by
    have hsame := s.issue_issued g.id
    rwa [hissue] at hsame ⊢
  rw [← h]
  simp only [add?, hs, hissued]

theorem reorder?_order (hd : g.order.Nodup) {ids : List String} (h : g.reorder? ids = .ok g') :
    g.reorder? g'.order = .ok g' := by
  obtain rfl := reorder?_spec h
  have hdyn : g.isDynamic = true := by
    by_contra hfix
    rw [reorder?, if_neg hfix] at h
    exact absurd h (by simp)
  have hperm := drawFirst_perm ids g.members
  refine Eq.trans (reorder?_of_known hdyn fun id hid => (hperm.map Checkbox.id).subset hid) ?_
  show Except.ok { g with members := drawFirst ((drawFirst ids g.members).map Checkbox.id) g.members } = _
  rw [drawFirst_ids hperm hd]

/-- What follows from members is computed from them alone. -/
theorem aggregate_withMembers (g : Group) (members : List Checkbox) :
    aggregate { g.aggregate with members := members } = aggregate { g with members := members } := by
  simp [aggregate, allSelected, Function.comp_def]

/-- **Elements that are all known are set as they are listed.** -/
theorem foldlM_set?_eq {given : List (String × Bool)} (hagg : g.Aggregated) (hd : g.order.Nodup)
    (hkeys : (given.map (·.1)).Nodup) (hknown : ∀ e ∈ given, e.1 ∈ g.order) :
    given.foldlM (fun (g : Group) e => g.set? e.1 e.2) g
      = .ok (aggregate { g with members := g.members.map (Checkbox.assign given) }) := by
  induction given generalizing g with
  | nil =>
    have hsame : g.members.map (Checkbox.assign []) = g.members := List.map_id _
    rw [hsame]
    exact congrArg Except.ok hagg.symm
  | cons e rest ih =>
    obtain ⟨id, b⟩ := e
    obtain ⟨hid, hrest⟩ := List.nodup_cons.mp hkeys
    let g₁ := (g.modifyMember id (fun c => { c with selected := b })).aggregate
    have hset : g.set? id b = .ok g₁ :=
      set?_eq_ok_iff.mpr ⟨contains_iff.mpr (hknown (id, b) List.mem_cons_self), rfl⟩
    have horder : g₁.order = g.order := order_eq_of_blank (blank_of_set? hset)
    have hmembers : g₁.members.map (Checkbox.assign rest) = g.members.map (Checkbox.assign ((id, b) :: rest)) := by
      have hfirst : g₁.members = g.members.map fun c => if c.id = id then { c with selected := b } else c :=
        modifyFirst_eq_map hd
      rw [hfirst, List.map_map]
      exact List.map_congr_left fun c _ => Checkbox.assign_cons hid c
    rw [List.foldlM_cons, hset]
    show rest.foldlM (fun (g : Group) e => g.set? e.1 e.2) g₁ = _
    rw [ih (aggregated_aggregate _) (horder ▸ hd) hrest fun e he => horder ▸ hknown e (List.mem_cons_of_mem _ he),
      hmembers]
    exact congrArg Except.ok (aggregate_withMembers (g.modifyMember id _) _)

/-- A group whose main checkbox is right is made of another one of different values by its members. -/
theorem aggregate_of_blank (hblank : g'.blank = g.blank) (hagg : g'.Aggregated) (henabled : g'.enabled = g.enabled) :
    aggregate { g with members := g'.members } = g' := by
  have hmain : g.main.map (fun m => { m with selected := g'.allSelected }) = g'.main := by
    have hlabels := congrArg (fun h : Group => h.main.map fun m => { m with selected := g'.allSelected }) hblank
    simp only [blank, bare, Option.map_map, Function.comp_def] at hlabels
    rw [← hlabels]
    exact congrArg Group.main hagg
  have hid := id_eq_of_blank hblank
  have hnumbering := numbering_eq_of_blank hblank
  show Group.mk g.id (g.main.map fun m => { m with selected := g'.allSelected }) g'.members g.enabled g.numbering = g'
  rw [hmain, ← hid, ← henabled, ← hnumbering]

theorem keys_values (g : Group) : g.values.map (·.1) = g.order := by
  rw [values, List.map_map]
  rfl

/-- Of the values of a group, each is given once, and as it is. -/
theorem mem_given_values (hd : g.order.Nodup) (hown : g.id ∉ g.order) {e : String × Bool} :
    e ∈ Edit.given g.id (Dict.ofList g.values) ↔ e ∈ g.values := by
  unfold Edit.given
  rw [List.mem_filter]
  constructor
  · rintro ⟨hmem, -⟩
    exact Dict.mem_of_get?_ofList (Dict.get?_of_mem_toList hmem)
  · intro hmem
    have hget := Dict.get?_ofList_of_mem (g.keys_values ▸ hd) hmem
    refine ⟨Dict.mem_of_find? hget, decide_eq_true fun heq => hown ?_⟩
    rw [← heq, ← keys_values]
    exact List.mem_map_of_mem hmem

/-- **A group that differs in values only is made by setting all elements to the values it has.** -/
theorem edit?_set_values (hagg : g.Aggregated) (hon : g.enabled = true) (hd : g.order.Nodup)
    (hown : g.id ∉ g.order) (hblank : g'.blank = g.blank) (hagg' : g'.Aggregated) (hon' : g'.enabled = true) :
    g.edit? (.set (Dict.ofList g'.values)) = .ok g' ∧
      Edit.selects g.id (.set (Dict.ofList g'.values)) = g'.hasSelection := by
  have horder : g'.order = g.order := order_eq_of_blank hblank
  have hid : g'.id = g.id := id_eq_of_blank hblank
  have hgiven : ∀ e, e ∈ Edit.given g.id (Dict.ofList g'.values) ↔ e ∈ g'.values := by
    intro e
    rw [← hid, mem_given_values (horder ▸ hd) (horder ▸ hid ▸ hown)]
  have hkeys : ((Edit.given g.id (Dict.ofList g'.values)).map (·.1)).Nodup :=
    (Dict.keys_nodup _).sublist (List.filter_sublist.map _)
  constructor
  · have hknown : ∀ e ∈ Edit.given g.id (Dict.ofList g'.values), e.1 ∈ g.order := by
      intro e he
      rw [← horder, ← keys_values]
      exact List.mem_map_of_mem ((hgiven e).mp he)
    have hmembers : g.members.map (Checkbox.assign (Edit.given g.id (Dict.ofList g'.values))) = g'.members := by
      refine Checkbox.map_assign_eq (cleared_eq_of_blank hblank) fun c hc => ?_
      exact Dict.find?_of_mem hkeys ((hgiven _).mpr (List.mem_map.mpr ⟨c, hc, rfl⟩))
    have hset := foldlM_set?_eq hagg hd hkeys hknown
    rw [hmembers, aggregate_of_blank hblank hagg' (hon'.trans hon.symm)] at hset
    rw [edit?, hon]
    exact setEach?_eq_ok_iff.mpr ⟨hknown, hset⟩
  · rw [Bool.eq_iff_iff, Edit.selects, hasSelection, List.any_eq_true, List.any_eq_true]
    constructor
    · rintro ⟨e, he, hsel⟩
      obtain ⟨c, hc, rfl⟩ := List.mem_map.mp ((hgiven e).mp he)
      exact ⟨c, hc, hsel⟩
    · rintro ⟨c, hc, hsel⟩
      exact ⟨(c.id, c.selected), (hgiven _).mpr (List.mem_map.mpr ⟨c, hc, rfl⟩), hsel⟩

end Group

/-! ## The actions of a view -/

namespace View

/-- The actions of a view on the elements of a filter; toggling a checkbox is one if its group is a filter
(`ElementAction.Of`). -/
inductive ElementAction
  | toggle (id : String)
  | add (group : String) (selected : Bool)
  | amend (group id label : String) (selected : Bool)
  | remove (group id : String)
  | reorder (group : String) (ids : List String)
  | move (group id : String) (place : Nat)

/-- Whether an action is one on a group of a form: it names the group, or it toggles the main checkbox or an element of
a filter. -/
def ElementAction.Of (f : Form) (group : String) : ElementAction → Prop
  | .toggle id => group ∈ filterGroups ∧ (id = group ∨ id ∈ f.orderOf group)
  | .add group' _ | .amend group' .. | .remove group' _ | .reorder group' _ | .move group' .. => group' = group

/-- The request and the view after an action, which may be refused. -/
def edit? (v : View) : ElementAction → Except Refusal (Request × View)
  | .toggle id => v.toggle id
  | .add group selected => v.add group selected
  | .amend group id label selected => v.amend group id label selected
  | .remove group id => v.remove group id
  | .reorder group ids => v.reorder group ids
  | .move group id place => v.move group id place

variable {v v' : View} {group group' id label : String} {e : Edit} {selected : Bool} {ids : List String}

/-- What is known of the form of a view: the rules were evaluated, none is of a group with itself, and the
elements of a group are named after it, each with an id of its own. -/
structure Orderly (f : Form) : Prop where
  fits : Fits f
  consistent : f.Consistent
  apart : ∀ a b, .exclusive a b ∈ f.rules → a ≠ b
  named : ∀ g ∈ f.groups, g.Named

/-! ### What is sent -/

/-- A checkbox has one group: no other has its id, or a member with it. -/
theorem Orderly.eq_of_owns (hv : Orderly v.form) {g o : Group} (hg : g ∈ v.form.groups) (ho : o ∈ v.form.groups)
    (hgid : id = g.id ∨ id ∈ g.order) (hoid : id = o.id ∨ id ∈ o.order) : o = g := by
  rcases hgid with rfl | hgid
  · rcases hoid with heq | hin
    · exact hv.fits.eq_of_id ho hg heq.symm
    · exact absurd rfl (hv.fits.member_id_ne_group_id hv.named ho hin hv.fits hg)
  · rcases hoid with rfl | hin
    · exact absurd rfl (hv.fits.member_id_ne_group_id hv.named hg hgid hv.fits ho)
    · exact hv.fits.eq_of_member_id hv.named ho hg hin hgid

/-- **Toggling the main checkbox or an element of a filter sends an edit of that filter.** -/
theorem toggle_request (hv : Orderly v.form) (hgroup : group ∈ filterGroups) (hid : id = group ∨ id ∈ v.form.orderOf group)
    {r : Request} (h : v.toggle id = .ok (r, v')) : ∃ values, r = .edit group (.set values) := by
  obtain ⟨o, howner, -, -, rfl⟩ := toggle_spec h
  obtain ⟨g, hg, rfl⟩ := hv.fits.exists_group (List.mem_append_right _ hgroup)
  rw [v.form.orderOf_of_mem hv.fits.groups_nodup hg] at hid
  have hoid : id = o.id ∨ id ∈ o.order := by
    have howns := List.find?_some howner
    rw [Bool.or_eq_true, decide_eq_true_eq, Group.contains_iff] at howns
    exact howns.imp_left Eq.symm
  obtain rfl := hv.eq_of_owns hg (List.mem_of_find?_eq_some howner) hid hoid
  exact ⟨_, if_pos ((hv.fits.dynamic_iff hg).mpr hgroup)⟩

theorem reorder_request {r : Request} (h : v.reorder group ids = .ok (r, v')) :
    ∃ order, r = .edit group (.reorder order) := by
  obtain ⟨form, -, h⟩ := bind_eq_ok_iff.mp h
  obtain ⟨order, -, h⟩ := bind_eq_ok_iff.mp h
  exact ⟨order, (Prod.mk.inj (Except.ok.inj h)).1.symm⟩

/-- **An action on the elements of a group sends an edit of that group.** -/
theorem request_of_edit? (hv : Orderly v.form) {action : ElementAction} (hof : action.Of v.form group) {r : Request}
    (h : v.edit? action = .ok (r, v')) : ∃ e, r = .edit group e := by
  cases action with
  | toggle id =>
    obtain ⟨values, hr⟩ := toggle_request hv hof.1 hof.2 h
    exact ⟨_, hr⟩
  | add group' selected =>
    obtain rfl : group' = group := hof
    rw [edit?, add] at h
    split at h
    · exact absurd h (by simp)
    · exact absurd h (by simp)
    · obtain ⟨_, -, h⟩ := bind_eq_ok_iff.mp h
      exact ⟨_, (Prod.mk.inj (Except.ok.inj h)).1.symm⟩
  | amend group' id label selected =>
    obtain rfl : group' = group := hof
    obtain ⟨_, -, h⟩ := bind_eq_ok_iff.mp h
    exact ⟨_, (Prod.mk.inj (Except.ok.inj h)).1.symm⟩
  | remove group' id =>
    obtain rfl : group' = group := hof
    obtain ⟨_, -, h⟩ := bind_eq_ok_iff.mp h
    exact ⟨_, (Prod.mk.inj (Except.ok.inj h)).1.symm⟩
  | reorder group' ids =>
    obtain rfl : group' = group := hof
    obtain ⟨order, hr⟩ := reorder_request h
    exact ⟨_, hr⟩
  | move group' id place =>
    obtain rfl : group' = group := hof
    obtain ⟨order, -, h⟩ := bind_eq_ok_iff.mp h
    split at h
    · obtain ⟨order, hr⟩ := reorder_request h
      exact ⟨_, hr⟩
    · exact absurd h (by simp)

/-! ### What is done -/

/-- **Toggling a checkbox sends the values that the elements of its group have afterwards.** -/
theorem toggle_sent (hv : Orderly v.form) (h : v.toggle id = .ok (.edit group e, v')) :
    v.form.edit? group e = .ok v'.form := by
  obtain ⟨g, howner, htoggle, -, htold⟩ := toggle_spec h
  unfold toldOf at htold
  split at htold
  · rename_i hdyn
    obtain ⟨rfl, rfl⟩ := Request.edit.inj htold
    obtain ⟨b, hset⟩ := Form.toggle_spec htoggle
    obtain ⟨place, g₁, spot, g', hlocate, hg, hblank, hform, hon, hon', hagg'⟩ :=
      Form.set_spec hv.fits.groups_nodup hset
    -- the checkbox that is set is in the group that the view takes for its owner
    have hfirst := Form.find?_of_locateIn (fun g hg => hv.fits.main_isSome hg) hlocate
    obtain rfl : g = g₁ := Option.some.inj (howner.symm.trans hfirst)
    have hmem := Form.mem_of_group? hg
    -- that group does not lose against itself, so its values are those that were set
    have hmembers : v'.form.membersOf g.id = g'.members := by
      rw [hform, Form.membersOf_reconcile, if_neg fun hc => Form.not_mem_rivals_self hv.apart hc.2,
        Form.membersOf_replace hg (Group.id_eq_of_blank hblank), if_pos rfl]
    have hvalues : ((v'.form.group? g.id).map Group.values).getD [] = g'.values := by
      rw [Form.values_of_group?, hmembers, Group.values]
    have hown : g.id ∉ g.order := fun hin => hv.fits.member_id_ne_group_id hv.named hmem hin hv.fits hmem rfl
    obtain ⟨hedit, hselects⟩ := Group.edit?_set_values (hv.consistent.aggregated g hmem) hon
      (hv.named g hmem).distinct hown hblank hagg' hon'
    rw [hvalues, Form.edit?_eq_ok hg hdyn hedit, hselects, hform]
  · exact absurd htold (by simp)

theorem add_sent (h : v.add group selected = .ok (.edit group' e, v')) :
    v.form.edit? group' e = .ok v'.form := by
  unfold add at h
  split at h
  · exact absurd h (by simp)
  · exact absurd h (by simp)
  · obtain ⟨⟨id, form⟩, hadd, h⟩ := bind_eq_ok_iff.mp h
    obtain ⟨hrequest, rfl⟩ := Prod.mk.inj (Except.ok.inj h)
    obtain ⟨rfl, rfl⟩ := Request.edit.inj hrequest
    obtain ⟨g, g', hg, hdyn, hadded, hedit⟩ := Form.add?_spec hadd
    have hissued := Group.add?_issued hadded
    have hlocal : g.edit? (.add (v.typedLabel group) selected none) = .ok g' :=
      map_eq_ok_iff.mpr ⟨_, hadded, rfl⟩
    have hsent : g.edit? (.add (v.typedLabel group) selected (some id)) = .ok g' :=
      map_eq_ok_iff.mpr ⟨_, hissued, rfl⟩
    rw [Form.edit?_eq_ok hg hdyn hlocal] at hedit
    rw [Form.edit?_eq_ok hg hdyn hsent]
    exact hedit

/-- **Reordering sends the order that the elements have afterwards.** -/
theorem reorder_sent (hv : Orderly v.form) (h : v.reorder group ids = .ok (.edit group' e, v')) :
    v.form.edit? group' e = .ok v'.form := by
  obtain ⟨form, hreorder, h⟩ := bind_eq_ok_iff.mp h
  obtain ⟨order, horder, h⟩ := bind_eq_ok_iff.mp h
  obtain ⟨hrequest, rfl⟩ := Prod.mk.inj (Except.ok.inj h)
  obtain ⟨rfl, rfl⟩ := Request.edit.inj hrequest
  show _ = Except.ok form
  rw [Form.reorder?_eq hv.consistent] at hreorder
  obtain ⟨g, g', hg, hdyn, hid, hedit, hid', rfl⟩ := Form.edit?_spec hreorder
  -- no rule depends on the order, so the order afterwards is that of the group that was put in
  have hnew : order = g'.order := by
    obtain ⟨g₁, hg₁, hblank⟩ := Form.group?_edited hg hid' (Edit.selects group (.reorder ids))
    rw [Form.order?, hg₁] at horder
    rw [← Except.ok.inj horder, Group.order_eq_of_blank hblank]
  have hsent : g.edit? (.reorder order) = .ok g' := by
    rw [hnew]
    exact Group.reorder?_order (hv.named g (Form.mem_of_group? hg)).distinct hedit
  exact Form.edit?_eq_ok hg hdyn hsent

/-- **What a view sends is what it has done.** -/
theorem edit?_sent (hv : Orderly v.form) {action : ElementAction} (h : v.edit? action = .ok (.edit group e, v')) :
    v.form.edit? group e = .ok v'.form := by
  cases action with
  | toggle id => exact toggle_sent hv h
  | add group' selected => exact add_sent h
  | amend group' id label selected =>
    obtain ⟨form, hamend, h⟩ := bind_eq_ok_iff.mp h
    obtain ⟨hrequest, rfl⟩ := Prod.mk.inj (Except.ok.inj h)
    obtain ⟨rfl, rfl⟩ := Request.edit.inj hrequest
    rw [← Form.amend?_eq, hamend]
  | remove group' id =>
    obtain ⟨⟨c, form⟩, hremove, h⟩ := bind_eq_ok_iff.mp h
    obtain ⟨hrequest, rfl⟩ := Prod.mk.inj (Except.ok.inj h)
    obtain ⟨rfl, rfl⟩ := Request.edit.inj hrequest
    rw [← Form.remove?_eq, hremove]
    rfl
  | reorder group' ids => exact reorder_sent hv h
  | move group' id place =>
    obtain ⟨order, -, h⟩ := bind_eq_ok_iff.mp h
    split at h
    · exact reorder_sent hv h
    · exact absurd h (by simp)

end View

/-! ## The answer of the panel -/

namespace Panel

variable {settings : Settings} {p q : Panel}

/-- The form that a view is built from is in order. -/
theorem Intact.orderly_state (h : p.Intact settings) (hvalid : settings.check = .ok settings) :
    View.Orderly p.state.form where
  fits := h.fits.of_unnumbered h.form_state
  consistent := Form.consistent_settle _
  apart := by
    intro a b hrule
    have hrules : p.state.form.rules = p.form.rules := (Form.mk.inj h.form_state).2
    exact (h.rules_valid hvalid (hrules ▸ hrule)).2.2
  named := by
    intro g hg
    have hgroups : p.state.form.groups.map Group.unnumbered = p.form.groups.map Group.unnumbered :=
      (Form.mk.inj h.form_state).1
    have hmem : g.unnumbered ∈ p.form.groups.map Group.unnumbered := hgroups ▸ List.mem_map_of_mem hg
    obtain ⟨g₁, hg₁, heq⟩ := List.mem_map.mp hmem
    exact (h.named g₁ hg₁).of_unnumbered heq.symm

end Panel

namespace Session

open Panel

variable {trail : List Panel} {settings : Settings} {p : Panel} {action : View.ElementAction} {group : String}
  {r : Request} {v : View}

/-- **The daemon accepts what a view sends about a filter, and answers what the view shows already**, but for
the id of an element that was added. The view is any one that has just got the state of the panel; it may know
a history and labels being typed. The action adds, amends, removes, moves or reorders elements of the filter, or it
toggles one of them or its main checkbox. No element may have had the last number. -/
theorem elements_foreseen (h : Reached trail settings p) (hvalid : settings.check = .ok settings)
    (hrange : ∀ q ∈ trail, q.InRange) (w : View) (hof : action.Of p.state.form group)
    (hact : (w.refresh p.state).edit? action = .ok (r, v)) :
    ∃ e q searches id, r = .edit group e ∧
      (active p).respond settings r = ⟨active q, [.state q.state], searches⟩ ∧
      q.state.contents = (v.form.renumbered group id e).contents := by
  have hintact := (h.intact hrange).1
  have hv := hintact.orderly_state hvalid
  obtain ⟨e, rfl⟩ := View.request_of_edit? (v := w.refresh p.state) hv hof hact
  have hlocal : p.state.form.edit? group e = .ok v.form := View.edit?_sent hv hact
  obtain ⟨id, f', hform, heq⟩ := Form.edit?_again hintact.fits hv.fits hintact.consistent hv.consistent
    hintact.form_state.symm hlocal
  rw [← form_edit? hintact.consistent] at hform
  obtain ⟨⟨due, q⟩, hedit, rfl⟩ := map_eq_ok_iff.mp hform
  refine ⟨e, q, if due then [q.search] else [], id, rfl, ?_, ?_⟩
  · simp only [respond, answerOpen, hedit]
  · rw [contents_state]
    exact contents_eq heq

/-- An element was removed that had the greatest number, so the view proposes that number again, and the daemon
gives the next one. Once it is there, the main checkbox of the filter is toggled. -/
theorem elements_foreseen_after_removal :
    let settings := { Settings.standard with rules := [.exclusive included conventions] }
    let p := ((restore Store.empty settings).perform (.edit included (.add "*.rs" false none))).perform
      (.edit included (.remove "filesToInclude-0"))
    let w := (View.ofState p.state).typeLabel included "*.ts"
    let add := Edit.add "*.ts" false (some "filesToInclude-0")
    let p' := p.perform (.edit included add)
    let set := Edit.set (Dict.ofList [("filesToInclude-1", true)])
    (∃ v q searches id, w.add included false = .ok (.edit included add, v) ∧
      (active p).respond settings (.edit included add) = ⟨active q, [.state q.state], searches⟩ ∧
      q.state.contents = (v.form.renumbered included id add).contents) ∧
    ∃ v q searches, (w.refresh p'.state).toggle included = .ok (.edit included set, v) ∧
      (active p').respond settings (.edit included set) = ⟨active q, [.state q.state], searches⟩ ∧
      q.state.contents = v.form.contents := by
  intro settings p w add p' set
  have hp : Reached _ settings p := .perform (.perform (.first rfl _) _) _
  have hp' : Reached _ settings p' := hp.perform _
  have hofAdd : (View.ElementAction.add included false).Of p.state.form included := rfl
  have hofToggle : (View.ElementAction.toggle included).Of p'.state.form included := ⟨by decide, Or.inl rfl⟩
  have hadd : (w.add included false).map (·.1) = .ok (.edit included add) := by decide +kernel
  have htoggle : ((w.refresh p'.state).toggle included).map (·.1) = .ok (.edit included set) := by decide +kernel
  constructor
  · obtain ⟨⟨r, v⟩, hact, rfl⟩ := map_eq_ok_iff.mp hadd
    obtain ⟨e, q, searches, id, hr, hrespond, hcontents⟩ :=
      elements_foreseen hp rfl (by decide) w hofAdd hact
    obtain ⟨-, rfl⟩ := Request.edit.inj hr
    exact ⟨v, q, searches, id, hact, hrespond, hcontents⟩
  · obtain ⟨⟨r, v⟩, hact, rfl⟩ := map_eq_ok_iff.mp htoggle
    obtain ⟨e, q, searches, id, hr, hrespond, hcontents⟩ :=
      elements_foreseen hp' rfl (by decide) w hofToggle hact
    obtain ⟨-, rfl⟩ := Request.edit.inj hr
    refine ⟨v, q, searches, hact, hrespond, ?_⟩
    rw [hcontents, Form.renumbered_set]

/-- After the last number the first one is given again, and the first of two elements with that id is toggled. The view
sends one value for both, which is that of the second one; the daemon sets the first one to it. -/
theorem elements_not_foreseen_after_last_number :
    let p := (((restore Store.empty .standard).perform (.edit included (.add "a" false none))).perform
      (.edit included (.add "b" false (some "filesToInclude-18446744073709551615")))).perform
      (.edit included (.add "c" false none))
    let e := Edit.set (Dict.ofList [("filesToInclude-0", false), ("filesToInclude-18446744073709551615", false)])
    (∃ trail, Reached trail .standard p) ∧
    ∃ v q searches, (View.ofState p.state).toggle "filesToInclude-0" = .ok (.edit included e, v) ∧
      (active p).respond .standard (.edit included e) = ⟨active q, [.state q.state], searches⟩ ∧
      ∀ id, q.state.contents ≠ (v.form.renumbered included id e).contents := by
  intro p e
  have htoggle : ((View.ofState p.state).toggle "filesToInclude-0").map
      (fun o => (o.1, o.2.form.hasSelection included)) = .ok (.edit included e, true) := by decide +kernel
  have hedit : (p.edit? included e).map (fun o => o.2.form.hasSelection included) = .ok false := by decide +kernel
  obtain ⟨⟨r, v⟩, htoggle, heq⟩ := map_eq_ok_iff.mp htoggle
  obtain ⟨rfl, hshown⟩ := Prod.mk.inj heq
  obtain ⟨⟨due, q⟩, hedit, hmade⟩ := map_eq_ok_iff.mp hedit
  refine ⟨⟨_, .perform (.perform (.perform (.first rfl _) _) _) _⟩, v, q, if due then [q.search] else [], htoggle,
    ?_, fun id hsame => ?_⟩
  · simp only [respond, answerOpen, hedit]
  · rw [Form.renumbered_set, contents_state] at hsame
    have hselection := Form.hasSelection_of_contents hsame included
    exact absurd (hmade.symm.trans (hselection.trans hshown)) (by decide)

end Session

end AnyCase
