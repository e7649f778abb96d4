import AnyCase.Proofs.Procedure

/-!
# `Proofs.Atomic` — a panel that is changed in place

An edit of a panel goes through many steps: members are set one after the other, or an element takes a number and is
appended, its label is stored, the rules are evaluated, and last the values that changed are stored. `Panel.editInPlace`
goes through them on a panel that is kept in one place, with its form, its store and the groups of filters that were
never stored.

`Panel.on_editInPlace` says that this is made as a whole. The group is changed first, by a procedure that is, and of the
steps after it none can be refused (`Panel.on_inGroup_bind`). `Session.edit_refused_iff` adds when an edit is refused,
and what the session answers.
-/

namespace AnyCase

open Procedure

/-! ## Steps in a group -/

namespace Group

/-- Sets members of an enabled group. -/
def setEnabledInPlace (given : List (String × Bool)) : Procedure Group Unit := do
  let g ← get
  if !g.enabled then throw (.disabledMembers g.id)
  else setEachInPlace given

/-- Relabels and sets a member, and tells whether it was selected before. -/
def reviseInPlace (id label : String) (selected : Bool) : Procedure Group Bool := do
  let g ← get
  match g.member? id with
  | none => throw (.noElement g.id id)
  | some c => do
    amendInPlace id label selected
    pure c.selected

theorem on_setEnabledInPlace (g : Group) (given : List (String × Bool)) :
    (setEnabledInPlace given).on g = wholly ((if !g.enabled then .error (.disabledMembers g.id)
      else g.setEach? given) >>= fun g' => .ok ((), g')) g := by
  unfold setEnabledInPlace
  rw [on_get_bind]
  cases g.enabled with
  | false => rfl
  | true => exact on_setEachInPlace g given

theorem on_reviseInPlace (g : Group) (id label : String) (selected : Bool) :
    (reviseInPlace id label selected).on g
      = wholly (g.relabel? id label >>= fun g' => g'.set? id selected >>= fun g' =>
          .ok ((g.member? id).any (·.selected), g')) g := by
  unfold reviseInPlace
  rw [on_get_bind]
  cases hmember : g.member? id with
  | none =>
    unfold relabel?
    rw [hmember]
    rfl
  | some c =>
    refine (on_bind_wholly (y := fun _ g' => .ok (c.selected, g')) (on_amendInPlace g id label selected)
      fun _ _ _ => rfl).trans ?_
    simp only [bind_assoc]
    rfl

end Group

/-! ## Edits of a panel -/

namespace Panel

/-- A procedure on the dynamic group with an id, in the form of a panel. -/
def inGroup {α : Type} (group : String) (step : Procedure Group α) : Procedure Panel α := do
  let p ← get
  within p.form (fun form p => { p with form }) (Form.inGroup group step)

/-- The panel with the rules of its form evaluated. -/
def reconcile (p : Panel) (group : String) (selected : Bool) : Panel :=
  { p with form := p.form.reconcile group selected }

/-- Makes an edit and stores its elements, step by step. -/
def changeInPlace (group : String) : Edit → Procedure Panel Due
  | .set values => do
    let given := values.toList.filter (fun e => e.1 ≠ group)
    inGroup group (Group.setEnabledInPlace given)
    modify fun p => p.reconcile group (given.any (·.2))
    pure .yes
  | .add label selected proposed => do
    let id ← inGroup group (Group.addInPlace label selected proposed)
    modify fun p => p.record (Layout.labelKey id) (.str label)
    modify fun p => p.reconcile group selected
    modify fun p => p.saveOrder group
    pure .yes
  | .amend id label selected => do
    let wasSelected ← inGroup group (Group.reviseInPlace id label selected)
    modify fun p => p.record (Layout.labelKey id) (.str label)
    modify fun p => p.reconcile group selected
    pure (if wasSelected then .yes else .no)
  | .remove id => do
    let removed ← inGroup group (Group.removeInPlace id)
    modify fun p => p.forget id
    modify fun p => p.forget (Layout.labelKey id)
    modify fun p => p.reconcile group false
    modify fun p => p.saveOrder group
    pure (if removed.selected then .yes else .ifFiltersChanged)
  | .reorder ids => do
    inGroup group (Group.reorderInPlace ids)
    modify fun p => p.saveOrder group
    pure .ifFiltersChanged

/-- Makes an edit step by step, stores the values that changed, and tells whether to search again. -/
def editInPlace (group : String) (e : Edit) : Procedure Panel Bool := do
  let p ← get
  let due ← changeInPlace group e
  modify fun p' => p'.saveChanges p.form.values
  let p' ← get
  pure (match due with
    | .yes => true
    | .ifFiltersChanged => p'.filters ≠ p.filters
    | .no => false)

theorem on_inGroup {α : Type} {step : Procedure Group α} {x : Group → Except Refusal (α × Group)}
    (hstep : ∀ g, step.on g = wholly (x g) g) (p : Panel) (group : String) :
    (inGroup group step).on p = wholly (p.form.dynamic? group >>= fun g => x g >>= fun o =>
      .ok (o.1, { p with form := p.form.replace o.2 })) p := by
  unfold inGroup
  rw [on_get_bind]
  refine (on_within_wholly (Form.on_inGroup hstep p.form group) rfl).trans ?_
  simp only [bind_assoc]
  rfl

/-- After a procedure on a group, what cannot be refused is made with it as a whole. -/
theorem on_inGroup_bind {α : Type} {step : Procedure Group α} {x : Group → Except Refusal (α × Group)}
    {later : α → Procedure Panel Due} {due : α → Due} {change : α → Panel → Panel}
    (hstep : ∀ g, step.on g = wholly (x g) g) (hlater : ∀ a p, (later a).on p = (.ok (due a), change a p))
    (p : Panel) (group : String) :
    (inGroup group step >>= later).on p = wholly (p.form.dynamic? group >>= fun g => x g >>= fun o =>
      .ok (due o.1, change o.1 { p with form := p.form.replace o.2 })) p := by
  refine (on_bind_wholly (y := fun a p' => .ok (due a, change a p')) (on_inGroup hstep p group)
    fun a p' _ => hlater a p').trans ?_
  simp only [bind_assoc]
  rfl

theorem on_changeInPlace (p : Panel) (group : String) (e : Edit) :
    (changeInPlace group e).on p = wholly (p.change? group e) p := by
  cases e with
  | set values =>
    refine (on_inGroup_bind (fun g => Group.on_setEnabledInPlace g _) (fun _ _ => rfl) p group).trans ?_
    unfold change? Form.setElements?
    cases hg : p.form.dynamic? group with
    | error r => rfl
    | ok g =>
      have hid : g.id = group := Form.id_of_group? (Form.dynamic?_eq_ok_iff.mp hg).1
      show wholly (((if !g.enabled then _ else _) >>= _) >>= _) p = wholly ((if !g.enabled then _ else _) >>= _) p
      cases g.enabled with
      | false =>
        show wholly (.error (.disabledMembers g.id)) p = _
        rw [hid]
        rfl
      | true =>
        show wholly ((g.setEach? _ >>= _) >>= _) p = wholly ((g.setEach? _ >>= _) >>= _) p
        simp only [bind_assoc]
        rfl
  | add label selected proposed =>
    refine (on_inGroup_bind (fun g => Group.on_addInPlace g label selected proposed) (fun _ _ => rfl) p group).trans ?_
    unfold change? Form.add?
    simp only [bind_assoc]
    rfl
  | amend id label selected =>
    refine (on_inGroup_bind (fun g => Group.on_reviseInPlace g id label selected) (fun _ _ => rfl) p group).trans ?_
    unfold change? Form.amend?
    cases hg : p.form.dynamic? group with
    | error r => rfl
    | ok g =>
      have hfound : p.form.group? group = some g := (Form.dynamic?_eq_ok_iff.mp hg).1
      show wholly ((g.relabel? id label >>= _) >>= _) p = wholly ((g.relabel? id label >>= _) >>= _) p
      simp only [bind_assoc, hfound]
      rfl
  | remove id =>
    refine (on_inGroup_bind (fun g => Group.on_removeInPlace g id) (fun _ _ => rfl) p group).trans ?_
    unfold change? Form.remove?
    simp only [bind_assoc]
    rfl
  | reorder ids =>
    refine (on_inGroup_bind (fun g => Group.on_reorderInPlace g ids) (fun _ _ => rfl) p group).trans ?_
    unfold change? Form.reorder?
    simp only [bind_assoc]
    rfl

/-- **An edit in place is made as a whole.** It does what the function does, and leaves the panel as it was where that
is refused. -/
theorem on_editInPlace (p : Panel) (group : String) (e : Edit) :
    (editInPlace group e).on p = wholly (p.edit? group e) p := by
  unfold editInPlace edit?
  rw [on_get_bind]
  exact on_bind_wholly (y := fun due p' => .ok (_, p'.saveChanges p.form.values)) (on_changeInPlace p group e)
    fun _ _ _ => rfl

end Panel

/-! ## Refusals of a session -/

namespace Session

open Panel

variable {settings : Settings} {store : Store} {p : Panel} {requests : List Request}

/-- **An edit is refused exactly if it has a fault, and then nothing happens but that the refusal is told.** The
group is unknown or not dynamic; or elements of a disabled group are set; or something is set, amended, removed or
listed that is no element of the group; or an element would have no label. The edit is made in place: the refusal is
that of a fault, and what the steps leave behind is the panel as it was before them. The session answers with the
refusal, or with the panel as the steps leave it. The store may have held anything at the start. -/
theorem edit_refused_iff (hopen : after settings (idle store) requests = active p) (group : String) (e : Edit) :
    let o := (editInPlace group e).on p
    ((∃ r, o.1 = .error r) ↔ ∃ r, p.form.Fault group e r) ∧
      (∀ r, o.1 = .error r → p.form.Fault group e r ∧ o.2 = p ∧
        (active p).respond settings (.edit group e) = ⟨active p, [.rejected r.message], []⟩) ∧
      ∀ due, o.1 = .ok due → (active p).respond settings (.edit group e)
        = ⟨active o.2, [.state o.2.state], if due then [o.2.search] else []⟩ := by
  intro o
  obtain ⟨hp, heditable⟩ : p.Shaped settings ∧ p.form.Editable := by
    refine open_panel_induction (P := fun p => p.Shaped settings ∧ p.form.Editable) (fun store => ?_)
      (fun p op h => ?_) (fun p hidle => absurd hidle (by simp)) hopen
    · exact ⟨shaped_restore store settings, editable_restore store settings⟩
    · exact ⟨h.1.perform op, editable_perform h.1.consistent h.2 op⟩
  have hwhole : o = wholly (p.edit? group e) p := on_editInPlace p group e
  have hrefused (r : Refusal) : o.1 = .error r ↔ p.form.edit? group e = .error r := by
    rw [← edit?_eq_error_iff hp.consistent]
    exact error_iff_of_wholly hwhole
  refine ⟨?_, fun r hr => ?_, fun due hdue => ?_⟩
  · simp only [hrefused]
    exact Form.refused_iff heditable
  · obtain ⟨hedit, hsame⟩ := refused_of_wholly hwhole hr
    refine ⟨Form.fault_of_edit? heditable ((hrefused r).mp hr), hsame, ?_⟩
    simp only [respond, answerOpen, hedit]
  · have hedit : p.edit? group e = .ok (due, o.2) := made_of_wholly hwhole hdue
    simp only [respond, answerOpen, hedit]

/-- Two elements are set at once in a group that is enabled only while something is selected in another one. Then
that is so, and one of the two is no element; the other one is not set either. -/
theorem edit_refused_in_disabled_group :
    let settings := { Settings.standard with rules := [.enabledWhenAny Layout.excluded Layout.included] }
    let p := (restore Store.empty settings).perform (.edit Layout.excluded (.add "target/" false none))
    let q := p.perform (.edit Layout.included (.add "*.rs" true none))
    let e := Edit.set (Dict.ofList [("filesToExclude-0", true), ("filesToExclude-1", true)])
    (p.form.Fault Layout.excluded e (.disabledMembers Layout.excluded) ∧
      ((editInPlace Layout.excluded e).on p).2 = p ∧
      (active p).respond settings (.edit Layout.excluded e) = ⟨active p,
        [.rejected "rejected: cannot set members of the disabled group filesToExclude"], []⟩) ∧
    (q.form.Fault Layout.excluded e (.noElement Layout.excluded "filesToExclude-1") ∧
      ((editInPlace Layout.excluded e).on q).2 = q ∧
      (active q).respond settings (.edit Layout.excluded e) = ⟨active q,
        [.rejected "no element filesToExclude-1 in group filesToExclude"], []⟩) := by
  intro settings p q e
  have hp : after settings (idle .empty) [.openPanel, .edit Layout.excluded (.add "target/" false none)]
      = active p := by
    rw [after_cons, respond_openPanel_session, after_cons, respond_edit_session]
    rfl
  have hq : after settings (idle .empty) [.openPanel, .edit Layout.excluded (.add "target/" false none),
      .edit Layout.included (.add "*.rs" true none)] = active q := by
    rw [after_cons, respond_openPanel_session, after_cons, respond_edit_session, after_cons,
      respond_edit_session]
    rfl
  have hpe : ((editInPlace Layout.excluded e).on p).1 = .error (.disabledMembers Layout.excluded) := by decide +kernel
  have hqe : ((editInPlace Layout.excluded e).on q).1
      = .error (.noElement Layout.excluded "filesToExclude-1") := by decide +kernel
  exact ⟨(edit_refused_iff hp _ e).2.1 _ hpe, (edit_refused_iff hq _ e).2.1 _ hqe⟩

end Session

end AnyCase
