import AnyCase.Proofs.Fixpoint
import AnyCase.Proofs.Foresight
import AnyCase.Proofs.Procedure

/-!
# `Proofs.InPlace` — a view that is changed in place

The actions of a view are functions that give a new view or refuse. Here they are procedures, as a view goes through
them that is kept in one place: the form is changed first, and what is asked of the daemon is read from it after that.

`View.on_perform` says that every action in place does what the function does, and where that is refused leaves the
view as it was.

## Contents

* `Form.editInPlace` and its likes — the changes to the form of a view, step by step;
* `View.perform` — the actions, step by step;
* `View.refused_leaves_no_trace` — the main statement, of a view that has gone through any events.
-/

namespace AnyCase

open Procedure

/-! ## Steps in a form -/

namespace Form

/-- A procedure on the dynamic group with an id, after which the rules are evaluated. -/
def editInPlace {α : Type} (group : String) (selected : Bool) (p : Procedure Group α) : Procedure Form α := do
  let a ← inGroup group p
  modify fun f => f.reconcile group selected
  pure a

theorem on_editInPlace {α : Type} {p : Procedure Group α} {x : Group → Except Refusal (α × Group)}
    (hp : ∀ g, p.on g = wholly (x g) g) (f : Form) (group : String) (selected : Bool) :
    (editInPlace group selected p).on f
      = wholly (f.dynamic? group >>= fun g => x g >>= fun o =>
          .ok (o.1, (f.replace o.2).reconcile group selected)) f := by
  unfold editInPlace
  refine Eq.trans (on_bind_wholly (y := fun a f' => .ok (a, f'.reconcile group selected)) (on_inGroup hp f group)
    fun _ _ _ => rfl) ?_
  simp only [bind_assoc]
  rfl

/-- Sets a checkbox in its group, then evaluates the rules. -/
def setInPlace (id : String) (selected : Bool) : Procedure Form Unit := do
  let f ← get
  match f.locate? id with
  | none => throw (.noCheckbox id)
  | some ⟨place, g, spot⟩ =>
    if !g.enabled then throw (.disabled id g.id)
    else do
      let any ← within g (fun g' f => { f with groups := f.groups.set place g' })
        (Group.setSpotInPlace spot id selected)
      modify fun f => f.reconcile g.id any

/-- Sets a checkbox to the other value. -/
def toggleInPlace (id : String) : Procedure Form Unit := do
  let f ← get
  match f.value? id with
  | none => throw (.noCheckbox id)
  | some selected => setInPlace id !selected

/-- Reorders the elements of a group, and tells the order they are in after that. -/
def reorderInPlace (group : String) (ids : List String) : Procedure Form (List String) :=
  inGroup group do
    Group.reorderInPlace ids
    return (← get).order

theorem on_setInPlace (f : Form) (id : String) (selected : Bool) :
    (setInPlace id selected).on f = wholly (f.set id selected >>= fun f' => .ok ((), f')) f := by
  unfold setInPlace set
  rw [on_get_bind]
  cases hlocate : f.locate? id with
  | none => rfl
  | some l =>
    obtain ⟨place, g, spot⟩ := l
    have hplace : f.groups[place]? = some g := (locateIn_spec hlocate).1
    have hput : { f with groups := f.groups.set place g } = f := by
      obtain ⟨hi, hget⟩ := List.getElem?_eq_some_iff.mp hplace
      rw [← hget, List.set_getElem_self]
    cases henabled : g.enabled with
    | false =>
      simp only [henabled]
      rfl
    | true =>
      simp only [henabled]
      refine Eq.trans (on_bind_wholly (y := fun any f' => .ok ((), f'.reconcile g.id any))
        (on_within_wholly (Group.on_setSpotInPlace g spot id selected) hput) fun _ _ _ => rfl) ?_
      simp only [bind_assoc]
      cases spot with
      | main => rfl
      | member =>
        show _ = wholly ((g.set? id selected >>= _) >>= _) f
        rw [bind_assoc]
        rfl

theorem on_toggleInPlace (f : Form) (id : String) :
    (toggleInPlace id).on f = wholly (f.toggle id >>= fun f' => .ok ((), f')) f := by
  unfold toggleInPlace toggle
  rw [on_get_bind]
  cases f.value? id with
  | none => rfl
  | some selected => exact on_setInPlace f id !selected

/-- After reordering a group it is found in the new order. -/
theorem group?_reordered {f : Form} {group : String} {g g' : Group} {ids : List String} (hg : f.group? group = some g)
    (h : g.reorder? ids = .ok g') : (f.replace g').group? group = some g' := by
  have hid : g'.id = group := by
    rw [Group.reorder?_spec h]
    show g.id = group
    exact id_of_group? hg
  rw [group?_replace hg hid, if_pos rfl]

theorem on_reorderInPlace (f : Form) (group : String) (ids : List String) :
    (reorderInPlace group ids).on f
      = wholly (f.reorder? group ids >>= fun f' => f'.order? group >>= fun order => .ok (order, f')) f := by
  unfold reorderInPlace
  refine Eq.trans (on_inGroup (x := fun g => g.reorder? ids >>= fun g' => .ok (g'.order, g')) (fun g => ?_) f group) ?_
  · refine Eq.trans (on_bind_wholly (y := fun _ g' => .ok (g'.order, g')) (Group.on_reorderInPlace g ids)
      fun _ _ _ => rfl) ?_
    simp only [bind_assoc]
    rfl
  · unfold reorder?
    cases hg : f.dynamic? group with
    | error r => rfl
    | ok g =>
      show wholly ((g.reorder? ids >>= _) >>= _) f = wholly ((g.reorder? ids >>= _) >>= _) f
      cases hreorder : g.reorder? ids with
      | error r => rfl
      | ok g' =>
        have horder : (f.replace g').order? group = .ok g'.order := by
          rw [order?, group?_reordered (dynamic?_eq_ok_iff.mp hg).1 hreorder]
        show _ = wholly ((f.replace g').order? group >>= _) f
        rw [horder]
        rfl

end Form

/-! ## The actions of a view -/

namespace View

variable {v : View}

/-- Goes through a procedure in the form of the view, then makes the request. -/
def changeForm {α : Type} (p : Procedure Form α) (request : α → View → Request) : Procedure View Request := do
  let v ← get
  let a ← within v.form (fun form v => { v with form }) p
  return request a (← get)

/-- Toggles a checkbox. The owner is looked up before, the values of its elements after. -/
def toggleInPlace (id : String) : Procedure View Request := do
  let v ← get
  match v.ownerOf? id with
  | none => throw (.noCheckbox id)
  | some g =>
    changeForm (Form.toggleInPlace id) fun _ v' => v'.toldOf g

/-- Adds the element being typed. -/
def addInPlace (group : String) (selected : Bool) : Procedure View Request := do
  let v ← get
  match v.availability group with
  | .empty => throw .nothingToAdd
  | .duplicate => throw (.alreadyThere (v.typedLabel group) group)
  | .ready =>
    changeForm (Form.editInPlace group selected (Group.addInPlace (v.typedLabel group) selected none)) fun id _ =>
      .edit group (.add (v.typedLabel group) selected (some id))

/-- Reorders the elements of a group. -/
def reorderInPlace (group : String) (ids : List String) : Procedure View Request :=
  changeForm (Form.reorderInPlace group ids) fun order _ => .edit group (.reorder order)

/-- Moves an element of a group to a place. -/
def moveInPlace (group id : String) (place : Nat) : Procedure View Request := do
  let v ← get
  match v.form.order? group with
  | .error r => throw r
  | .ok order =>
    if order.contains id then reorderInPlace group (moveTo id place order)
    else throw (.noElement group id)

/-- The actions of a view, step by step. -/
def perform : ElementAction → Procedure View Request
  | .toggle id => toggleInPlace id
  | .add group selected => addInPlace group selected
  | .amend group id label selected =>
    changeForm (Form.editInPlace group selected (Group.amendInPlace id label selected)) fun _ _ =>
      .edit group (.amend id label selected)
  | .remove group id =>
    changeForm (Form.editInPlace group false (Group.removeInPlace id)) fun _ _ => .edit group (.remove id)
  | .reorder group ids => reorderInPlace group ids
  | .move group id place => moveInPlace group id place

theorem on_changeForm {α : Type} {p : Procedure Form α} {x : Except Refusal (α × Form)}
    (hp : p.on v.form = wholly x v.form) (request : α → View → Request) :
    (changeForm p request).on v
      = wholly (x >>= fun o => .ok (request o.1 { v with form := o.2 }, { v with form := o.2 })) v := by
  unfold changeForm
  rw [on_get_bind]
  refine Eq.trans (on_bind_wholly (y := fun a v' => .ok (request a v', v')) (on_within_wholly hp rfl)
    fun _ _ _ => rfl) ?_
  rw [bind_assoc]
  rfl

theorem on_reorderInPlace (v : View) (group : String) (ids : List String) :
    (reorderInPlace group ids).on v = wholly (v.reorder group ids) v := by
  unfold reorderInPlace reorder
  rw [on_changeForm (Form.on_reorderInPlace v.form group ids)]
  simp only [bind_assoc]
  rfl

/-- **Every action in place is made as a whole.** It does what the function does, and leaves the view as it was where
the function is refused. -/
theorem on_perform (v : View) (a : ElementAction) : (perform a).on v = wholly (v.edit? a) v := by
  cases a with
  | toggle id =>
    show (toggleInPlace id).on v = wholly (v.toggle id) v
    unfold toggleInPlace
    rw [on_get_bind, toggle_eq]
    cases v.ownerOf? id with
    | none => rfl
    | some g =>
      refine Eq.trans (on_changeForm (Form.on_toggleInPlace v.form id) _) ?_
      rw [bind_assoc]
      rfl
  | add group selected =>
    show (addInPlace group selected).on v = wholly (v.add group selected) v
    unfold addInPlace add
    rw [on_get_bind]
    cases v.availability group with
    | empty => rfl
    | duplicate => rfl
    | ready =>
      refine Eq.trans (on_changeForm (Form.on_editInPlace (fun g => Group.on_addInPlace g _ selected none)
        v.form group selected) _) ?_
      rfl
  | amend group id label selected =>
    refine Eq.trans (on_changeForm (Form.on_editInPlace (fun g => Group.on_amendInPlace g id label selected)
      v.form group selected) _) ?_
    show _ = wholly (v.amend group id label selected) v
    unfold amend Form.amend?
    simp only [bind_assoc]
    rfl
  | remove group id =>
    refine Eq.trans (on_changeForm (Form.on_editInPlace (fun g => Group.on_removeInPlace g id)
      v.form group false) _) ?_
    rfl
  | reorder group ids => exact on_reorderInPlace v group ids
  | move group id place =>
    show (moveInPlace group id place).on v = wholly (v.move group id place) v
    unfold moveInPlace move
    rw [on_get_bind]
    cases v.form.order? group with
    | error r => rfl
    | ok order =>
      show _ = wholly (if order.contains id then _ else _) v
      cases hid : order.contains id with
      | false =>
        simp only [hid]
        rfl
      | true =>
        simp only [hid]
        exact on_reorderInPlace v group _

/-! ## Views that have gone through events -/

/-- What a view goes through: actions on elements, other input of the user, and replies. -/
inductive Event
  | act (a : ElementAction)
  | enterText (text : String)
  | switchSensitivity
  | recordText (text : String) (length : Nat)
  | typeLabel (group label : String)
  | receive (reply : Reply)

/-- The view after an event. An action is performed in place, and its outcome is not looked at. -/
def next (v : View) : Event → View
  | .act a => ((perform a).on v).2
  | .enterText text => (v.enterText text).2
  | .switchSensitivity => v.switchSensitivity.2
  | .recordText text length => (v.recordText text length).2
  | .typeLabel group label => v.typeLabel group label
  | .receive reply => v.receive reply

/-- The view that is built from a state and goes through some events. -/
def driven (s : PanelState) (events : List Event) : View := events.foldl next (ofState s)

theorem driven_append (s : PanelState) (events later : List Event) :
    driven s (events ++ later) = later.foldl next (driven s events) :=
  List.foldl_append

/-- **A refused action leaves no trace.** The view is built from any state, whatever groups that has, and has gone
through any events. An action is then refused in place exactly if the function is; it leaves the view as it was, so
everything after it comes out as if it had not been tried. An action that is not refused makes the request and the view
of the function. -/
theorem refused_leaves_no_trace (s : PanelState) (events : List Event) (a : ElementAction) :
    let v := driven s events
    let o := (perform a).on v
    (∀ r, o.1 = .error r → v.edit? a = .error r ∧ o.2 = v ∧
        ∀ later, driven s (events ++ .act a :: later) = driven s (events ++ later)) ∧
      ∀ request, o.1 = .ok request → v.edit? a = .ok (request, o.2) := by
  intro v o
  have hwhole : o = wholly (v.edit? a) v := on_perform v a
  constructor
  · intro r hr
    obtain ⟨hedit, hsame⟩ := refused_of_wholly hwhole hr
    refine ⟨hedit, hsame, fun later => ?_⟩
    rw [driven_append, driven_append, List.foldl_cons]
    show later.foldl next o.2 = later.foldl next v
    rw [hsame]
  · intro request hrequest
    exact made_of_wholly hwhole hrequest

/-- A state with two elements of one id. An element is added and the history is replaced; then an order is refused
that names the elements and one that does not exist. -/
theorem refused_leaves_no_trace_unknown :
    let s : PanelState := ⟨"", true, [⟨"a", some ⟨"All", false⟩, true, true, false,
      [⟨"a-3", "*.rs", true, true⟩, ⟨"a-3", "*.ts", false, false⟩]⟩], []⟩
    let events := [.typeLabel "a" "*.md", .act (.add "a" true), .receive (.history "text" ["foo bar"])]
    let v := driven s events
    let o := (perform (.reorder "a" ["a-4", "a-3", "a-5"])).on v
    v.form.order? "a" = .ok ["a-3", "a-3", "a-4"] ∧ o.1 = .error (.noElement "a" "a-5") ∧ o.2 = v := by
  intro s events v o
  have hrefused : o.1 = .error (.noElement "a" "a-5") := by decide +kernel
  have horder : v.form.order? "a" = .ok ["a-3", "a-3", "a-4"] := by decide +kernel
  exact ⟨horder, hrefused, ((refused_leaves_no_trace s events _).1 _ hrefused).2.1⟩

end View

end AnyCase
