import AnyCase.Proofs.Refused

/-!
# `Proofs.Procedure` — changes made in place

The operations on groups and forms are functions that give a new value or refuse. A value that is kept in one place
goes through the same steps one after the other, and each changes it at once: a number is taken before its element is
there, the members are taken out of a group before they are put back in order, an element has its new label before it
is set. Of such a `Procedure` it is a question what a refusal leaves behind, since nothing takes a step back.

A procedure is made as a whole (`Procedure.wholly`) if it does what the function does, and leaves the value as it was
where the function is refused. One rule carries that through a sequence of steps (`Procedure.on_bind_wholly`): after a
step, what follows is either not refused, or the step has changed nothing.

## Contents

* `Procedure` — steps that change a value in place, and when they are made as a whole;
* `Group.setInPlace` and its likes — the operations on a group, step by step;
* `Form.inGroup` — a procedure on a dynamic group of a form.
-/

namespace AnyCase

/-! ## Procedures -/

/-- Steps that change a value in place. A refused step ends the procedure, and what was changed before it stays
changed. -/
abbrev Procedure (σ α : Type) := ExceptT Refusal (StateM σ) α

namespace Procedure

variable {σ τ α β : Type} {p : Procedure σ α} {q : α → Procedure σ β} {s s' : σ} {a : α} {r : Refusal}
  {x : Except Refusal (α × σ)} {y : α → σ → Except Refusal (β × σ)}

/-- The outcome of a procedure, and what has become of the value. -/
def on (p : Procedure σ α) (s : σ) : Except Refusal α × σ := (p.run.run s).run

/-- What a change that is made as a whole comes to: its outcome and the changed value, or the refusal and the value
as it was. -/
def wholly (x : Except Refusal (α × σ)) (s : σ) : Except Refusal α × σ :=
  match x with
  | .ok (a, s') => (.ok a, s')
  | .error r => (.error r, s)

/-- A procedure on a part of a value. What has become of the part is put back, also after a refusal. -/
def within (part : τ) (put : τ → σ → σ) (p : Procedure τ α) : Procedure σ α := do
  let (outcome, part') := p.on part
  modify (put part')
  MonadExcept.ofExcept outcome

theorem on_get_bind (q : σ → Procedure σ β) (s : σ) : (get >>= q : Procedure σ β).on s = (q s).on s := rfl

theorem on_modify_bind (f : σ → σ) (q : PUnit → Procedure σ β) (s : σ) :
    (modify f >>= q : Procedure σ β).on s = (q ()).on (f s) := rfl

theorem on_bind (p : Procedure σ α) (q : α → Procedure σ β) (s : σ) :
    (p >>= q).on s = match p.on s with
      | (.ok a, s') => (q a).on s'
      | (.error r, s') => (.error r, s') := by
  unfold on
  rw [ExceptT.run_bind, StateT.run_bind, Id.run_bind]
  obtain ⟨outcome, s'⟩ := (p.run.run s).run
  cases outcome <;> rfl

/-- **A step and what follows it are made as a whole** if what follows leaves the value as it was before the step
whenever it is refused. -/
theorem on_bind_wholly (hp : p.on s = wholly x s)
    (hq : ∀ a s', x = .ok (a, s') → (q a).on s' = wholly (y a s') s) :
    (p >>= q).on s = wholly (x >>= fun o => y o.1 o.2) s := by
  rw [on_bind, hp]
  cases x with
  | error r => rfl
  | ok o => exact hq o.1 o.2 rfl

theorem on_within_wholly {part : τ} {put : τ → σ → σ} {p : Procedure τ α} {x : Except Refusal (α × τ)}
    (hp : p.on part = wholly x part) (hput : put part s = s) :
    (within part put p).on s = wholly (x >>= fun o => .ok (o.1, put o.2 s)) s := by
  unfold within
  rw [hp]
  cases x with
  | error r =>
    show (Except.error r, put part s) = _
    rw [hput]
    rfl
  | ok o => rfl

/-- A change that is made as a whole is refused exactly if the function is. -/
theorem error_iff_of_wholly (hp : p.on s = wholly x s) : (p.on s).1 = .error r ↔ x = .error r := by
  rw [hp]
  cases x with
  | error r' => simp [wholly]
  | ok o => simp [wholly]

/-- One that is refused has changed nothing. -/
theorem refused_of_wholly (hp : p.on s = wholly x s) (hr : (p.on s).1 = .error r) :
    x = .error r ∧ (p.on s).2 = s := by
  have hx : x = .error r := (error_iff_of_wholly hp).mp hr
  refine ⟨hx, ?_⟩
  rw [hp, hx]
  rfl

/-- One that is not refused has been made. -/
theorem made_of_wholly (hp : p.on s = wholly x s) (ha : (p.on s).1 = .ok a) : x = .ok (a, (p.on s).2) := by
  rw [hp] at ha ⊢
  cases x with
  | error r => exact absurd ha (by simp [wholly])
  | ok o =>
    obtain rfl : o.1 = a := Except.ok.inj ha
    rfl

end Procedure

open Procedure

/-! ## Steps in a group -/

namespace Group

/-- Sets a member, then the main checkbox. -/
def setInPlace (id : String) (selected : Bool) : Procedure Group Unit := do
  let g ← get
  if g.contains id then do
    modify fun g => g.modifyMember id (fun c => { c with selected := selected })
    modify aggregate
  else throw (.noElement g.id id)

/-- Sets members one after the other. That they are all there is checked before the first one is set. -/
def setEachInPlace (given : List (String × Bool)) : Procedure Group Unit := do
  let g ← get
  match given.find? (fun e => !g.contains e.1) with
  | some e => throw (.noElement g.id e.1)
  | none => given.forM fun e => setInPlace e.1 e.2

/-- Takes a number, appends the element that has it, and sets the main checkbox. -/
def addInPlace (label : String) (selected : Bool) (proposed : Option String) : Procedure Group String := do
  let g ← get
  match g.numbering with
  | none => throw (.notDynamic g.id)
  | some numbering =>
    if label = "" then throw (.unlabelled g.id)
    else do
      let (id, numbering') := numbering.issue g.id proposed
      modify fun g => { g with numbering := some numbering' }
      modify fun g => { g with members := g.members ++ [⟨id, label, selected, true⟩] }
      modify aggregate
      pure id

/-- Removes a member, then sets the main checkbox. -/
def removeInPlace (id : String) : Procedure Group Checkbox := do
  let g ← get
  if g.isDynamic then
    match g.member? id with
    | none => throw (.noElement g.id id)
    | some c => do
      modify fun g => { g with members := g.members.eraseP (fun c => c.id = id) }
      modify aggregate
      pure c
  else throw (.notDynamic g.id)

/-- Gives a member another label. -/
def relabelInPlace (id label : String) : Procedure Group Unit := do
  let g ← get
  match g.member? id with
  | none => throw (.noElement g.id id)
  | some c =>
    if !c.editable then throw (.labelFixed id)
    else if label = "" then throw (.labelEmptied id)
    else modify fun g => g.modifyMember id (fun c => { c with label := label })

/-- Puts members back that were taken out: those with the given ids one after the other, then the others. -/
def putBack : List String → List Checkbox → Procedure Group Unit
  | [], rest => modify fun g => { g with members := g.members ++ rest }
  | id :: ids, rest =>
    match rest.find? (fun c => c.id = id) with
    | some c => do
      modify fun g => { g with members := g.members ++ [c] }
      putBack ids (rest.eraseP (fun c => c.id = id))
    | none => putBack ids rest

/-- Takes all members out and puts them back, those with the given ids first. -/
def reorderInPlace (ids : List String) : Procedure Group Unit := do
  let g ← get
  if g.isDynamic then
    match ids.find? (fun id => !g.contains id) with
    | some id => throw (.noElement g.id id)
    | none => do
      modify fun g => { g with members := [] }
      putBack ids g.members
  else throw (.notDynamic g.id)

/-- Sets what an id stands for, and tells whether a member is selected after that. -/
def setSpotInPlace (spot : Spot) (id : String) (selected : Bool) : Procedure Group Bool := do
  match spot with
  | .main => modify fun g => g.setAll selected
  | .member => setInPlace id selected
  return (← get).hasSelection

/-- Relabels a member, then sets it. -/
def amendInPlace (id label : String) (selected : Bool) : Procedure Group Unit := do
  relabelInPlace id label
  setInPlace id selected

theorem on_setInPlace (g : Group) (id : String) (selected : Bool) :
    (setInPlace id selected).on g = wholly (g.set? id selected >>= fun g' => .ok ((), g')) g := by
  unfold setInPlace set?
  rw [on_get_bind]
  cases g.contains id with
  | false => rfl
  | true => rfl

/-- Members are set one after the other in place as they are in the function, if that is not refused. -/
theorem on_forM_setInPlace {given : List (String × Bool)} {g g' : Group}
    (h : given.foldlM (fun g e => g.set? e.1 e.2) g = .ok g') :
    (given.forM fun e => setInPlace e.1 e.2 : Procedure Group Unit).on g = (.ok (), g') := by
  induction given generalizing g with
  | nil =>
    obtain rfl : g = g' := Except.ok.inj h
    rfl
  | cons e rest ih =>
    rw [List.foldlM_cons] at h
    obtain ⟨g₁, hset, hrest⟩ := bind_eq_ok_iff.mp h
    show (setInPlace e.1 e.2 >>= fun _ => rest.forM _ : Procedure Group Unit).on g = _
    rw [on_bind, on_setInPlace, hset]
    exact ih hrest

/-- **Members are all set, or none of them.** The steps take nothing back. But when the first member is set, all of
them are known to be there, so no later step is refused. -/
theorem on_setEachInPlace (g : Group) (given : List (String × Bool)) :
    (setEachInPlace given).on g = wholly (g.setEach? given >>= fun g' => .ok ((), g')) g := by
  unfold setEachInPlace setEach?
  rw [on_get_bind]
  cases hfind : given.find? (fun e => !g.contains e.1) with
  | some e => rfl
  | none =>
    obtain ⟨g', hset⟩ := exists_foldlM_set? (find?_unknown_eq_none_iff.mp hfind)
    exact (on_forM_setInPlace hset).trans (by rw [hset]; rfl)

theorem on_addInPlace (g : Group) (label : String) (selected : Bool) (proposed : Option String) :
    (addInPlace label selected proposed).on g = wholly (g.add? label selected proposed) g := by
  unfold addInPlace add?
  rw [on_get_bind]
  cases g.numbering with
  | none => rfl
  | some numbering =>
    by_cases hlabel : label = ""
    · simp only [if_pos hlabel]
      rfl
    · simp only [if_neg hlabel]
      rfl

theorem on_removeInPlace (g : Group) (id : String) : (removeInPlace id).on g = wholly (g.remove? id) g := by
  unfold removeInPlace remove?
  rw [on_get_bind]
  cases g.isDynamic with
  | false => rfl
  | true =>
    cases g.member? id with
    | none => rfl
    | some c => rfl

theorem on_relabelInPlace (g : Group) (id label : String) :
    (relabelInPlace id label).on g = wholly (g.relabel? id label >>= fun g' => .ok ((), g')) g := by
  unfold relabelInPlace relabel?
  rw [on_get_bind]
  cases g.member? id with
  | none => rfl
  | some c =>
    obtain ⟨_, _, _, editable⟩ := c
    cases editable with
    | false => rfl
    | true =>
      by_cases hlabel : label = ""
      · simp only [if_pos hlabel]
        rfl
      · simp only [if_neg hlabel]
        rfl

/-- What is put back stands behind what is there already, in the order in which it is drawn. -/
theorem on_putBack (ids : List String) (rest : List Checkbox) (g : Group) :
    (putBack ids rest).on g = (.ok (), { g with members := g.members ++ drawFirst ids rest }) := by
  induction ids generalizing rest g with
  | nil => rfl
  | cons id ids ih =>
    unfold putBack drawFirst
    cases rest.find? (fun c => c.id = id) with
    | none => exact ih rest g
    | some c =>
      show (modify _ >>= fun _ => putBack ids _ : Procedure Group Unit).on g = _
      rw [on_modify_bind, ih, List.append_assoc]
      rfl

theorem on_reorderInPlace (g : Group) (ids : List String) :
    (reorderInPlace ids).on g = wholly (g.reorder? ids >>= fun g' => .ok ((), g')) g := by
  unfold reorderInPlace reorder?
  rw [on_get_bind]
  cases g.isDynamic with
  | false => rfl
  | true =>
    cases ids.find? (fun id => !g.contains id) with
    | some id => rfl
    | none =>
      show (modify _ >>= fun _ => putBack ids g.members : Procedure Group Unit).on g = _
      rw [on_modify_bind, on_putBack]
      rfl

theorem on_setSpotInPlace (g : Group) (spot : Spot) (id : String) (selected : Bool) :
    (setSpotInPlace spot id selected).on g = wholly ((match spot with
      | .main => pure (g.setAll selected)
      | .member => g.set? id selected) >>= fun g' => .ok (g'.hasSelection, g')) g := by
  unfold setSpotInPlace
  cases spot with
  | main => rfl
  | member =>
    refine Eq.trans (on_bind_wholly (y := fun _ g' => .ok (g'.hasSelection, g')) (on_setInPlace g id selected)
      fun _ _ _ => rfl) ?_
    rw [bind_assoc]
    rfl

/-- **An element is relabelled and set, or nothing is done.** It has its new label before it is set, but then it is
there to be set. -/
theorem on_amendInPlace (g : Group) (id label : String) (selected : Bool) :
    (amendInPlace id label selected).on g
      = wholly (g.relabel? id label >>= fun g' => g'.set? id selected >>= fun g' => .ok ((), g')) g := by
  unfold amendInPlace
  rw [on_bind_wholly (y := fun _ g' => g'.set? id selected >>= fun g' => .ok ((), g')) (on_relabelInPlace g id label)]
  · cases g.relabel? id label with
    | error r => rfl
    | ok g' => rfl
  · intro _ g' hrelabelled
    obtain ⟨g₁, hrelabel, heq⟩ := bind_eq_ok_iff.mp hrelabelled
    obtain rfl : g₁ = g' := congrArg Prod.snd (Except.ok.inj heq)
    rw [on_setInPlace]
    cases hset : g₁.set? id selected with
    | error r => exact absurd hset (set?_relabelled hrelabel)
    | ok g' => rfl

end Group

/-! ## Steps in a form -/

namespace Form

theorem replace_self {f : Form} {g : Group} {group : String} (hg : f.group? group = some g) : f.replace g = f := by
  obtain rfl : g.id = group := id_of_group? hg
  unfold replace modifyGroup
  rw [modifyFirst_eq_self]
  intro g' hg'
  exact Option.some.inj (hg.symm.trans hg')

/-- A procedure on the dynamic group with an id. -/
def inGroup {α : Type} (group : String) (p : Procedure Group α) : Procedure Form α := do
  let f ← get
  match f.dynamic? group with
  | .error r => throw r
  | .ok g => within g (fun g' f => f.replace g') p

theorem on_inGroup {α : Type} {p : Procedure Group α} {x : Group → Except Refusal (α × Group)}
    (hp : ∀ g, p.on g = wholly (x g) g) (f : Form) (group : String) :
    (inGroup group p).on f
      = wholly (f.dynamic? group >>= fun g => x g >>= fun o => .ok (o.1, f.replace o.2)) f := by
  unfold inGroup
  rw [on_get_bind]
  split
  · rename_i r hr
    rw [hr]
    rfl
  · rename_i g hg
    rw [on_within_wholly (hp g) (replace_self (dynamic?_eq_ok_iff.mp hg).1), hg]
    rfl

end Form

end AnyCase
