import AnyCase.Proofs.Group
import AnyCase.Proofs.Numbering
import Mathlib.Data.List.Nodup

/-!
# `Proofs.Elements` — what an edit does to the elements of a group

Every edit of a form replaces one dynamic group by `Group.edit?` of it and then evaluates the rules. This
module is about the first of the two steps.

The elements of a group are *named* after it (`Group.Named`): their ids are distinct, each is made of the
group and a number, they have labels, and the labels can be changed. They are *numbered* (`Group.Numbered`) if
their numbers are below the next one. An edit of a numbered group leaves it named (`Named.edit?`), and numbered
unless it has handed out the last number (`Numbered.edit?`). It leaves the outline of the group alone
(`Group.outline_edit?`). It selects something only if it says so
(`Edit.selects`, `Group.hasSelection_of_edit?`). And it looks neither at the numbers that are free nor at
whether the group is enabled, but for the one edit that needs each (`Group.edit?_revised`).
-/

namespace AnyCase

theorem bind_eq_ok_iff {ε α β : Type} {x : Except ε α} {f : α → Except ε β} {b : β} :
    x >>= f = .ok b ↔ ∃ a, x = .ok a ∧ f a = .ok b := by
  cases x with
  | error e => simp [bind, Except.bind]
  | ok a => simp [bind, Except.bind]

theorem map_eq_ok_iff {ε α β : Type} {x : Except ε α} {f : α → β} {b : β} :
    x.map f = .ok b ↔ ∃ a, x = .ok a ∧ f a = b := by
  cases x with
  | error e => simp [Except.map]
  | ok a => simp [Except.map]

theorem bind_eq_error {ε α β : Type} {x : Except ε α} {f : α → Except ε β} {r : ε}
    (h : x >>= f = .error r) : x = .error r ∨ ∃ a, x = .ok a ∧ f a = .error r := by
  cases x with
  | error e => exact Or.inl (congrArg Except.error (Except.error.inj h))
  | ok a => exact Or.inr ⟨a, rfl, h⟩

theorem map_eq_error_iff {ε α β : Type} {x : Except ε α} {f : α → β} {r : ε} :
    x.map f = .error r ↔ x = .error r := by
  cases x with
  | error e => simp [Except.map]
  | ok a => simp [Except.map]

/-! ## Edits of a group -/

/-- The values that an edit gives to elements of a group; the main checkbox follows them. -/
def Edit.given (group : String) (values : Dict Bool) : List (String × Bool) :=
  values.toList.filter (fun e => e.1 ≠ group)

/-- Whether an edit of a group asks for a selection, so that the rivals of the group are unselected. -/
def Edit.selects (group : String) : Edit → Bool
  | .set values => (given group values).any (·.2)
  | .add _ selected _ | .amend _ _ selected => selected
  | .remove _ | .reorder _ => false

/-- A dynamic group after an edit, before the rules are evaluated. -/
def Group.edit? (g : Group) : Edit → Except Refusal Group
  | .set values =>
    if !g.enabled then .error (.disabledMembers g.id)
    else g.setEach? (Edit.given g.id values)
  | .add label selected proposed => (g.add? label selected proposed).map (·.2)
  | .amend id label selected => do (← g.relabel? id label).set? id selected
  | .remove id => (g.remove? id).map (·.2)
  | .reorder ids => g.reorder? ids

namespace Group

/-- The elements of a group have distinct ids; those of a dynamic group are named after it and a number, have
a label, and can be relabelled. -/
structure Named (g : Group) : Prop where
  distinct : g.order.Nodup
  element : g.isDynamic = true → ∀ c ∈ g.members,
    c.label ≠ "" ∧ c.editable = true ∧ ∃ n, n < Numbering.limit ∧ c.id = Numbering.idOf g.id n

/-- The elements of a group are named, and those of a dynamic group have numbers below the next one. -/
structure Numbered (g : Group) : Prop extends Named g where
  below : ∀ s, g.numbering = some s → ∀ n, Numbering.Carried g.id g.order n → n < s.next

/-- An element is named after its group. -/
theorem Named.id_of_mem {g : Group} (hg : g.Named) (hdyn : g.isDynamic = true) {id : String}
    (h : id ∈ g.order) : ∃ n, id = Numbering.idOf g.id n := by
  obtain ⟨c, hc, rfl⟩ := List.mem_map.mp h
  obtain ⟨-, -, n, -, hid⟩ := hg.element hdyn c hc
  exact ⟨n, hid⟩

/-- The id of an element has a dash. -/
theorem Named.one_le_dashes {g : Group} (hg : g.Named) (hdyn : g.isDynamic = true) {id : String}
    (h : id ∈ g.order) : 1 ≤ dashes id := by
  obtain ⟨n, rfl⟩ := hg.id_of_mem hdyn h
  rw [Numbering.dashes_idOf]
  omega

/-- What no change of a group touches: its name, the label of its main checkbox, and whether it is
dynamic. -/
def outline (g : Group) : String × Option String × Bool :=
  (g.id, g.main.map (·.label), g.isDynamic)

theorem id_eq_of_outline {g g' : Group} (h : g'.outline = g.outline) : g'.id = g.id :=
  congrArg Prod.fst h

theorem isDynamic_eq_of_outline {g g' : Group} (h : g'.outline = g.outline) :
    g'.isDynamic = g.isDynamic :=
  congrArg (fun o => o.2.2) h

theorem outline_of_blank {g g' : Group} (h : g'.blank = g.blank) : g'.outline = g.outline := by
  have hid := id_eq_of_blank h
  have hnumbering := numbering_eq_of_blank h
  have hmain := congrArg (fun g : Group => g.main.map (·.label)) h
  simp only [blank, bare, Option.map_map, Function.comp_def] at hmain
  simp only [outline, isDynamic, hid, hnumbering, hmain]

theorem isDynamic_of_blank {g g' : Group} (h : g'.blank = g.blank) : g'.isDynamic = g.isDynamic := by
  rw [isDynamic, isDynamic, numbering_eq_of_blank h]

/-- What is known of the labels of all members holds whatever their values are. -/
theorem label_of_blank {g g' : Group} (h : g'.blank = g.blank) (read : String → String)
    (hread : ∀ c ∈ g.members, read c.id = c.label) : ∀ c ∈ g'.members, read c.id = c.label := by
  intro c hc
  obtain ⟨d, hd, hid, hlabel, -⟩ := exists_member_of_blank h hc
  rw [← hid, ← hlabel]
  exact hread d hd

@[simp] theorem outline_aggregate (g : Group) : g.aggregate.outline = g.outline :=
  outline_of_blank (blank_aggregate g)

/-- But for what follows from the rest, and for numbers, a group is its outline and its members. -/
theorem unnumbered_bare_eq {g g' : Group} (houtline : g.outline = g'.outline)
    (hmembers : g.members = g'.members) : g.unnumbered.bare = g'.unnumbered.bare := by
  have hmain : ∀ o : Option Main, o.map (fun m => { m with selected := false })
      = (o.map (·.label)).map (fun label => ⟨label, false⟩) := by
    intro o
    cases o <;> rfl
  have hnumbering : ∀ o : Option Numbering,
      o.map (fun _ => Numbering.ofNat 0) = if o.isSome then some (.ofNat 0) else none := by
    intro o
    cases o <;> rfl
  obtain ⟨hid, hrest⟩ := Prod.mk.inj houtline
  obtain ⟨hlabel, hdyn⟩ := Prod.mk.inj hrest
  unfold isDynamic at hdyn
  simp only [bare, unnumbered, hmain, hnumbering, hid, hlabel, hdyn, hmembers]

/-- Values have no part in the names of elements. -/
theorem Named.of_blank {g g' : Group} (hg : g.Named) (h : g'.blank = g.blank) : g'.Named where
  distinct := by rw [order_eq_of_blank h]; exact hg.distinct
  element := by
    intro hdyn c hc
    obtain ⟨d, hd, hid, hlabel, heditable⟩ := exists_member_of_blank h hc
    rw [← hlabel, ← heditable, ← hid, id_eq_of_blank h]
    exact hg.element (isDynamic_of_blank h ▸ hdyn) d hd

/-- Values have no part in the numbers of elements. -/
theorem Numbered.of_blank {g g' : Group} (hg : g.Numbered) (h : g'.blank = g.blank) : g'.Numbered where
  toNamed := hg.toNamed.of_blank h
  below := by
    rw [numbering_eq_of_blank h, id_eq_of_blank h, order_eq_of_blank h]
    exact hg.below

/-! ## Setting elements -/

/-- A member set to `b` is the only one that may have become selected. -/
theorem hasSelection_of_set? {g g' : Group} {id : String} {b : Bool} (h : g.set? id b = .ok g')
    (hsel : g'.hasSelection = true) : b = true ∨ g.hasSelection = true := by
  obtain ⟨-, rfl⟩ := set?_eq_ok_iff.mp h
  simp only [hasSelection, aggregate_members, modifyMember, List.any_eq_true] at hsel ⊢
  obtain ⟨c, hc, hcs⟩ := hsel
  rcases mem_modifyFirst hc with hc | ⟨d, -, -, rfl⟩
  · exact Or.inr ⟨c, hc, hcs⟩
  · exact Or.inl hcs

theorem blank_of_foldlM_set? {given : List (String × Bool)} {g g' : Group}
    (h : given.foldlM (fun g e => g.set? e.1 e.2) g = .ok g') : g'.blank = g.blank := by
  induction given generalizing g with
  | nil => rw [← Except.ok.inj h]
  | cons e rest ih =>
    rw [List.foldlM_cons] at h
    obtain ⟨g₁, hset, hrest⟩ := bind_eq_ok_iff.mp h
    rw [ih hrest, blank_of_set? hset]

theorem find?_unknown_eq_none_iff {g : Group} {given : List (String × Bool)} :
    given.find? (fun e => !g.contains e.1) = none ↔ ∀ e ∈ given, e.1 ∈ g.order := by
  rw [List.find?_eq_none]
  refine forall₂_congr fun e _ => ?_
  rw [Bool.not_eq_true', Bool.not_eq_false, contains_iff]

/-- Members that are set are all there, and they are set one after the other. -/
theorem setEach?_eq_ok_iff {g g' : Group} {given : List (String × Bool)} :
    g.setEach? given = .ok g' ↔ (∀ e ∈ given, e.1 ∈ g.order) ∧
      given.foldlM (fun g e => g.set? e.1 e.2) g = .ok g' := by
  rw [← find?_unknown_eq_none_iff, setEach?]
  cases given.find? (fun e => !g.contains e.1) with
  | none => simp
  | some e => simp

theorem blank_of_setEach? {given : List (String × Bool)} {g g' : Group} (h : g.setEach? given = .ok g') :
    g'.blank = g.blank :=
  blank_of_foldlM_set? (setEach?_eq_ok_iff.mp h).2

theorem hasSelection_of_foldlM_set? {given : List (String × Bool)} {g g' : Group}
    (h : given.foldlM (fun g e => g.set? e.1 e.2) g = .ok g') (hnone : given.any (·.2) = false)
    (hsel : g'.hasSelection = true) : g.hasSelection = true := by
  induction given generalizing g with
  | nil => rwa [← Except.ok.inj h] at hsel
  | cons e rest ih =>
    rw [List.foldlM_cons] at h
    obtain ⟨g₁, hset, hrest⟩ := bind_eq_ok_iff.mp h
    rw [List.any_cons, Bool.or_eq_false_iff] at hnone
    apply (hasSelection_of_set? hset (ih hrest hnone.2)).resolve_left
    rw [hnone.1]
    exact Bool.false_ne_true

/-! ## Adding, relabelling and removing elements -/

/-- What adding an element does. -/
theorem add?_spec {g g' : Group} {label id : String} {selected : Bool} {proposed : Option String}
    (h : g.add? label selected proposed = .ok (id, g')) :
    ∃ s s', g.numbering = some s ∧ label ≠ "" ∧ s.issue g.id proposed = (id, s') ∧
      g'.members = g.members ++ [⟨id, label, selected, true⟩] ∧ g'.numbering = some s' ∧
      g'.outline = g.outline ∧ g'.Aggregated := by
  rw [add?] at h
  split at h
  · exact absurd h (by simp)
  · rename_i s hs
    split at h
    · exact absurd h (by simp)
    · rename_i hlabel
      rw [Except.ok.injEq, Prod.mk.injEq] at h
      obtain ⟨rfl, rfl⟩ := h
      refine ⟨s, _, hs, hlabel, rfl, rfl, rfl, ?_, aggregated_aggregate _⟩
      rw [outline_aggregate]
      simp [outline, isDynamic, hs]

/-- What relabelling an element does. -/
theorem relabel?_spec {g g' : Group} {id label : String} (h : g.relabel? id label = .ok g') :
    label ≠ "" ∧ g.contains id = true ∧ g' = g.modifyMember id (fun c => { c with label := label }) := by
  rw [relabel?] at h
  split at h
  · exact absurd h (by simp)
  · rename_i c hc
    split at h
    · exact absurd h (by simp)
    · split at h
      · exact absurd h (by simp)
      · rename_i hlabel
        exact ⟨hlabel, by simp [contains, hc], (Except.ok.inj h).symm⟩

/-- What removing an element does. -/
theorem remove?_spec {g g' : Group} {id : String} {c : Checkbox} (h : g.remove? id = .ok (c, g')) :
    g.member? id = some c ∧ g'.members = g.members.eraseP (fun c => c.id = id) ∧
      g'.numbering = g.numbering ∧ g'.outline = g.outline ∧ g'.Aggregated := by
  rw [remove?] at h
  split at h
  · split at h
    · exact absurd h (by simp)
    · rename_i d hd
      rw [Except.ok.injEq, Prod.mk.injEq] at h
      obtain ⟨rfl, rfl⟩ := h
      exact ⟨hd, rfl, rfl, outline_aggregate _, aggregated_aggregate _⟩
  · exact absurd h (by simp)

/-- A member that is found is the first one of its id. -/
theorem exists_front_of_find? {id : String} {members : List Checkbox} {c : Checkbox}
    (h : members.find? (fun c => c.id = id) = some c) :
    ∃ front back, members = front ++ c :: back ∧ c.id = id ∧ ∀ d ∈ front, d.id ≠ id := by
  obtain ⟨hid, front, back, hmembers, hfront⟩ := List.find?_eq_some_iff_append.mp h
  exact ⟨front, back, hmembers, of_decide_eq_true hid, fun d hd => by simpa using hfront d hd⟩

/-- The first member of an id is the one that is taken out. -/
theorem eraseP_append_cons {id : String} {front back : List Checkbox} {c : Checkbox} (hid : c.id = id)
    (hfront : ∀ d ∈ front, d.id ≠ id) : (front ++ c :: back).eraseP (fun c => c.id = id) = front ++ back := by
  rw [List.eraseP_append_right _ fun d hd => by simpa using hfront d hd,
    List.eraseP_cons_of_pos (p := fun d : Checkbox => d.id = id) (decide_eq_true hid)]

/-- Drawing members to the front only moves them. -/
theorem drawFirst_perm (ids : List String) (rest : List Checkbox) :
    (drawFirst ids rest).Perm rest := by
  -- an id that is found is moved to the front, the other ones are left out
  induction ids generalizing rest with
  | nil => exact List.Perm.refl rest
  | cons id ids ih =>
    rw [drawFirst]
    split
    · rename_i c hc
      obtain ⟨front, back, hrest, hid, hfront⟩ := exists_front_of_find? hc
      rw [hrest, eraseP_append_cons hid hfront]
      exact ((ih (front ++ back)).cons c).trans List.perm_middle.symm
    · exact ih rest

/-- **Drawing all members to the front gives them in the order in which they are named.** -/
theorem drawFirst_ids {members members' : List Checkbox} (hperm : members'.Perm members)
    (hd : (members.map (·.id)).Nodup) : drawFirst (members'.map (·.id)) members = members' := by
  induction members' generalizing members with
  | nil =>
    rw [List.nil_perm.mp hperm]
    rfl
  | cons c rest ih =>
    have hc : c ∈ members := hperm.subset List.mem_cons_self
    have hfound : members.find? (fun d => d.id = c.id) = some c := find?_of_mem hd hc
    obtain ⟨front, back, rfl, hid, hfront⟩ := exists_front_of_find? hfound
    rw [List.map_cons, drawFirst]
    simp only [hfound, eraseP_append_cons hid hfront]
    -- the others are those that are left over
    have hrest : rest.Perm (front ++ back) := (hperm.trans List.perm_middle).cons_inv
    have hleft : (front ++ back).Sublist (front ++ c :: back) :=
      (List.sublist_cons_self c back).append_left front
    rw [ih hrest (hd.sublist (hleft.map _))]

/-- What reordering elements does. -/
theorem reorder?_spec {g g' : Group} {ids : List String} (h : g.reorder? ids = .ok g') :
    g' = { g with members := drawFirst ids g.members } := by
  rw [reorder?] at h
  split at h
  · split at h
    · exact absurd h (by simp)
    · exact (Except.ok.inj h).symm
  · exact absurd h (by simp)

/-- Labels have no part in the selection. -/
theorem hasSelection_relabelled (g : Group) (id label : String) :
    (g.modifyMember id (fun c => { c with label := label })).hasSelection = g.hasSelection := by
  have hvalues : (g.modifyMember id (fun c => { c with label := label })).members.map Checkbox.selected
      = g.members.map Checkbox.selected := map_members_modifyMember (fun _ => by rfl) g id
  have hany := congrArg (fun l => l.any (fun b => b)) hvalues
  rwa [List.any_map, List.any_map] at hany

/-! ## Elements stay named -/

/-- What is known of the new element of a numbered group: no other one has its number. -/
theorem Numbered.new_of_add? {g g' : Group} {label id : String} {selected : Bool} {proposed : Option String}
    (hg : g.Numbered) (h : g.add? label selected proposed = .ok (id, g')) :
    ∃ n, n < Numbering.limit ∧ id = Numbering.idOf g.id n ∧ (∀ m, Numbering.Carried g.id g.order m → m < n) ∧
      g'.numbering = some (.ofNat (n + 1)) := by
  obtain ⟨s, s', hs, -, hissue, -, hs', -⟩ := add?_spec h
  -- the new number is not below the next one, and all old ones are
  obtain ⟨n, hlt, hle, hid, rfl⟩ := Numbering.issue_spec hissue
  exact ⟨n, hlt, hid, fun m hm => Nat.lt_of_lt_of_le (hg.below s hs m hm) hle, hs'⟩

/-- A new element has an id of its own. -/
theorem Numbered.not_mem_of_add? {g g' : Group} {label id : String} {selected : Bool} {proposed : Option String}
    (hg : g.Numbered) (h : g.add? label selected proposed = .ok (id, g')) : id ∉ g.order := by
  obtain ⟨n, hlt, rfl, habove, -⟩ := hg.new_of_add? h
  exact fun hmem => Nat.lt_irrefl n (habove n ⟨hlt, hmem⟩)

theorem order_add? {g g' : Group} {label id : String} {selected : Bool} {proposed : Option String}
    (h : g.add? label selected proposed = .ok (id, g')) : g'.order = g.order ++ [id] := by
  obtain ⟨-, -, -, -, -, hmembers, -⟩ := add?_spec h
  rw [order, hmembers, List.map_append]
  rfl

theorem Numbered.named_add? {g g' : Group} {label id : String} {selected : Bool} {proposed : Option String}
    (hg : g.Numbered) (h : g.add? label selected proposed = .ok (id, g')) : g'.Named := by
  obtain ⟨-, -, -, hlabel, -, hmembers, -, houtline, -⟩ := add?_spec h
  obtain ⟨n, hlt, hid, -⟩ := hg.new_of_add? h
  have hnew := hg.not_mem_of_add? h
  constructor
  · rw [order_add? h, List.nodup_append']
    refine ⟨hg.distinct, List.nodup_singleton _, ?_⟩
    intro x hx hx'
    rw [List.mem_singleton.mp hx'] at hx
    exact hnew hx
  · intro hdyn c hc
    rw [id_eq_of_outline houtline]
    rw [hmembers] at hc
    rcases List.mem_append.mp hc with hc | hc
    · exact hg.element (isDynamic_eq_of_outline houtline ▸ hdyn) c hc
    · obtain rfl := List.mem_singleton.mp hc
      exact ⟨hlabel, rfl, n, hlt, hid⟩

theorem Named.relabel? {g g' : Group} {id label : String} (hg : g.Named)
    (h : g.relabel? id label = .ok g') : g'.Named := by
  obtain ⟨hlabel, -, rfl⟩ := relabel?_spec h
  constructor
  · have hids : (g.modifyMember id (fun c => { c with label := label })).order = g.order :=
      map_members_modifyMember (fun _ => by rfl) g id
    rw [hids]
    exact hg.distinct
  · intro hdyn c hc
    rcases mem_modifyFirst hc with hc | ⟨d, hd, -, rfl⟩
    · exact hg.element hdyn c hc
    · obtain ⟨-, heditable, hid⟩ := hg.element hdyn d hd
      exact ⟨hlabel, heditable, hid⟩

/-- Elements that are left over stay named. -/
theorem Named.of_subset {g : Group} {members : List Checkbox} (hg : g.Named)
    (hsub : members ⊆ g.members) (hdistinct : (members.map Checkbox.id).Nodup) :
    Named { g with members := members } :=
  ⟨hdistinct, fun hdyn c hc => hg.element hdyn c (hsub hc)⟩

/-! ## What every edit keeps -/

/-- Setting elements sets values only. -/
theorem blank_of_edit?_set {g g' : Group} {values : Dict Bool} (h : g.edit? (.set values) = .ok g') :
    g'.blank = g.blank := by
  rw [edit?] at h
  split at h
  · exact absurd h (by simp)
  · exact blank_of_setEach? h

/-- **No edit touches the outline of its group.** -/
theorem outline_edit? {g g' : Group} {e : Edit} (h : g.edit? e = .ok g') : g'.outline = g.outline := by
  cases e with
  | set values => exact outline_of_blank (blank_of_edit?_set h)
  | add label selected proposed =>
    obtain ⟨⟨id, g'⟩, hadd, rfl⟩ := map_eq_ok_iff.mp h
    obtain ⟨_, _, _, _, _, _, _, houtline, _⟩ := add?_spec hadd
    exact houtline
  | amend id label selected =>
    obtain ⟨g₁, hlabel, hset⟩ := bind_eq_ok_iff.mp h
    obtain ⟨_, _, rfl⟩ := relabel?_spec hlabel
    have houtline := outline_of_blank (blank_of_set? hset)
    exact houtline
  | remove id =>
    obtain ⟨⟨c, g'⟩, hremove, rfl⟩ := map_eq_ok_iff.mp h
    obtain ⟨_, _, _, houtline, _⟩ := remove?_spec hremove
    exact houtline
  | reorder ids =>
    rw [reorder?_spec h]
    rfl

/-- **An edit that does not say so selects nothing.** -/
theorem hasSelection_of_edit? {g g' : Group} {e : Edit} (h : g.edit? e = .ok g')
    (hnone : e.selects g.id = false) (hsel : g'.hasSelection = true) : g.hasSelection = true := by
  cases e with
  | set values =>
    rw [edit?] at h
    split at h
    · exact absurd h (by simp)
    · exact hasSelection_of_foldlM_set? (setEach?_eq_ok_iff.mp h).2 hnone hsel
  | add label selected proposed =>
    obtain ⟨⟨id, g'⟩, hadd, rfl⟩ := map_eq_ok_iff.mp h
    obtain ⟨_, _, _, _, _, hmembers, _, _, _⟩ := add?_spec hadd
    have hoff : selected = false := hnone
    simpa [hasSelection, hmembers, hoff] using hsel
  | amend id label selected =>
    obtain ⟨g₁, hlabel, hset⟩ := bind_eq_ok_iff.mp h
    obtain ⟨_, _, rfl⟩ := relabel?_spec hlabel
    have hoff : selected = false := hnone
    have hsel₁ := (hasSelection_of_set? hset hsel).resolve_left (by rw [hoff]; exact Bool.false_ne_true)
    rwa [hasSelection_relabelled] at hsel₁
  | remove id =>
    obtain ⟨⟨c, g'⟩, hremove, rfl⟩ := map_eq_ok_iff.mp h
    obtain ⟨_, hmembers, _, _, _⟩ := remove?_spec hremove
    obtain ⟨d, hd, hds⟩ := List.any_eq_true.mp hsel
    rw [hmembers] at hd
    exact List.any_eq_true.mpr ⟨d, List.eraseP_sublist.subset hd, hds⟩
  | reorder ids =>
    rw [reorder?_spec h] at hsel
    rwa [hasSelection, (drawFirst_perm ids g.members).any_eq] at hsel

/-- **Every edit of a numbered group leaves its elements named.** -/
theorem Numbered.named_edit? {g g' : Group} {e : Edit} (hg : g.Numbered) (h : g.edit? e = .ok g') :
    g'.Named := by
  cases e with
  | set values => exact hg.toNamed.of_blank (blank_of_edit?_set h)
  | add label selected proposed =>
    obtain ⟨⟨id, g'⟩, hadd, rfl⟩ := map_eq_ok_iff.mp h
    exact hg.named_add? hadd
  | amend id label selected =>
    obtain ⟨g₁, hlabel, hset⟩ := bind_eq_ok_iff.mp h
    exact (hg.toNamed.relabel? hlabel).of_blank (blank_of_set? hset)
  | remove id =>
    obtain ⟨⟨c, g'⟩, hremove, rfl⟩ := map_eq_ok_iff.mp h
    obtain ⟨_, hmembers, _, houtline, _⟩ := remove?_spec hremove
    have hleft : g.members.eraseP (fun c => c.id = id) ⊆ g.members := List.eraseP_sublist.subset
    have hkept := hg.toNamed.of_subset hleft (hg.distinct.sublist (List.eraseP_sublist.map _))
    refine ⟨?_, fun hdyn => ?_⟩
    · rw [order, hmembers]
      exact hkept.distinct
    · rw [hmembers, id_eq_of_outline houtline]
      exact hkept.element (isDynamic_eq_of_outline houtline ▸ hdyn)
  | reorder ids =>
    rw [reorder?_spec h]
    have hperm := drawFirst_perm ids g.members
    exact hg.toNamed.of_subset hperm.subset ((hperm.map Checkbox.id).nodup_iff.mpr hg.distinct)

/-- An edit adds an element, or it leaves some of the ids, in some order, and the numbering. -/
theorem order_edit? {g g' : Group} {e : Edit} (h : g.edit? e = .ok g') :
    (∃ label selected proposed id, e = .add label selected proposed ∧
      g.add? label selected proposed = .ok (id, g')) ∨ (g'.order ⊆ g.order ∧ g'.numbering = g.numbering) := by
  cases e with
  | set values =>
    have hblank := blank_of_edit?_set h
    refine Or.inr ⟨?_, numbering_eq_of_blank hblank⟩
    rw [order_eq_of_blank hblank]
    exact List.Subset.refl _
  | add label selected proposed =>
    obtain ⟨⟨id, g'⟩, hadd, rfl⟩ := map_eq_ok_iff.mp h
    exact Or.inl ⟨label, selected, proposed, id, rfl, hadd⟩
  | amend id label selected =>
    obtain ⟨g₁, hlabel, hset⟩ := bind_eq_ok_iff.mp h
    obtain ⟨-, -, rfl⟩ := relabel?_spec hlabel
    have hblank := blank_of_set? hset
    have hids : (g.modifyMember id (fun c => { c with label := label })).order = g.order :=
      map_members_modifyMember (fun _ => by rfl) g id
    have hnumbering := numbering_eq_of_blank hblank
    refine Or.inr ⟨?_, hnumbering⟩
    rw [order_eq_of_blank hblank, hids]
    exact List.Subset.refl _
  | remove id =>
    obtain ⟨⟨c, g'⟩, hremove, rfl⟩ := map_eq_ok_iff.mp h
    obtain ⟨-, hmembers, hnumbering, -⟩ := remove?_spec hremove
    refine Or.inr ⟨?_, hnumbering⟩
    rw [order, hmembers]
    exact (List.eraseP_sublist.map _).subset
  | reorder ids =>
    rw [reorder?_spec h]
    exact Or.inr ⟨((drawFirst_perm ids g.members).map Checkbox.id).subset, rfl⟩

/-- **Every edit keeps the elements numbered**, unless the last number is handed out. The next number stays when
the element with the greatest one goes. -/
theorem Numbered.edit? {g g' : Group} {e : Edit} (hg : g.Numbered) (h : g.edit? e = .ok g')
    (hrange : Numbering.InRange g'.id g'.order) : g'.Numbered where
  toNamed := hg.named_edit? h
  below := by
    intro s hs n hn
    have hid := id_eq_of_outline (outline_edit? h)
    rw [hid] at hn hrange
    obtain ⟨label, selected, proposed, id, -, hadd⟩ | ⟨hsub, hnumbering⟩ := order_edit? h
    · obtain ⟨m, hlt, rfl, habove, hnext⟩ := hg.new_of_add? hadd
      rw [order_add? hadd] at hn hrange
      have hroom : m + 1 < Numbering.limit := hrange m ⟨hlt, List.mem_append_right _ List.mem_cons_self⟩
      obtain rfl : s = .ofNat (m + 1) := Option.some.inj (hs.symm.trans hnext)
      rw [Numbering.next_ofNat_succ hroom]
      rcases List.mem_append.mp hn.2 with hold | hnew
      · exact Nat.lt_succ_of_lt (habove n ⟨hn.1, hold⟩)
      · rw [Numbering.idOf_number_inj (List.mem_singleton.mp hnew)]
        exact Nat.lt_succ_self m
    · exact hg.below s (hnumbering ▸ hs) n (hn.mono hsub)

/-! ## What an edit does not look at -/

/-- A group with other numbers, and enabled or disabled in another way. -/
def revised (on : Bool → Bool) (number : Numbering → Numbering) (g : Group) : Group :=
  { g with enabled := on g.enabled, numbering := g.numbering.map number }

section Revised

variable (on : Bool → Bool) (number : Numbering → Numbering)

@[simp] theorem isDynamic_revised (g : Group) : (g.revised on number).isDynamic = g.isDynamic := by
  simp [isDynamic, revised]

@[simp] theorem member?_revised (g : Group) (id : String) : (g.revised on number).member? id = g.member? id := rfl

@[simp] theorem contains_revised (g : Group) (id : String) :
    (g.revised on number).contains id = g.contains id := rfl

theorem set?_revised (g : Group) (id : String) (b : Bool) :
    (g.revised on number).set? id b = (g.set? id b).map (revised on number) := by
  rw [set?, set?, contains_revised]
  cases g.contains id <;> rfl

theorem foldlM_set?_revised (g : Group) (given : List (String × Bool)) :
    given.foldlM (fun (g : Group) e => g.set? e.1 e.2) (g.revised on number)
      = (given.foldlM (fun (g : Group) e => g.set? e.1 e.2) g).map (revised on number) := by
  induction given generalizing g with
  | nil => rfl
  | cons e rest ih =>
    rw [List.foldlM_cons, List.foldlM_cons, set?_revised]
    cases g.set? e.1 e.2 with
    | error r => rfl
    | ok g₁ => exact ih g₁

theorem setEach?_revised (g : Group) (given : List (String × Bool)) :
    (g.revised on number).setEach? given = (g.setEach? given).map (revised on number) := by
  unfold setEach?
  simp only [contains_revised, foldlM_set?_revised]
  cases given.find? (fun e => !g.contains e.1) <;> rfl

theorem relabel?_revised (g : Group) (id label : String) :
    (g.revised on number).relabel? id label = (g.relabel? id label).map (revised on number) := by
  unfold relabel?
  rw [member?_revised]
  cases g.member? id with
  | none => rfl
  | some c =>
    by_cases hoff : (!c.editable) = true
    · simp only [if_pos hoff]
      rfl
    · by_cases hlabel : label = ""
      · simp only [if_neg hoff, if_pos hlabel]
        rfl
      · simp only [if_neg hoff, if_neg hlabel]
        rfl

theorem remove?_revised (g : Group) (id : String) :
    ((g.revised on number).remove? id).map (·.2) = ((g.remove? id).map (·.2)).map (revised on number) := by
  rw [remove?, remove?, isDynamic_revised, member?_revised]
  split
  · cases g.member? id <;> rfl
  · rfl

theorem reorder?_revised (g : Group) (ids : List String) :
    (g.revised on number).reorder? ids = (g.reorder? ids).map (revised on number) := by
  rw [reorder?, reorder?, isDynamic_revised]
  simp only [contains_revised]
  split
  · cases ids.find? (fun id => !g.contains id) <;> rfl
  · rfl

/-- **An edit does not look at numbers, nor at whether the group is enabled**, except that adding an element
numbers it and that setting values asks for an enabled group. -/
theorem edit?_revised {g : Group} {e : Edit} (hadd : ∀ label selected proposed, e ≠ .add label selected proposed)
    (hset : ∀ values, e = .set values → on g.enabled = g.enabled) :
    (g.revised on number).edit? e = (g.edit? e).map (revised on number) := by
  cases e with
  | set values =>
    show (if !on g.enabled then _ else _) = _
    rw [hset values rfl, edit?]
    split
    · rfl
    · exact setEach?_revised on number g _
  | add label selected proposed => exact absurd rfl (hadd label selected proposed)
  | amend id label selected =>
    simp only [edit?, relabel?_revised]
    cases g.relabel? id label with
    | error r => rfl
    | ok g₁ => exact set?_revised on number g₁ id selected
  | remove id => exact remove?_revised on number g id
  | reorder ids => exact reorder?_revised on number g ids

end Revised

end Group

end AnyCase
