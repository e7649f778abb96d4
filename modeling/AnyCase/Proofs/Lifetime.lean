import AnyCase.Proofs.Filters
import AnyCase.Proofs.Refused

/-!
# `Proofs.Lifetime` — the ids of a dynamic group over its life

Elements come and go, and clients may name one that is gone. So an id must not be given to another element,
not even long after the first one was removed. Fresh ids come from two places, the next number and the
proposals of clients, and the members a group starts with may have any ids at all.

What carries the argument is the list of the ids *past*: those of the first members and all that were issued
since. `Group.Tracked` says that the group has no others and that its next number is one more than the greatest
number in them. One call keeps this (`Tracked.step`), and therefore any calls do (`Tracked.run`).

## Contents

* `Numbering.IsNext` — the number after those in some ids;
* `Group.Call`, `Group.step`, `Group.run` — the calls that change a group, refused ones included;
* `Group.issued`, `Group.everContained` — the ids that calls issue, and those that the group has at any time;
* `Group.ids_never_reused` — the main result.
-/

namespace AnyCase

/-! ## Numbers in ids -/

namespace Numbering

variable {group : String} {ids : List String} {n : Nat}

/-- Whether a number is one more than the greatest one in some ids, or 0 if there is none in them. -/
def IsNext (group : String) (ids : List String) (n : Nat) : Prop :=
  (∀ m, Carried group ids m → m < n) ∧ (n = 0 ∨ ∃ m, Carried group ids m ∧ n = m + 1)

/-- **A numbering that is made from ids goes on with the number after them**, if there is one. -/
theorem isNext_after (h : InRange group ids) : IsNext group ids (after group ids).next := by
  refine ⟨fun m hm => lt_next_after h hm, ?_⟩
  rw [next_after h]
  rcases foldr_max_mem ((ids.filterMap (numberOf? group)).map (· + 1)) with hnone | hmem
  · exact Or.inl hnone
  · obtain ⟨m, hm, heq⟩ := List.mem_map.mp hmem
    obtain ⟨id, hid, hnumber⟩ := List.mem_filterMap.mp hm
    exact Or.inr ⟨m, carried_iff.mpr ⟨id, hid, hnumber⟩, heq.symm⟩

/-- No number above those in some ids is below the next one. -/
theorem IsNext.le_of_above {k : Nat} (h : IsNext group ids n) (habove : ∀ m, Carried group ids m → m < k) :
    n ≤ k := by
  rcases h.2 with rfl | ⟨m, hm, rfl⟩
  · exact Nat.zero_le k
  · exact habove m hm

/-- An id whose number is above all those in some ids is not one of them. -/
theorem idOf_not_mem (hlt : n < limit) (habove : ∀ m, Carried group ids m → m < n) : idOf group n ∉ ids :=
  fun hmem => Nat.lt_irrefl n (habove n ⟨hlt, hmem⟩)

/-- After an id was issued, the number after its own is the next one. -/
theorem IsNext.issued (hlt : n < limit) (habove : ∀ m, Carried group ids m → m < n) :
    IsNext group (ids ++ [idOf group n]) (n + 1) := by
  constructor
  · rintro m ⟨hm, hmem⟩
    rcases List.mem_append.mp hmem with hold | hnew
    · exact Nat.lt_succ_of_lt (habove m ⟨hm, hold⟩)
    · have hmn : m = n := idOf_number_inj (List.mem_singleton.mp hnew)
      omega
  · exact Or.inr ⟨n, ⟨hlt, List.mem_append_right _ List.mem_cons_self⟩, rfl⟩

end Numbering

/-! ## Calls -/

namespace Group

/-- The calls that change the members of a group. -/
inductive Call
  | add (label : String) (selected : Bool) (proposed : Option String)
  | remove (id : String)
  | relabel (id label : String)
  | reorder (ids : List String)
  | set (id : String) (selected : Bool)
  | setAll (selected : Bool)
  deriving DecidableEq

/-- What a call makes of a group, or why it is refused. -/
def call? (g : Group) : Call → Except Refusal Group
  | .add label selected proposed => (g.add? label selected proposed).map (·.2)
  | .remove id => (g.remove? id).map (·.2)
  | .relabel id label => g.relabel? id label
  | .reorder ids => g.reorder? ids
  | .set id selected => g.set? id selected
  | .setAll selected => .ok (g.setAll selected)

/-- The group after a call; one that is refused leaves it as it is. -/
def step (g : Group) (c : Call) : Group :=
  match g.call? c with
  | .ok g' => g'
  | .error _ => g

/-- The group after some calls. -/
def run (g : Group) (calls : List Call) : Group := calls.foldl step g

/-- The id that a call issues. -/
def issue? (g : Group) : Call → Option String
  | .add label selected proposed =>
    match g.add? label selected proposed with
    | .ok (id, _) => some id
    | .error _ => none
  | _ => none

/-- The ids that some calls issue, in order. -/
def issued : Group → List Call → List String
  | _, [] => []
  | g, c :: rest => (g.issue? c).toList ++ issued (g.step c) rest

/-- The ids that the group has before, between and after some calls. -/
def everContained : Group → List Call → List String
  | g, [] => g.order
  | g, c :: rest => g.order ++ everContained (g.step c) rest

theorem run_append (g : Group) (l l' : List Call) : g.run (l ++ l') = (g.run l).run l' :=
  List.foldl_append

theorem issued_append (g : Group) (l l' : List Call) :
    g.issued (l ++ l') = g.issued l ++ (g.run l).issued l' := by
  induction l generalizing g with
  | nil => rfl
  | cons c rest ih =>
    show _ ++ issued _ (rest ++ l') = (_ ++ _) ++ _
    rw [ih, List.append_assoc]
    rfl

/-! ## One call -/

variable {g g' : Group} {c : Call} {group : String} {past : List String}

/-- What a call does to the ids of a group: it issues one, which comes last, or it leaves some of them, in
some order, and the numbering. -/
theorem call?_spec (h : g.call? c = .ok g') :
    g'.id = g.id ∧
      ((g.issue? c = none ∧ g'.numbering = g.numbering ∧ g'.order.Subperm g.order) ∨
        ∃ proposed id s s', g.issue? c = some id ∧ g.numbering = some s ∧
          s.issue g.id proposed = (id, s') ∧ g'.numbering = some s' ∧ g'.order = g.order ++ [id]) := by
  -- whatever sets values only leaves all ids and the numbering
  have hblank : ∀ {h : Group}, h.blank = g.blank → h.id = g.id ∧
      h.numbering = g.numbering ∧ h.order.Subperm g.order := by
    intro h hb
    refine ⟨id_eq_of_blank hb, numbering_eq_of_blank hb, ?_⟩
    rw [order_eq_of_blank hb]
  cases c with
  | add label selected proposed =>
    obtain ⟨⟨id, g₁⟩, hadd, rfl⟩ := map_eq_ok_iff.mp h
    obtain ⟨s, s', hs, -, hissue, hmembers, hs', houtline, -⟩ := add?_spec hadd
    refine ⟨id_eq_of_outline houtline, Or.inr ⟨proposed, id, s, s', ?_, hs, hissue, hs', ?_⟩⟩
    · simp only [issue?, hadd]
    · rw [order, hmembers, List.map_append]
      rfl
  | remove id =>
    obtain ⟨⟨removed, g₁⟩, hremove, rfl⟩ := map_eq_ok_iff.mp h
    obtain ⟨-, hmembers, hnumbering, houtline, -⟩ := remove?_spec hremove
    refine ⟨id_eq_of_outline houtline, Or.inl ⟨rfl, hnumbering, ?_⟩⟩
    rw [order, hmembers]
    exact (List.eraseP_sublist.map _).subperm
  | relabel id label =>
    obtain ⟨-, -, rfl⟩ := relabel?_spec h
    refine ⟨rfl, Or.inl ⟨rfl, rfl, ?_⟩⟩
    have hids : (g.modifyMember id (fun c => { c with label := label })).order = g.order :=
      map_members_modifyMember (fun _ => by rfl) g id
    rw [hids]
  | reorder ids =>
    rw [reorder?_spec h]
    exact ⟨rfl, Or.inl ⟨rfl, rfl, ((drawFirst_perm ids g.members).map Checkbox.id).subperm⟩⟩
  | set id selected =>
    obtain ⟨hid, hrest⟩ := hblank (blank_of_set? h)
    exact ⟨hid, Or.inl ⟨rfl, hrest⟩⟩
  | setAll selected =>
    obtain rfl := Except.ok.inj h
    obtain ⟨hid, hrest⟩ := hblank (blank_setAll g selected)
    exact ⟨hid, Or.inl ⟨rfl, hrest⟩⟩

/-- A call that is refused issues no id. -/
theorem issue?_of_error {r : Refusal} (h : g.call? c = .error r) : g.issue? c = none := by
  cases c with
  | add label selected proposed =>
    have hadd : g.add? label selected proposed = .error r := map_eq_error_iff.mp h
    simp only [issue?, hadd]
  | _ => rfl

/-- After a call a group has no ids but those it had and the one that was issued. -/
theorem order_step_subset (g : Group) (c : Call) : (g.step c).order ⊆ g.order ++ (g.issue? c).toList := by
  unfold step
  split
  · rename_i g' hc
    obtain ⟨-, ⟨-, -, hsub⟩ | ⟨_, id, _, _, hissue, -, -, -, horder⟩⟩ := call?_spec hc
    · exact fun x hx => List.mem_append_left _ (hsub.subset hx)
    · rw [horder, hissue]
      exact List.Subset.refl _
  · exact List.subset_append_left _ _

/-! ## Any calls -/

/-- A group with ids of the past only, which are distinct, and with the number after all that are in them. -/
structure Tracked (group : String) (past : List String) (g : Group) : Prop where
  id : g.id = group
  numbering : ∃ s, g.numbering = some s ∧ Numbering.IsNext group past s.next
  distinct : g.order.Nodup
  order : g.order ⊆ past

/-- A group starts with the ids of its first members. -/
theorem tracked_dynamic {mainLabel : Option String} {members : List Checkbox}
    (hd : (members.map (·.id)).Nodup) (hrange : Numbering.InRange group (members.map (·.id))) :
    Tracked group (members.map (·.id)) (dynamic group mainLabel members) :=
  ⟨rfl, ⟨Numbering.after group (members.map (·.id)), rfl, Numbering.isNext_after hrange⟩, hd,
    List.Subset.refl _⟩

/-- What is known of an id that a tracked group issues. Its number is above all past ones, so it is none of
the past ids. -/
theorem Tracked.issue_spec (h : Tracked group past g) {s s' : Numbering} (hs : g.numbering = some s)
    {proposed : Option String} {id : String} (hissue : s.issue g.id proposed = (id, s')) :
    ∃ n, n < Numbering.limit ∧ (∀ m, Numbering.Carried group past m → m < n) ∧
      id = Numbering.idOf group n ∧ s' = .ofNat (n + 1) := by
  obtain ⟨t, ht, hnext⟩ := h.numbering
  obtain rfl : s = t := Option.some.inj (hs.symm.trans ht)
  rw [h.id] at hissue
  obtain ⟨n, hlt, hle, hid, hs'⟩ := Numbering.issue_spec hissue
  exact ⟨n, hlt, fun m hm => Nat.lt_of_lt_of_le (hnext.1 m hm) hle, hid, hs'⟩

/-- What an element that is added to a tracked group gets: an id that is none of the past, which is the
proposed one exactly if that has a number above all past ones, and otherwise has the next number. -/
theorem Tracked.add?_spec (h : Tracked group past g) {label : String} {selected : Bool}
    {proposed : Option String} {id : String} (hadd : g.add? label selected proposed = .ok (id, g')) :
    id ∉ past ∧
      (∀ name, proposed = some name → (id = name ↔ ∃ n, n < Numbering.limit ∧
        name = Numbering.idOf group n ∧ ∀ m, Numbering.Carried group past m → m < n)) ∧
      (proposed ≠ some id → ∃ n, id = Numbering.idOf group n ∧ Numbering.IsNext group past n) := by
  obtain ⟨s, s', hs, -, hissue, -⟩ := Group.add?_spec hadd
  obtain ⟨n, hlt, habove, rfl, rfl⟩ := h.issue_spec hs hissue
  obtain ⟨t, ht, hnext⟩ := h.numbering
  obtain rfl : s = t := Option.some.inj (hs.symm.trans ht)
  rw [h.id] at hissue
  refine ⟨Numbering.idOf_not_mem hlt habove, ?_, ?_⟩
  · rintro name rfl
    constructor
    · rintro rfl
      exact ⟨n, hlt, rfl, habove⟩
    · rintro ⟨k, hk, rfl, hkabove⟩
      rcases Numbering.issue_cases hissue with ⟨_, -, -, hkept, -, -⟩ | ⟨hnot, -, -⟩
      · exact (Option.some.inj hkept).symm
      · exact absurd rfl (hnot k hk (hnext.le_of_above hkabove))
  · intro hother
    rcases Numbering.issue_cases hissue with ⟨_, -, -, hkept, -, -⟩ | ⟨-, hid, -⟩
    · exact absurd hkept hother
    · exact ⟨s.next, hid, hnext⟩

/-- **A call keeps a group tracked**, with the id that it issues among those of the past, unless that has the
last number. -/
theorem Tracked.step (h : Tracked group past g) (c : Call)
    (hrange : Numbering.InRange group (past ++ (g.issue? c).toList)) :
    Tracked group (past ++ (g.issue? c).toList) (g.step c) := by
  have horder : (g.step c).order ⊆ past ++ (g.issue? c).toList := fun x hx =>
    (List.mem_append.mp (order_step_subset g c hx)).elim
      (fun hold => List.mem_append_left _ (h.order hold)) (List.mem_append_right _)
  unfold Group.step at horder ⊢
  split at horder
  · rename_i g' hc
    obtain ⟨hid, ⟨hnone, hnumbering, hsub⟩ | ⟨proposed, id, s, s', hissue, hs, hgiven, hs', heq⟩⟩ :=
      call?_spec hc
    · obtain ⟨l, hperm, hl⟩ := hsub
      refine ⟨hid.trans h.id, ?_, hperm.nodup_iff.mp (h.distinct.sublist hl), horder⟩
      rw [hnone, hnumbering, Option.toList_none, List.append_nil]
      exact h.numbering
    · obtain ⟨n, hlt, habove, rfl, rfl⟩ := h.issue_spec hs hgiven
      have hnew := Numbering.idOf_not_mem hlt habove
      refine ⟨hid.trans h.id, ⟨_, hs', ?_⟩, ?_, horder⟩
      · rw [hissue, Option.toList_some] at hrange ⊢
        have hnext := Numbering.IsNext.issued hlt habove
        rwa [Numbering.next_ofNat_succ (hrange n ⟨hlt, List.mem_append_right _ List.mem_cons_self⟩)]
      · rw [heq, List.nodup_append']
        refine ⟨h.distinct, List.nodup_singleton _, ?_⟩
        intro x hx hx'
        rw [List.mem_singleton.mp hx'] at hx
        exact hnew (h.order hx)
  · rename_i r hc
    rw [issue?_of_error hc, Option.toList_none, List.append_nil]
    exact h

/-- **Any calls keep a group tracked**, with the ids that they issue among those of the past. -/
theorem Tracked.run {calls : List Call} (h : Tracked group past g)
    (hrange : Numbering.InRange group (past ++ g.issued calls)) :
    Tracked group (past ++ g.issued calls) (g.run calls) := by
  induction calls generalizing g past with
  | nil =>
    rw [issued, List.append_nil]
    exact h
  | cons c rest ih =>
    rw [issued, ← List.append_assoc] at hrange ⊢
    have hstep := h.step c (hrange.mono (List.subset_append_left _ _))
    exact ih hstep hrange

/-- What a group has at any time is of the past at the end. -/
theorem Tracked.everContained_subset {calls : List Call} (h : Tracked group past g)
    (hrange : Numbering.InRange group (past ++ g.issued calls)) :
    g.everContained calls ⊆ past ++ g.issued calls := by
  induction calls generalizing g past with
  | nil => exact fun x hx => List.mem_append_left _ (h.order hx)
  | cons c rest ih =>
    rw [issued, ← List.append_assoc] at hrange ⊢
    have hstep := h.step c (hrange.mono (List.subset_append_left _ _))
    intro x hx
    rcases List.mem_append.mp hx with hnow | hlater
    · exact List.mem_append_left _ (List.mem_append_left _ (h.order hnow))
    · exact ih hstep hrange hlater

/-- **An id of the past that is gone does not come back.** -/
theorem Tracked.not_mem_order_run {calls : List Call} (h : Tracked group past g)
    (hrange : Numbering.InRange group (past ++ g.issued calls)) {id : String}
    (hpast : id ∈ past) (hgone : id ∉ g.order) : id ∉ (g.run calls).order := by
  induction calls generalizing g past with
  | nil => exact hgone
  | cons c rest ih =>
    rw [issued, ← List.append_assoc] at hrange
    have hstep := h.step c (hrange.mono (List.subset_append_left _ _))
    refine ih hstep hrange (List.mem_append_left _ hpast) fun hmem => ?_
    -- what a call adds is issued by it, and an id that is issued is none of the past
    have hissued := (List.mem_append.mp (order_step_subset g c hmem)).resolve_left hgone
    rw [Option.mem_toList] at hissued
    cases hc : g.call? c with
    | error r =>
      rw [issue?_of_error hc] at hissued
      exact absurd hissued (by simp)
    | ok g' =>
      obtain ⟨-, ⟨hnone, -⟩ | ⟨proposed, id', s, s', hid', hs, hgiven, -⟩⟩ := call?_spec hc
      · rw [hnone] at hissued
        exact absurd hissued (by simp)
      · obtain ⟨n, hlt, habove, rfl, -⟩ := h.issue_spec hs hgiven
        rw [hid'] at hissued
        exact Numbering.idOf_not_mem hlt habove (Option.some.inj hissued ▸ hpast)

/-- If numbers stay in range until the end, they are in range before it. -/
theorem inRange_of_append {l l' : List Call}
    (hrange : Numbering.InRange group (past ++ g.issued (l ++ l'))) :
    Numbering.InRange group (past ++ g.issued l) := by
  rw [issued_append, ← List.append_assoc] at hrange
  exact hrange.mono (List.subset_append_left _ _)

/-- **An id that was there and is gone is never there again.** -/
theorem Tracked.stays_gone {before between later : List Call} (h : Tracked group past g)
    (hrange : Numbering.InRange group (past ++ g.issued (before ++ between ++ later))) {id : String}
    (hhad : id ∈ (g.run before).order) (hgone : id ∉ (g.run (before ++ between)).order) :
    id ∉ (g.run (before ++ between ++ later)).order := by
  have hthen := inRange_of_append hrange
  -- it was there, so it is of the past when it is gone
  have hpast : id ∈ past ++ g.issued (before ++ between) := by
    rw [issued_append, ← List.append_assoc]
    exact List.mem_append_left _ ((h.run (inRange_of_append hthen)).order hhad)
  rw [issued_append, ← List.append_assoc] at hrange
  rw [run_append]
  exact (h.run hthen).not_mem_order_run hrange hpast hgone

/-- An element that is not there is neither relabelled nor removed. -/
theorem refused_of_not_mem (hdyn : g.isDynamic = true) {id : String} (h : id ∉ g.order) :
    (∀ label, g.relabel? id label = .error (.noElement g.id id)) ∧
      g.remove? id = .error (.noElement g.id id) := by
  have hnone : g.member? id = none := member?_eq_none_iff.mpr h
  constructor
  · intro label
    simp only [relabel?, hnone]
  · simp only [remove?, hdyn, hnone, if_true]

/-- **No id is ever given twice.** Whatever was done to a group, its ids are distinct; an element that is added
gets an id that the group has never had; a proposed id is kept exactly if it has a number above all that the
first members and the ids issued since have, and otherwise the new number is the next one after those. So an
id whose element is gone names nothing any more, and a late change of it is refused. -/
theorem ids_never_reused {mainLabel : Option String} {members : List Checkbox}
    (hd : (members.map (·.id)).Nodup) {calls : List Call}
    (hrange : ∀ n, Numbering.Carried group
      (members.map (·.id) ++ (dynamic group mainLabel members).issued calls) n → n + 1 < Numbering.limit) :
    let first := dynamic group mainLabel members
    let past := members.map (·.id) ++ first.issued calls
    let g := first.run calls
    g.order.Nodup ∧
    (∀ label selected proposed id g', g.add? label selected proposed = .ok (id, g') →
      id ∉ first.everContained calls ∧
      (∀ name, proposed = some name → (id = name ↔ ∃ n, n < Numbering.limit ∧
        name = Numbering.idOf group n ∧ ∀ m, Numbering.Carried group past m → m < n)) ∧
      (proposed ≠ some id → ∃ n, id = Numbering.idOf group n ∧ Numbering.IsNext group past n)) ∧
    (∀ before between after id, calls = before ++ between ++ after → id ∈ (first.run before).order →
      id ∉ (first.run (before ++ between)).order →
        (∀ label, g.relabel? id label = .error (.noElement group id)) ∧
          g.remove? id = .error (.noElement group id)) := by
  intro first past g
  have hinitial : Numbering.InRange group (members.map (·.id)) := fun n hn =>
    hrange n (hn.mono (List.subset_append_left _ _))
  have hfirst : Tracked group (members.map (·.id)) first := tracked_dynamic hd hinitial
  have htracked : Tracked group past g := hfirst.run hrange
  refine ⟨htracked.distinct, ?_, ?_⟩
  · intro label selected proposed id g' hadd
    obtain ⟨hnew, hproposed, hnext⟩ := htracked.add?_spec hadd
    exact ⟨fun hmem => hnew (hfirst.everContained_subset hrange hmem), hproposed, hnext⟩
  · rintro before between later id rfl hhad hgone
    obtain ⟨s, hs, -⟩ := htracked.numbering
    have hnot : id ∉ g.order := hfirst.stays_gone hrange hhad hgone
    have hrefused := refused_of_not_mem (Option.isSome_iff_exists.mpr ⟨s, hs⟩) hnot
    rwa [htracked.id] at hrefused

/-- It holds of a group that starts with an element of number 4 and one whose id only looks like one of number
7. Its first new element is removed, and the next proposal, the id of the one that is gone, is not kept. -/
theorem ids_never_reused_after_removal :
    let first := dynamic "files" none [⟨"files-4", "*.rs", true, true⟩, ⟨"files-07", "*.md", false, true⟩]
    let calls := [.add "*.c" true none, .remove "files-5", .add "*.h" true (some "files-5"), .remove "files-9"]
    (first.issued calls = ["files-5", "files-6"] ∧ (first.run calls).order = ["files-4", "files-07", "files-6"]) ∧
      (∀ label, (first.run calls).relabel? "files-5" label = .error (.noElement "files" "files-5")) ∧
        (first.run calls).remove? "files-5" = .error (.noElement "files" "files-5") := by
  intro first calls
  have hissued : first.issued calls = ["files-5", "files-6"] := by decide
  refine ⟨⟨hissued, by decide⟩, ?_⟩
  have hrange : Numbering.InRange "files" (first.order ++ first.issued calls) := by
    rw [hissued]
    decide
  exact (ids_never_reused (by decide) hrange).2.2 [.add "*.c" true none] [.remove "files-5"]
    [.add "*.h" true (some "files-5"), .remove "files-9"] "files-5" rfl (by decide) (by decide)

end Group

end AnyCase
