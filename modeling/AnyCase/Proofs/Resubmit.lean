import AnyCase.Proofs.Foresight

/-!
# `Proofs.Resubmit` — the main form applied twice

Applying the main form overwrites members and then unselects the groups that lose an exclusion. All losers are
found before any of them is unselected, so a group may lose to one that loses itself. When the same form is
applied again the winner is gone, and if the form asks for a member of the group that lost, that one is selected
now. Such a group *comes back* (`Form.ComesBack`).

`submitted_twice_iff` says that this is the only way in which applying a form twice differs from applying it
once. Where no group comes back, the panel is the same in all its parts, so clients see the same, the same
search is run, and the store is left as it is. `submitted_twice_ne` is a form for which a group comes back.
-/

namespace AnyCase

open Layout

/-! ## Writing what is there -/

namespace Store

variable {s : Store} {key : String} {v : Json} {members : List Checkbox}

/-- Whether a store has been written since it was opened, so that its file has its values. -/
def Written (s : Store) : Prop := Medium.written s.values s.medium = s.medium

theorem written_withValues (s : Store) (values : Dict Json) : (s.withValues values).Written := by
  obtain ⟨old, medium⟩ := s
  cases medium <;> rfl

theorem written_setValues (h : s.Written) (members : List Checkbox) : (s.setValues members).Written := by
  induction members generalizing s with
  | nil => exact h
  | cons c rest ih => exact ih (written_withValues s _)

/-- Setting a key to the value it has does nothing. -/
theorem set_eq_self (hw : s.Written) (h : s.raw? key = some v.settled) : s.set key v = s := by
  have hvalues : s.values.insert key v.settled = s.values := by
    apply Dict.ext
    intro k
    rw [Dict.get?_insert]
    split
    · rename_i hk
      rw [hk]
      exact h.symm
    · rfl
  unfold set withValues
  rw [hvalues, hw]

theorem setValues_eq_self (hw : s.Written) (h : ∀ c ∈ members, s.raw? c.id = some (.bool c.selected)) :
    s.setValues members = s := by
  induction members with
  | nil => rfl
  | cons c rest ih =>
    show (s.set c.id (.bool c.selected)).setValues rest = s
    rw [set_eq_self hw (h c List.mem_cons_self)]
    exact ih fun d hd => h d (List.mem_cons_of_mem _ hd)

end Store

/-! ## Groups that come back -/

namespace Checkbox

variable {values : List (String × Bool)}

theorem assign_assign (values : List (String × Bool)) (c : Checkbox) :
    assign values (assign values c) = assign values c := by
  simp only [assign]
  cases Dict.find? c.id values <;> rfl

theorem selected_assign_cleared {c : Checkbox} :
    (assign values c.cleared).selected = true ↔ Dict.find? c.id values = some true := by
  simp only [assign, cleared_id, cleared_selected]
  cases Dict.find? c.id values <;> simp

end Checkbox

namespace Form

variable {f f' : Form} {values : Dict Bool} {x id : String} {c : Checkbox}

/-- The form with some values of members overwritten, before the rules are evaluated. -/
def written (f : Form) (values : Dict Bool) : Form := values.toList.foldl (fun f e => f.overwrite e.1 e.2) f

/-- Whether some values select a member of a group. -/
def Asks (f : Form) (values : Dict Bool) (x : String) : Prop := ∃ c ∈ f.membersOf x, values.get? c.id = some true

/-- Whether a group that loses when values are overwritten will not lose the next time: the values ask for a
member of it, and the groups that it loses to lose as well, and are not asked for. -/
def ComesBack (f : Form) (values : Dict Bool) (x : String) : Prop :=
  x ∈ (f.written values).losers ∧ f.Asks values x ∧
    ∀ a, .exclusive a x ∈ f.rules → (f.written values).hasSelection a = true →
      a ∈ (f.written values).losers ∧ ¬f.Asks values a

theorem blank_written (f : Form) (values : Dict Bool) : (f.written values).blank = f.blank :=
  blank_foldl_overwrite f values.toList

/-- Where all ids are distinct, overwriting sets the member with an id, if there is one. -/
theorem membersOf_overwrite_id (hfits : Fits f) (hn : ∀ g ∈ f.groups, g.Named) (id : String) (b : Bool)
    (x : String) :
    (f.overwrite id b).membersOf x
      = (f.membersOf x).map fun c => if c.id = id then { c with selected := b } else c := by
  -- an id that stands for no member is that of none
  have hnone : f.overwrite id b = f → (∀ g ∈ f.groups, id ∉ g.order) → (f.overwrite id b).membersOf x
      = (f.membersOf x).map fun c => if c.id = id then { c with selected := b } else c := by
    intro hsame hnot
    rw [hsame, map_set_of_not_mem]
    intro hmem
    obtain ⟨c, hc, rfl⟩ := List.mem_map.mp hmem
    obtain ⟨g, hg, -, hcg⟩ := mem_membersOf hc
    exact hnot g hg (List.mem_map_of_mem hcg)
  cases hlocate : f.locate? id with
  | none =>
    refine hnone (by simp only [overwrite, hlocate]) fun g hg hid => ?_
    have hspot := locateIn_eq_none_iff.mp hlocate g hg
    exact Group.spot?_eq_none_iff.mp hspot (Or.inl hid)
  | some l =>
    obtain ⟨place, g, spot⟩ := l
    obtain ⟨hplace, hspot⟩ := locateIn_spec hlocate
    have hg : g ∈ f.groups := List.mem_of_getElem? hplace
    cases spot with
    | main =>
      refine hnone (by simp only [overwrite, hlocate]) fun g' hg' hid => ?_
      have hname : g.id = id := Group.id_of_spot? hspot
      exact hfits.member_id_ne_group_id hn hg' hid hfits hg hname
    | member =>
      rw [membersOf_overwrite_of_locate? hfits.groups_nodup hlocate (hn g hg).distinct]
      split
      · rfl
      · rename_i hx
        refine (map_set_of_not_mem fun hmem => ?_).symm
        obtain ⟨c, hc, rfl⟩ := List.mem_map.mp hmem
        obtain ⟨g', hg', rfl, hcg⟩ := mem_membersOf hc
        have hin : c.id ∈ g.order := Group.contains_iff.mp (Group.contains_of_spot? hspot)
        rw [hfits.eq_of_member_id hn hg' hg (List.mem_map_of_mem hcg) hin] at hx
        exact hx rfl

theorem membersOf_foldl_overwrite {l : List (String × Bool)} (hfits : Fits f) (hn : ∀ g ∈ f.groups, g.Named)
    (hd : (l.map (·.1)).Nodup) (x : String) :
    (l.foldl (fun f e => f.overwrite e.1 e.2) f).membersOf x = (f.membersOf x).map (Checkbox.assign l) := by
  induction l generalizing f with
  | nil => exact (List.map_id _).symm
  | cons e rest ih =>
    obtain ⟨id, b⟩ := e
    obtain ⟨hid, hrest⟩ := List.nodup_cons.mp hd
    have hblank := blank_overwrite f id b
    rw [List.foldl_cons, ih (hfits.of_blank hblank) (named_of_blank hn hblank) hrest,
      membersOf_overwrite_id hfits hn, List.map_map]
    exact List.map_congr_left fun c _ => Checkbox.assign_cons hid c

/-- **Overwriting sets every member for which there is a value.** -/
theorem membersOf_written (hfits : Fits f) (hn : ∀ g ∈ f.groups, g.Named) (values : Dict Bool) (x : String) :
    (f.written values).membersOf x = (f.membersOf x).map (Checkbox.assign values.toList) :=
  membersOf_foldl_overwrite hfits hn values.keys_nodup x

/-! ### The second time -/

section Twice

variable (hfits : Fits f) (hn : ∀ g ∈ f.groups, g.Named)

include hfits hn

/-- What is overwritten the second time: the groups that lost have the members that the values ask for. -/
theorem membersOf_again (x : String) :
    ((f.written values).settle.written values).membersOf x = if x ∈ (f.written values).losers
      then (f.membersOf x).map (fun c => Checkbox.assign values.toList c.cleared)
      else (f.written values).membersOf x := by
  have hblank : (f.written values).settle.blank = f.blank := (blank_settle _).trans (blank_written f values)
  rw [membersOf_written (hfits.of_blank hblank) (named_of_blank hn hblank), membersOf_settle,
    membersOf_written hfits hn]
  split
  · rw [List.map_map, List.map_map]
    rfl
  · rw [List.map_map]
    exact List.map_congr_left fun c _ => Checkbox.assign_assign values.toList c

theorem hasSelection_again (x : String) :
    ((f.written values).settle.written values).hasSelection x = true ↔
      if x ∈ (f.written values).losers then f.Asks values x else (f.written values).hasSelection x = true := by
  rw [hasSelection_eq, membersOf_again hfits hn]
  split
  · rw [List.any_map, List.any_eq_true]
    simp only [Function.comp_apply, Checkbox.selected_assign_cleared]
    rfl
  · rw [hasSelection_eq]

/-- Nothing is selected the second time that was not the first time. -/
theorem hasSelection_of_again {x : String}
    (h : ((f.written values).settle.written values).hasSelection x = true) :
    (f.written values).hasSelection x = true := by
  have hsel := (hasSelection_again hfits hn x).mp h
  split at hsel
  · rename_i hlose
    obtain ⟨a, -, -, hx⟩ := mem_losers.mp hlose
    exact hx
  · exact hsel

/-- **A group that lost loses again if it is asked for, unless it comes back**, and no other one loses. -/
theorem mem_losers_again (x : String) :
    x ∈ ((f.written values).settle.written values).losers ↔
      x ∈ (f.written values).losers ∧ f.Asks values x ∧ ¬f.ComesBack values x := by
  have hrules₁ : (f.written values).rules = f.rules := rules_eq_of_blank (blank_written f values)
  have hrules₂ : ((f.written values).settle.written values).rules = f.rules :=
    (rules_eq_of_blank (blank_written _ values)).trans ((rules_eq_of_blank (blank_settle _)).trans hrules₁)
  have hsecond : ∀ {y : String}, y ∈ (f.written values).losers →
      (((f.written values).settle.written values).hasSelection y = true ↔ f.Asks values y) := by
    intro y hy
    rw [hasSelection_again hfits hn, if_pos hy]
  rw [mem_losers, hrules₂]
  constructor
  · rintro ⟨a, hrule, ha, hx⟩
    have ha₁ := hasSelection_of_again hfits hn ha
    have hlose : x ∈ (f.written values).losers :=
      mem_losers.mpr ⟨a, hrules₁ ▸ hrule, ha₁, hasSelection_of_again hfits hn hx⟩
    refine ⟨hlose, (hsecond hlose).mp hx, fun hback => ?_⟩
    -- the winner would have lost itself, and be selected again without being asked for
    obtain ⟨halose, hnot⟩ := hback.2.2 a hrule ha₁
    exact hnot ((hsecond halose).mp ha)
  · rintro ⟨hlose, hasks, hnot⟩
    by_contra hnone
    refine hnot ⟨hlose, hasks, fun a hrule ha => ?_⟩
    have hoff : ¬((f.written values).settle.written values).hasSelection a = true :=
      fun hsel => hnone ⟨a, hrule, hsel, (hsecond hlose).mpr hasks⟩
    rw [hasSelection_again hfits hn] at hoff
    split at hoff
    · rename_i halose
      exact ⟨halose, hoff⟩
    · exact absurd ha hoff

/-- **A group that does not come back has the members that it had.** -/
theorem membersOf_settle_again {x : String} (hnot : ¬f.ComesBack values x) :
    ((f.written values).settle.written values).settle.membersOf x = (f.written values).settle.membersOf x := by
  rw [membersOf_settle, membersOf_settle]
  by_cases hlose : x ∈ (f.written values).losers
  · have hcleared : (((f.written values).settle.written values).membersOf x).map Checkbox.cleared
        = ((f.written values).membersOf x).map Checkbox.cleared := by
      rw [membersOf_again hfits hn, if_pos hlose, membersOf_written hfits hn, List.map_map, List.map_map]
      rfl
    rw [if_pos hlose, ← hcleared]
    split
    · rfl
    · rename_i hwins
      -- the group does not lose again, so it is not asked for, and there is nothing to unselect
      refine (map_cleared_eq_self ?_).symm
      rw [← hasSelection_eq, Bool.eq_false_iff]
      intro hsel
      rw [hasSelection_again hfits hn, if_pos hlose] at hsel
      exact hwins ((mem_losers_again hfits hn x).mpr ⟨hlose, hsel, hnot⟩)
  · have hwins : x ∉ ((f.written values).settle.written values).losers :=
      fun hmem => hlose ((mem_losers_again hfits hn x).mp hmem).1
    rw [if_neg hlose, if_neg hwins, membersOf_again hfits hn, if_neg hlose]

/-- **A group that comes back is selected the second time, and not the first time.** -/
theorem ComesBack.hasSelection {x : String} (h : f.ComesBack values x) :
    (f.written values).settle.hasSelection x = false ∧
      ((f.written values).settle.written values).settle.hasSelection x = true := by
  have hsettle : ∀ f : Form, f.settle.hasSelection x = true ↔ x ∉ f.losers ∧ f.hasSelection x = true := by
    intro f
    rw [settle, hasSelection_enable, hasSelection_aggregate, hasSelection_unselect]
  constructor
  · rw [Bool.eq_false_iff]
    exact fun hsel => ((hsettle _).mp hsel).1 h.1
  · refine (hsettle _).mpr ⟨fun hlose => ((mem_losers_again hfits hn x).mp hlose).2.2 h, ?_⟩
    rw [hasSelection_again hfits hn, if_pos h.1]
    exact h.2.1

end Twice

/-- Two consistent forms that differ in values only are the same if they have the same members. -/
theorem Consistent.eq_of_members (h : f.Consistent) (h' : f'.Consistent) (hd : (f.groups.map (·.id)).Nodup)
    (hblank : f'.blank = f.blank) (hmembers : ∀ x, f'.membersOf x = f.membersOf x) : f' = f := by
  have hd' : (f'.groups.map (·.id)).Nodup := by
    rw [ids_of_blank hblank]
    exact hd
  have hbare : f'.bare = f.bare := by
    have hgroups : f'.groups.map Group.bare = f.groups.map Group.bare := by
      refine map_eq_of_map_eq (groups_eq_of_blank hblank) fun g' hg' g hg heq => ?_
      have hsame : g'.members = g.members := by
        rw [← membersOf_of_mem hd' hg', ← membersOf_of_mem hd hg, hmembers, Group.id_eq_of_blank heq]
      show { g'.blank with members := g'.members } = { g.blank with members := g.members }
      rw [heq, hsame]
    rw [bare, bare, hgroups, rules_eq_of_blank hblank]
  rw [← h.bare_aggregate_enable, ← h'.bare_aggregate_enable, hbare]

/-- **Where no group comes back, overwriting with the same values again changes nothing.** -/
theorem overwriteAll_again (hfits : Fits f) (hn : ∀ g ∈ f.groups, g.Named)
    (hnone : ∀ x, ¬f.ComesBack values x) :
    (f.overwriteAll values).overwriteAll values = f.overwriteAll values := by
  have hblank := blank_overwriteAll f values
  exact (consistent_settle _).eq_of_members (consistent_settle _) (hfits.of_blank hblank).groups_nodup
    (blank_overwriteAll _ values) fun x => membersOf_settle_again hfits hn (hnone x)

end Form

/-! ## The panel -/

namespace Panel

variable {trail : List Panel} {settings : Settings} {p : Panel} {main : MainForm}

theorem written_submit (p : Panel) (main : MainForm) : (p.submit main).store.Written := by
  rw [submit_eq, saveChanges, saveAll_eq]
  refine Store.written_setValues (Store.written_setValues (Store.written_setValues ?_ _) _) _
  exact Store.written_withValues _ _

/-- No member is stored under a fixed key. -/
theorem Intact.fixedKey_not_member (h : p.Intact settings) {members : List Checkbox}
    (hsub : members ⊆ p.form.groups.flatMap (·.members)) {key : String} (hkey : key ∈ fixedKeys) :
    key ∉ members.map (·.id) := by
  intro hmem
  obtain ⟨c, hc, rfl⟩ := List.mem_map.mp hmem
  obtain ⟨g, hg, hcg⟩ := List.mem_flatMap.mp (hsub hc)
  exact h.fits.not_isRecord h.named hg hcg (isRecord_of_mem hkey)

/-- Two members of one id have one value. -/
theorem Intact.selected_eq_of_id (h : p.Intact settings) {members : List Checkbox}
    (hsub : members ⊆ p.form.groups.flatMap (·.members)) {c : Checkbox}
    (hc : c ∈ p.form.groups.flatMap (·.members)) : ∀ d ∈ members, d.id = c.id → d.selected = c.selected := by
  intro d hd hid
  rw [List.inj_on_of_nodup_map h.members_nodup (hsub hd) hc hid]

/-- What the main form writes is in the store afterwards. -/
theorem Intact.raw?_submit (h : p.Intact settings) (main : MainForm) :
    (p.submit main).store.raw? textKey = some (.str main.text) ∧
      (p.submit main).store.raw? sensitiveKey = some (.bool main.sensitiveCase) ∧
      ∀ group ∈ fixedGroups, ∀ c ∈ (p.submit main).form.membersOf group,
        (p.submit main).store.raw? c.id = some (.bool c.selected) := by
  have hq : (p.submit main).Intact settings := h.submit main
  have hfixed : ∀ group, (p.submit main).form.membersOf group ⊆ (p.submit main).form.groups.flatMap (·.members) := by
    intro group c hc
    obtain ⟨g, hg, -, hcg⟩ := Form.mem_membersOf hc
    exact List.mem_flatMap.mpr ⟨g, hg, hcg⟩
  -- values are written under the ids of members, which are distinct and none of the two keys
  have hstore : ∃ changed, changed ⊆ (p.submit main).form.groups.flatMap (·.members) ∧
      (p.submit main).store = (submitted p.store (p.submit main).form main).setValues changed := by
    rw [form_submit, submit_eq, saveChanges, saveAll_eq]
    exact ⟨_, List.filter_sublist.subset, rfl⟩
  obtain ⟨changed, hchanged, hstore⟩ := hstore
  rw [hstore, submitted]
  refine ⟨?_, ?_, fun group hgroup c hc => ?_⟩
  · rw [Store.raw?_setValues_of_not_mem (hq.fixedKey_not_member hchanged (by decide)),
      Store.raw?_setValues_of_not_mem (hq.fixedKey_not_member (hfixed _) (by decide)),
      Store.raw?_setValues_of_not_mem (hq.fixedKey_not_member (hfixed _) (by decide)),
      Store.raw?_set_of_ne (by decide), Store.raw?_set, if_pos rfl]
    rfl
  · rw [Store.raw?_setValues_of_not_mem (hq.fixedKey_not_member hchanged (by decide)),
      Store.raw?_setValues_of_not_mem (hq.fixedKey_not_member (hfixed _) (by decide)),
      Store.raw?_setValues_of_not_mem (hq.fixedKey_not_member (hfixed _) (by decide)), Store.raw?_set, if_pos rfl]
    rfl
  · have hall := hfixed group hc
    refine Store.raw?_setValues (hq.selected_eq_of_id hchanged hall) (Or.inr ?_)
    refine Store.raw?_setValues (hq.selected_eq_of_id (hfixed edges) hall) ?_
    have hcases : group = conventions ∨ group = edges := by simpa [fixedGroups] using hgroup
    rcases hcases with rfl | rfl
    · exact Or.inr (Store.raw?_setValues (hq.selected_eq_of_id (hfixed conventions) hall) (Or.inl hc))
    · exact Or.inl hc

/-- **Where no group comes back, applying the main form again changes nothing.** -/
theorem Intact.submit_again (h : p.Intact settings) (hnone : ∀ x, ¬p.form.ComesBack main.checks x) :
    (p.submit main).submit main = p.submit main := by
  have hq : (p.submit main).Intact settings := h.submit main
  obtain ⟨htext, hsensitive, hvalues⟩ := h.raw?_submit main
  have hwritten := written_submit p main
  obtain ⟨s, hs⟩ := submit_frame p main
  have hform : (p.submit main).form.overwriteAll main.checks = (p.submit main).form := by
    rw [form_submit]
    exact Form.overwriteAll_again h.fits h.named hnone
  have hstore : submitted (p.submit main).store (p.submit main).form main = (p.submit main).store := by
    rw [submitted, Store.set_eq_self hwritten htext, Store.set_eq_self hwritten hsensitive,
      Store.setValues_eq_self hwritten (hvalues _ (by decide)),
      Store.setValues_eq_self hwritten (hvalues _ (by decide))]
  have hsame : ({ p.submit main with text := main.text, sensitiveCase := main.sensitiveCase } : Panel)
      = p.submit main := by rw [hs]
  rw [submit_eq (p.submit main), hform, hstore, hsame]
  refine saveChanges_of_same fun g hg c hc => ?_
  exact Form.get?_values (hq.fits.ids_nodup hq.named) hg hc

/-- **Applying the main form twice differs from applying it once exactly if a group comes back**, and then that
group is selected the second time and not the first time. Otherwise the panel is the same in all its parts: the
form, the store, and all that clients and searches see of it. Every element has an id of its own, since none has had the
last number. -/
theorem submitted_twice_iff (h : Reached trail settings p) (hrange : ∀ q ∈ trail, q.InRange) (main : MainForm) :
    (((p.submit main).submit main).state = (p.submit main).state ↔ ∀ x, ¬p.form.ComesBack main.checks x) ∧
    ((∀ x, ¬p.form.ComesBack main.checks x) → (p.submit main).submit main = p.submit main) ∧
    (∀ x, p.form.ComesBack main.checks x → (p.submit main).form.hasSelection x = false ∧
      ((p.submit main).submit main).form.hasSelection x = true) := by
  have hintact := (h.intact hrange).1
  have hback : ∀ x, p.form.ComesBack main.checks x → (p.submit main).form.hasSelection x = false ∧
      ((p.submit main).submit main).form.hasSelection x = true := by
    have hfirst : (p.submit main).form = (p.form.written main.checks).settle := form_submit p main
    have hsecond : ((p.submit main).submit main).form = ((p.submit main).form.written main.checks).settle :=
      form_submit (p.submit main) main
    intro x hx
    rw [hsecond, hfirst]
    exact hx.hasSelection hintact.fits hintact.named
  have hagain : (∀ x, ¬p.form.ComesBack main.checks x) → (p.submit main).submit main = p.submit main :=
    hintact.submit_again
  refine ⟨⟨fun hstate x hx => ?_, fun hnone => congrArg state (hagain hnone)⟩, hagain, hback⟩
  obtain ⟨hoff, hon⟩ := hback x hx
  rw [hasSelection_of_state hstate, hoff] at hon
  exact absurd hon (by simp)

/-- A filter loses to the conventions that the form asks for. The form asks for no filter, so it stays unselected
and the form can be applied again. -/
theorem submitted_twice_with_filter :
    let settings := { Settings.standard with rules := [.exclusive conventions included] }
    let p := (restore Store.empty settings).perform (.edit included (.add "*.ts" true none))
    let main : MainForm := ⟨"word", true, Dict.ofList [("kebabCase", true), ("beginWord", true)]⟩
    (p.form.written main.checks).losers = [included] ∧ (p.submit main).submit main = p.submit main := by
  intro settings p main
  have hp : Reached _ settings p := .perform (.first rfl _) _
  have hlosers : (p.form.written main.checks).losers = [included] := by decide +kernel
  have hnot : ¬∃ c ∈ p.form.membersOf included, main.checks.get? c.id = some true := by decide +kernel
  refine ⟨hlosers, (submitted_twice_iff hp (by decide) main).2.1 fun x hx => ?_⟩
  obtain ⟨hlose, hasks, -⟩ := hx
  rw [hlosers, List.mem_singleton] at hlose
  subst hlose
  exact hnot hasks

/-- A filter loses to the conventions, and the word edges lose to the filter. The form asks for a convention and
for an edge. The first time both the filter and the edge are unselected; the second time the filter is gone, so
the edge is selected, stored, and searched for. -/
theorem submitted_twice_ne :
    let settings := { Settings.standard with
      rules := [.exclusive conventions included, .exclusive included edges] }
    let p := (restore Store.empty settings).perform (.edit included (.add "*.ts" true none))
    let main : MainForm := ⟨"word", true, Dict.ofList [("kebabCase", true), ("beginWord", true)]⟩
    let q := p.submit main
    settings.check = .ok settings ∧ (∃ trail, Reached trail settings p ∧ ∀ q ∈ trail, q.InRange) ∧
      (q.form.hasSelection edges = false ∧ (q.submit main).form.hasSelection edges = true) ∧
      (q.submit main).state ≠ q.state ∧ (q.submit main).search ≠ q.search ∧
      q.store.get startEdge Json.flag? true = false ∧ (q.submit main).store.get startEdge Json.flag? false = true := by
  intro settings p main q
  have hp : Reached _ settings p := .perform (.first rfl _) _
  exact ⟨rfl, ⟨_, hp, by decide⟩, by decide +kernel⟩

end Panel

end AnyCase
