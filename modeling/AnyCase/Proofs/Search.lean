import AnyCase.Proofs.Reached

/-!
# `Proofs.Search` — when no search is due

An edit says whether a search is due after it. It must say so whenever the search the panel describes has
changed, with one exception that is there by design: an element that is amended and selected at once only
asks for a search if it was selected before (`Panel.TurnsOn`). `Shaped.search_edit?` shows that there is no
other exception.

An edit for which no search is due touches no selected element. So no group gains or loses its selection,
the rules have nothing to do (`Consistent.reconcile_quiet`), and the fixed groups stay as they are.
-/

namespace AnyCase

/-! ## Unselected elements -/

section Filtering

variable {α : Type} {p q : α → Bool} {l : List α}

/-- Changing an element that is left out before and after changes nothing. -/
theorem filter_modifyFirst {f : α → α} (h : ∀ x, l.find? p = some x → q x = false ∧ q (f x) = false) :
    (modifyFirst p f l).filter q = l.filter q := by
  induction l with
  | nil => rfl
  | cons x rest ih =>
    rw [modifyFirst]
    by_cases hp : p x = true
    · obtain ⟨hx, hfx⟩ := h x (List.find?_cons_of_pos hp)
      rw [if_pos hp, List.filter_cons_of_neg (by simp [hfx]), List.filter_cons_of_neg (by simp [hx])]
    · have hrest := ih fun y hy => h y ((List.find?_cons_of_neg hp).trans hy)
      rw [if_neg hp, List.filter_cons, List.filter_cons, hrest]

/-- Removing an element that is left out changes nothing. -/
theorem filter_eraseP (h : ∀ x, l.find? p = some x → q x = false) :
    (l.eraseP p).filter q = l.filter q := by
  induction l with
  | nil => rfl
  | cons x rest ih =>
    by_cases hp : p x = true
    · have hx := h x (List.find?_cons_of_pos hp)
      rw [List.eraseP_cons_of_pos hp, List.filter_cons_of_neg (by simp [hx])]
    · have hrest := ih fun y hy => h y ((List.find?_cons_of_neg hp).trans hy)
      rw [List.eraseP_cons_of_neg hp, List.filter_cons, List.filter_cons, hrest]

end Filtering

namespace Group

variable {g g' : Group}

/-- The selected members of a group, in order. -/
def chosen (g : Group) : List Checkbox := g.members.filter (·.selected)

theorem hasSelection_of_chosen (h : g'.chosen = g.chosen) : g'.hasSelection = g.hasSelection := by
  have hany : ∀ g : Group, g.hasSelection = g.chosen.any (·.selected) := by
    intro g
    rw [chosen, List.any_filter]
    simp [hasSelection]
  rw [hany, hany, h]

theorem filter_of_chosen (h : g'.chosen = g.chosen) : g'.filter = g.filter := by
  unfold filter
  rw [show g'.members.filter (·.selected) = g'.chosen from rfl, h]
  rfl

/-- Relabelling an unselected element and leaving it unselected is not seen. -/
theorem chosen_amend {id label : String} {c : Checkbox} (hc : g.member? id = some c)
    (hoff : c.selected = false) (h : g.edit? (.amend id label false) = .ok g') :
    g'.chosen = g.chosen := by
  obtain ⟨g₁, hrelabel, hset⟩ := bind_eq_ok_iff.mp h
  obtain ⟨-, -, rfl⟩ := relabel?_spec hrelabel
  obtain ⟨-, rfl⟩ := set?_eq_ok_iff.mp hset
  have hfound : g.members.find? (fun c => c.id = id) = some c := hc
  show (modifyFirst _ _ (modifyFirst _ _ g.members)).filter _ = g.members.filter _
  rw [filter_modifyFirst, filter_modifyFirst]
  · intro x hx
    obtain rfl := Option.some.inj (hfound.symm.trans hx)
    exact ⟨hoff, hoff⟩
  · intro x hx
    have hrelabelled := find?_modifyFirst_self (p := fun c : Checkbox => c.id = id)
      (f := fun c => { c with label := label }) (fun _ hid => hid) g.members
    rw [hrelabelled, hfound, Option.map_some] at hx
    obtain rfl := Option.some.inj hx
    exact ⟨hoff, rfl⟩

/-- Moving elements selects and unselects nothing. -/
theorem hasSelection_reorder {ids : List String} (h : g.edit? (.reorder ids) = .ok g') :
    g'.hasSelection = g.hasSelection := by
  rw [reorder?_spec h]
  exact (drawFirst_perm ids g.members).any_eq

/-- Removing an unselected element is not seen. -/
theorem chosen_remove {id : String} {c : Checkbox} (hoff : c.selected = false)
    (h : g.remove? id = .ok (c, g')) : g'.chosen = g.chosen := by
  obtain ⟨hc, hmembers, -⟩ := remove?_spec h
  rw [chosen, hmembers]
  refine filter_eraseP fun x hx => ?_
  obtain rfl := Option.some.inj (hc.symm.trans hx)
  exact hoff

end Group

/-! ## Edits that select and unselect nothing -/

namespace Form

variable {f : Form} {group : String} {g g₁ : Group}

/-- **Where no group gains or loses its selection, the rules have nothing to do**: other groups stay as they
are, and the edited one is enabled as before. -/
theorem Consistent.reconcile_quiet (hf : f.Consistent) (hg : f.group? group = some g)
    (hid : g₁.id = group) (hsel : g₁.hasSelection = g.hasSelection) :
    (∀ x, x ≠ group → ((f.replace g₁).reconcile group false).group? x = f.group? x) ∧
      ∃ g', ((f.replace g₁).reconcile group false).group? group = some g' ∧
        g'.members = g₁.members ∧ g'.enabled = g.enabled := by
  -- rules see groups through their selections only
  have hsame : (f.replace g₁).aggregate.hasSelection = f.hasSelection := by
    rw [hasSelection_aggregate]
    funext x
    rw [hasSelection_replace hg hid]
    by_cases hx : x = group
    · rw [if_pos hx, hx, hasSelection_of_group? hg, hsel]
    · rw [if_neg hx]
  have hlook : ∀ x, ((f.replace g₁).reconcile group false).group? x
      = ((f.replace g₁).group? x).map fun h =>
        { h.aggregate with enabled := f.rules.all (Rule.allows f.hasSelection h.id) } := by
    intro x
    show ((f.replace g₁).aggregate.enable).group? x = _
    rw [group?_enable, group?_aggregate, Option.map_map, hsame]
    rfl
  constructor
  · intro x hx
    rw [hlook, group?_replace hg hid, if_neg hx]
    cases hfound : f.group? x with
    | none => rfl
    | some h =>
      have hmem := mem_of_group? hfound
      have hagg : h.aggregate = h := hf.aggregated h hmem
      rw [Option.map_some, hagg, ← hf.enabled h hmem]
  · refine ⟨{ g₁.aggregate with enabled := g.enabled }, (hlook group).trans ?_, rfl, rfl⟩
    rw [group?_replace hg hid, if_pos rfl, Option.map_some, hid, ← id_of_group? hg,
      ← hf.enabled g (mem_of_group? hg)]

end Form

/-! ## What a search is made of -/

namespace Layout.Fits

variable {f : Form} {group id : String}

/-- Whether a fixed member counts depends on its group only. -/
theorem isEffective_eq (h : Fits f) (hgroup : group ∈ fixedGroups) (hid : id ∈ fixedIds group) :
    f.isEffective id = (f.group? group).any fun g => g.enabled && (g.member? id).any (·.selected) := by
  obtain ⟨place, g, hlocate, -, hfound⟩ := h.locate?_member hgroup hid
  rw [Form.isEffective, hlocate, hfound, Option.any_some]

end Layout.Fits

namespace Panel

open Layout

variable {settings : Settings} {p p' : Panel} {group : String} {e : Edit} {g g₁ : Group}

/-- A search depends on the fixed groups and on what the filters say. -/
theorem search_congr (hfits : Fits p.form) (hfits' : Fits p'.form) (htext : p'.text = p.text)
    (hsensitive : p'.sensitiveCase = p.sensitiveCase)
    (hfixed : ∀ k ∈ fixedGroups, p'.form.group? k = p.form.group? k) (hfilters : p'.filters = p.filters) :
    p'.search = p.search := by
  have heffective : ∀ k ∈ fixedGroups, ∀ id ∈ fixedIds k, p'.form.isEffective id = p.form.isEffective id := by
    intro k hk id hid
    rw [hfits.isEffective_eq hk hid, hfits'.isEffective_eq hk hid, hfixed k hk]
  have hconventions : selectedConventions p'.form = selectedConventions p.form := by
    refine List.filter_congr fun k _ => ?_
    have hid : k.id ∈ fixedIds conventions := by cases k <;> decide
    rw [heffective conventions (by decide) k.id hid]
  have hedges : selectedEdges p'.form = selectedEdges p.form := by
    rw [selectedEdges, selectedEdges, heffective edges (by decide) startEdge (by decide),
      heffective edges (by decide) endEdge (by decide)]
  obtain ⟨hincluded, hrest⟩ := List.cons.inj hfilters
  obtain ⟨hexcluded, -⟩ := List.cons.inj hrest
  rw [search, search, Layout.compile, Layout.compile, hconventions, hedges, htext, hsensitive, filter?,
    filter?, filter?, filter?, hincluded, hexcluded]

/-- An edit that selects nothing and leaves the selection of its group as it was changes what the filters say
only if its group is enabled and says something else. -/
theorem Shaped.filters_eq_iff (h : p.Shaped settings) (hg : p.form.group? group = some g)
    (hdyn : g.isDynamic = true) (hid : g₁.id = group) (hsel : g₁.hasSelection = g.hasSelection)
    (hform : p'.form = (p.form.replace g₁).reconcile group false) :
    p'.filters = p.filters ↔ (g.enabled = true → g₁.filter = g.filter) := by
  obtain ⟨hothers, g', hg', hmembers, henabled⟩ := h.consistent.reconcile_quiet hg hid hsel
  rw [← hform] at hothers hg'
  have hnew : p'.filter group = if g.enabled then g₁.filter else "" := by
    have hfilter : g'.filter = g₁.filter := by rw [Group.filter, Group.filter, hmembers]
    rw [← hfilter, ← henabled, filter, hg']
  have hold : p.filter group = if g.enabled then g.filter else "" := by rw [filter, hg]
  rw [filters, filters, List.map_inj_left]
  constructor
  · intro hall hon
    have hmem : group ∈ filterGroups := by
      rw [← Form.id_of_group? hg]
      exact (h.fits.dynamic_iff (Form.mem_of_group? hg)).mp hdyn
    have hsame := hall group hmem
    rwa [hnew, hold, if_pos hon, if_pos hon] at hsame
  · intro hsame k _
    by_cases hk : k = group
    · rw [hk, hnew, hold]
      split
      · rename_i hon
        exact hsame hon
      · rfl
    · rw [filter, filter, hothers k hk]

/-- The search after such an edit. -/
theorem Shaped.search_quiet (h : p.Shaped settings) (hg : p.form.group? group = some g)
    (hdyn : g.isDynamic = true) (hid : g₁.id = group) (hsel : g₁.hasSelection = g.hasSelection)
    (hform : p'.form = (p.form.replace g₁).reconcile group false) (hfits' : Fits p'.form)
    (htext : p'.text = p.text) (hsensitive : p'.sensitiveCase = p.sensitiveCase)
    (hfilters : p'.filters = p.filters ∨ g₁.filter = g.filter) : p'.search = p.search := by
  -- the rules did nothing, so only the filter of the edited group can have changed
  have hothers := (h.consistent.reconcile_quiet hg hid hsel).1
  rw [← hform] at hothers
  refine search_congr h.fits hfits' htext hsensitive (fun k hk => hothers k ?_) ?_
  · rintro rfl
    have hfilter := (h.fits.dynamic_iff (Form.mem_of_group? hg)).mp hdyn
    rw [Form.id_of_group? hg] at hfilter
    exact not_mem_fixedGroups _ hfilter hk
  · exact hfilters.elim id fun hfilter => (h.filters_eq_iff hg hdyn hid hsel hform).mpr fun _ => hfilter

/-! ## Edits without a search -/

/-- Whether an edit amends an unselected element and selects it. -/
def TurnsOn (p : Panel) (group : String) (e : Edit) : Prop :=
  ∃ id label c, e = .amend id label true ∧ (p.form.group? group).bind (·.member? id) = some c ∧
    c.selected = false

/-- What is due if a search is not: the case in which it would be did not occur. -/
theorem Due.eq_false_of_ite {b : Bool} {due other : Due} (h : (if b then .yes else other) = due)
    (hdue : due ≠ .yes) : b = false := by
  cases b with
  | false => rfl
  | true => exact absurd h.symm hdue

/-- The due of an edit, once it is known not to ask for a search. -/
theorem edit?_eq_ok_false (h : p.edit? group e = .ok (false, p')) :
    ∃ due p₁, p.change? group e = .ok (due, p₁) ∧ p' = p₁.saveChanges p.form.values ∧
      (due = .no ∨ (due = .ifFiltersChanged ∧ p'.filters = p.filters)) := by
  obtain ⟨⟨due, p₁⟩, hchange, heq⟩ := bind_eq_ok_iff.mp h
  obtain ⟨hdue, rfl⟩ := Prod.mk.inj (Except.ok.inj heq)
  refine ⟨due, p₁, hchange, rfl, ?_⟩
  cases due with
  | yes => exact absurd hdue (by simp)
  | ifFiltersChanged => exact Or.inr ⟨rfl, by simpa using hdue⟩
  | no => exact Or.inl rfl

/-- **Every edit for which no search is due leaves the search as it is**, the amending of an element that
turns it on apart. -/
theorem Shaped.search_edit? (h : p.Shaped settings) (hedit : p.edit? group e = .ok (false, p'))
    (hnot : ¬p.TurnsOn group e) : p'.search = p.search := by
  obtain ⟨due, p₁, hchange, hp', hdue⟩ := edit?_eq_ok_false hedit
  have hform := form_of_change? h.consistent hchange
  obtain ⟨htext, hsensitive, -⟩ := edit?_frame hedit
  have hsame : p'.form = p₁.form := by rw [hp', form_saveChanges]
  have hfits' : Fits p'.form := hsame ▸ h.fits.edit? hform
  have hyes : due ≠ .yes := by
    rintro rfl
    exact absurd hdue (by simp)
  obtain ⟨g, g₁, hg, hdyn, -, hedit₁, hid₁, hf⟩ := Form.edit?_spec hform
  cases changed_of_change? hchange with
  | set _ => exact absurd rfl hyes
  | add _ => exact absurd rfl hyes
  | @amend id label selected f _ =>
    obtain ⟨_, hrelabel, -⟩ := bind_eq_ok_iff.mp hedit₁
    obtain ⟨-, hcontains, -⟩ := Group.relabel?_spec hrelabel
    obtain ⟨c, hc⟩ := Option.isSome_iff_exists.mp hcontains
    have hfound : (p.form.group? group).bind (·.member? id) = some c := by rw [hg, Option.bind_some, hc]
    -- selected before, a search would be due; selected now, it was turned on
    have hoff : c.selected = false := by
      have hwas : ((p.form.group? group).bind (·.member? id)).any (·.selected) = false :=
        Due.eq_false_of_ite rfl hyes
      rwa [hfound, Option.any_some] at hwas
    have hselected : selected = false := by
      cases selected with
      | false => rfl
      | true => exact absurd ⟨id, label, c, rfl, hfound, hoff⟩ hnot
    subst hselected
    have hchosen := Group.chosen_amend hc hoff hedit₁
    exact h.search_quiet hg hdyn hid₁ (Group.hasSelection_of_chosen hchosen) (hsame.trans hf) hfits'
      htext hsensitive (Or.inr (Group.filter_of_chosen hchosen))
  | remove hremove =>
    have hoff := Due.eq_false_of_ite rfl hyes
    have hchosen := Group.chosen_remove hoff (Form.remove?_of_group? hremove hg hedit₁)
    exact h.search_quiet hg hdyn hid₁ (Group.hasSelection_of_chosen hchosen) (hsame.trans hf) hfits'
      htext hsensitive (Or.inr (Group.filter_of_chosen hchosen))
  | reorder _ =>
    have hfilters : p'.filters = p.filters := (hdue.resolve_left (by simp)).2
    -- the order may have changed a filter; then a search is due, and that was ruled out
    exact h.search_quiet hg hdyn hid₁ (Group.hasSelection_reorder hedit₁) (hsame.trans hf) hfits' htext hsensitive
      (Or.inl hfilters)

end Panel

end AnyCase
