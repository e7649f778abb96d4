import AnyCase.Proofs.Edited
import AnyCase.Proofs.Refused
import AnyCase.Proofs.Search

/-!
# `Proofs.Commute` — edits of two filters in either order

Of two edits of different filters, one has to be made first. Whether it matters which one is up to the rules: an
exclusion between the filters lets the later edit win, and setting values is refused while a filter is disabled, which
the other edit may bring about. Apart from that it does not matter. By `edits_commute` both orders lead to the same
panel, store and all, although each edit may disable the filter of the other one, and both may unselect the same third
group.

An answer says whether a search is due. It is the same in either order as well (`Panel.AnsweredAlike`), with one
exception: moving elements asks for a search only if that changes what the filters say, and a disabled filter says
nothing (`search_due_in_one_order`).
-/

namespace AnyCase

open Layout

/-! ## What is answered to an edit -/

/-- Whether a search is due after an edit of a group that becomes another one. -/
def Group.asks (g g₁ : Group) : Edit → Bool
  | .set _ | .add .. => true
  | .amend id _ _ | .remove id => (g.member? id).any (·.selected)
  | .reorder _ => g.enabled && decide (g₁.filter ≠ g.filter)

/-- Whether the group of an id is enabled. -/
def Form.isEnabled (f : Form) (group : String) : Bool := (f.group? group).any (·.enabled)

namespace Panel

variable {settings : Settings} {p p' p₁ p₂ q : Panel} {group a b : String} {e e' : Edit} {g g₁ : Group}
  {searched : Bool}

/-- What is answered to an edit: whether a search is due, or why the edit is refused. -/
def outcome (p : Panel) (group : String) (e : Edit) : Except Refusal Bool := (p.edit? group e).map (·.1)

/-- **The answer to an edit is told by its group.** -/
theorem Shaped.outcome_eq (h : p.Shaped settings) (hg : p.form.group? group = some g) (hdyn : g.isDynamic = true)
    (e : Edit) : p.outcome group e = (g.edit? e).map fun g₁ => g.asks g₁ e := by
  have hform := form_edit? h.consistent group e
  cases hedit : g.edit? e with
  | error r =>
    have hrefused : p.form.edit? group e = .error r := by
      simp only [Form.edit?, Form.dynamic?_eq_ok_iff.mpr ⟨hg, hdyn⟩, bind, Except.bind, hedit]
    rw [outcome, (edit?_eq_error_iff h.consistent).mpr hrefused]
    rfl
  | ok g₁ =>
    rw [Form.edit?_eq_ok hg hdyn hedit] at hform
    obtain ⟨⟨searched, p'⟩, hmade, hp'⟩ := map_eq_ok_iff.mp hform
    have hid₁ : g₁.id = group := (Group.id_eq_of_outline (Group.outline_edit? hedit)).trans (Form.id_of_group? hg)
    rw [outcome, hmade]
    show Except.ok searched = Except.ok (g.asks g₁ e)
    congr 1
    obtain ⟨⟨due, p₁⟩, hchange, heq⟩ := bind_eq_ok_iff.mp hmade
    obtain ⟨hdue, rfl⟩ := Prod.mk.inj (Except.ok.inj heq)
    rw [← hdue]
    cases changed_of_change? hchange with
    | set _ => rfl
    | add _ => rfl
    | @amend id label selected f _ =>
      show _ = (g.member? id).any (·.selected)
      rw [hg, Option.bind_some]
      cases (g.member? id).any (·.selected) <;> rfl
    | @remove id removed f hremove =>
      have hremove₁ := Form.remove?_of_group? hremove hg hedit
      show _ = (g.member? id).any (·.selected)
      rw [(Group.remove?_spec hremove₁).1, Option.any_some]
      cases hoff : removed.selected with
      | true => rfl
      | false =>
        have hchosen := Group.chosen_remove hoff hremove₁
        have hsame := (h.filters_eq_iff hg hdyn hid₁ (Group.hasSelection_of_chosen hchosen) hp').mpr
          fun _ => Group.filter_of_chosen hchosen
        exact decide_eq_false (not_not.mpr hsame)
    | @reorder ids f _ =>
      have hfilters := h.filters_eq_iff hg hdyn hid₁ (Group.hasSelection_reorder hedit) hp'
      show decide (_ ≠ _) = (g.enabled && decide (g₁.filter ≠ g.filter))
      rw [Bool.eq_iff_iff]
      simp [hfilters]

/-- What is answered to an edit in another panel, told by what was answered to it. -/
structure AnsweredAlike (p q : Panel) (group : String) (e : Edit) : Prop where
  /-- It is refused for the same reason, or made both times. -/
  refusal : ∀ r, q.outcome group e = .error r ↔ p.outcome group e = .error r
  /-- A search is due both times or neither time, unless elements are moved in a group that is enabled in one
  panel only. -/
  due : (∀ ids, e = .reorder ids → q.form.isEnabled group = p.form.isEnabled group) →
    q.outcome group e = p.outcome group e

/-- **An edit is answered as it would have been before an edit of a group apart.** -/
theorem Shaped.answeredAlike (h : p.Shaped settings) (hapart : p.form.Apart a b) (hb : b ∈ filterGroups)
    (he' : ∀ values, e' ≠ .set values) (e : Edit) : p.AnsweredAlike (p.perform (.edit a e)) b e' := by
  rcases perform_edit p a e with hsame | ⟨due, p₁, hedit, hmade⟩
  · rw [hsame]
    exact ⟨fun _ => Iff.rfl, fun _ => rfl⟩
  · rw [hmade]
    obtain ⟨g, hmem, hid⟩ := h.fits.exists_group (List.mem_append_right _ hb)
    have hdyn : g.isDynamic = true := (h.fits.dynamic_iff hmem).mpr (hid ▸ hb)
    have hg : p.form.group? b = some g := hid ▸ Form.group?_of_mem h.fits.groups_nodup hmem
    have hform := form_of_edit? h.consistent hedit
    constructor
    case refusal =>
      intro r
      have hrefused := hapart.refused_edit? h.consistent he' hform
      rw [outcome, outcome, map_eq_error_iff, map_eq_error_iff, edit?_eq_error_iff (h.edit? hedit).consistent,
        edit?_eq_error_iff h.consistent, ← map_eq_error_iff (f := fun _ => ()), hrefused, map_eq_error_iff]
    case due =>
      intro henabled
      obtain ⟨on, hg₁⟩ := hapart.group?_edit? h.consistent hform
      rw [hg, Option.map_some] at hg₁
      rw [h.outcome_eq hg hdyn, (h.edit? hedit).outcome_eq hg₁ hdyn, Group.edit?_enabled he']
      cases g.edit? e' with
      | error r => rfl
      | ok g₂ =>
        show Except.ok _ = Except.ok _
        cases e' with
        | set values => exact absurd rfl (he' values)
        | reorder ids =>
          have hon := henabled ids rfl
          simp only [Form.isEnabled, hg, hg₁, Option.any_some] at hon
          rw [hon]
          rfl
        | _ => rfl

/-! ## Either order -/

theorem perform_of_edit? (h : p.edit? group e = .ok (searched, p')) : p.perform (.edit group e) = p' := by
  simp only [perform, h]

theorem perform_of_refused {r : Refusal} (h : p.outcome group e = .error r) : p.perform (.edit group e) = p := by
  have hedit : p.edit? group e = .error r := map_eq_error_iff.mp h
  simp only [perform, hedit]

/-- **Two edits of filters that no exclusion links can be made in either order.** -/
theorem Intact.edit?_comm (h : p.Intact settings) (hna : p.form.NumberedAt a) (hnb : p.form.NumberedAt b)
    (ht : p.Tidy) (hapart : p.form.Apart a b) (ha : a ∈ filterGroups) (hb : b ∈ filterGroups) (he : ∀ values, e ≠ .set values) (he' : ∀ values, e' ≠ .set values)
    {d d' : Bool} (h₁ : p.edit? a e = .ok (d, p₁)) (h₂ : p.edit? b e' = .ok (d', p₂)) :
    p₁.perform (.edit b e') = p₂.perform (.edit a e) := by
  have hf₁ := form_of_edit? h.consistent h₁
  have hf₂ := form_of_edit? h.consistent h₂
  obtain ⟨f', hleft, hright⟩ := hapart.edit?_comm h.consistent h.fits he he' hf₁ hf₂
  have hi₁ : p₁.Intact settings := h.edit? hna h₁
  have hi₂ : p₂.Intact settings := h.edit? hnb h₂
  have hnb₁ : p₁.form.NumberedAt b := hapart.numberedAt_edit? h.consistent hnb hf₁
  have hna₂ : p₂.form.NumberedAt a := hapart.symm.numberedAt_edit? h.consistent hna hf₂
  rw [← form_edit? hi₁.consistent] at hleft
  rw [← form_edit? hi₂.consistent] at hright
  obtain ⟨⟨d₁, q₁⟩, hq₁, hform₁⟩ := map_eq_ok_iff.mp hleft
  obtain ⟨⟨d₂, q₂⟩, hq₂, hform₂⟩ := map_eq_ok_iff.mp hright
  obtain ⟨hp₁, hu₁⟩ := h.edited_of_edit? hna ha he h₁
  obtain ⟨hp₂, hu₂⟩ := h.edited_of_edit? hnb hb he' h₂
  obtain ⟨hr₁, hv₁⟩ := hi₁.edited_of_edit? hnb₁ hb he' hq₁
  obtain ⟨hr₂, hv₂⟩ := hi₂.edited_of_edit? hna₂ ha he hq₂
  have hunstored : q₁.unstored = q₂.unstored := by
    rw [hv₁, hu₁, hv₂, hu₂]
    cases e.storesOrder with
    | false => rfl
    | true =>
      cases e'.storesOrder with
      | false => rfl
      | true =>
        show (p.unstored.filter _).filter _ = (p.unstored.filter _).filter _
        rw [List.filter_filter, List.filter_filter]
        simp only [Bool.and_comm]
  have hsame : q₁ = q₂ := (hp₁.trans hr₁).eq_of_form (hp₂.trans hr₂) h.fits (hi₁.edit? hnb₁ hq₁) (hi₂.edit? hna₂ hq₂)
    ((ht.edit? hna h h₁).edit? hnb₁ hi₁ hq₁) ((ht.edit? hnb h h₂).edit? hna₂ hi₂ hq₂) (hform₁.trans hform₂.symm) hunstored
  rw [perform_of_edit? hq₁, perform_of_edit? hq₂, hsame]

/-- In the form of a panel two filters are apart if no exclusion of the settings links them. -/
theorem Shaped.apart (h : p.Shaped settings) (hvalid : settings.check = .ok settings) (hne : a ≠ b)
    (hab : .exclusive a b ∉ settings.rules) (hba : .exclusive b a ∉ settings.rules) : p.form.Apart a b where
  ne := hne
  unlinked := by
    intro x hx y hy hrule
    have hother : x ≠ y := (h.rules_valid hvalid hrule).2.2
    have hmem : .exclusive x y ∈ settings.rules := by
      rw [h.rules] at hrule
      exact (List.mem_filter.mp hrule).1
    have hcases : ∀ z ∈ [a, b], z = a ∨ z = b := by simp
    rcases hcases x hx with rfl | rfl
    · rcases hcases y hy with rfl | rfl
      · exact hother rfl
      · exact hab hmem
    · rcases hcases y hy with rfl | rfl
      · exact hba hmem
      · exact hother rfl

/-- **Edits of the two filters commute if no exclusion links the filters.** Whichever is made first, each of them
is refused for the reason for which it would be refused alone, or is made; what is answered to it is the same, except
that whether a search is due may differ for moving elements of a filter which the other edit enables or disables. And
both orders lead to the same panel in all its parts: the form with the numbers that are free, the store and its file,
and so all that clients see. No element has had the last number before; the edits may hand it out. -/
theorem edits_commute {trail : List Panel} (h : Reached trail settings p) (hvalid : settings.check = .ok settings)
    (hrange : ∀ q ∈ trail, q.InRange) (hrules : .exclusive included excluded ∉ settings.rules)
    (hrules' : .exclusive excluded included ∉ settings.rules) {e e' : Edit} (he : ∀ values, e ≠ .set values)
    (he' : ∀ values, e' ≠ .set values) :
    p.AnsweredAlike (p.perform (.edit excluded e')) included e ∧
      p.AnsweredAlike (p.perform (.edit included e)) excluded e' ∧
      (p.perform (.edit included e)).perform (.edit excluded e')
        = (p.perform (.edit excluded e')).perform (.edit included e) := by
  obtain ⟨hintact, hn⟩ := h.intact hrange
  have hnumbered : ∀ group, p.form.NumberedAt group := Form.numberedAt_of_forall hn
  have hapart : p.form.Apart included excluded := hintact.apart hvalid (by decide) hrules hrules'
  have hfirst := hintact.answeredAlike hapart.symm (by decide) he e'
  have hsecond := hintact.answeredAlike hapart (by decide) he' e
  refine ⟨hfirst, hsecond, ?_⟩
  -- an edit that is refused alone is refused after the other one as well
  cases hmade : p.edit? included e with
  | error r =>
    have hrefused : p.outcome included e = .error r := map_eq_error_iff.mpr hmade
    rw [perform_of_refused hrefused, perform_of_refused ((hfirst.refusal r).mpr hrefused)]
  | ok made =>
    cases hmade' : p.edit? excluded e' with
    | error r =>
      have hrefused : p.outcome excluded e' = .error r := map_eq_error_iff.mpr hmade'
      rw [perform_of_refused hrefused, perform_of_refused ((hsecond.refusal r).mpr hrefused)]
    | ok made' =>
      rw [perform_of_edit? hmade, perform_of_edit? hmade']
      exact hintact.edit?_comm (hnumbered _) (hnumbered _) (h.tidy hrange) hapart (by decide) (by decide) he he'
        hmade hmade'

/-- Both edits unselect the conventions, and one of them disables the filter that the other one is made in. -/
theorem edits_commute_over_conventions :
    let settings := { Settings.standard with rules := [.exclusive included conventions,
      .exclusive conventions excluded, .disabledWhenAny excluded included] }
    let p := (restore Store.empty settings).perform (.edit excluded (.add "target/" false none))
    let e : Edit := .add "*.rs" true none
    let e' : Edit := .amend "filesToExclude-0" "out/" true
    let q := (p.perform (.edit included e)).perform (.edit excluded e')
    (p.form.hasSelection conventions = true ∧
        (p.perform (.edit included e)).form.hasSelection conventions = false ∧
        (p.perform (.edit excluded e')).form.hasSelection conventions = false) ∧
      (p.form.isEnabled excluded = true ∧ q.form.isEnabled excluded = false) ∧
      p.AnsweredAlike (p.perform (.edit included e)) excluded e' ∧
      q = (p.perform (.edit excluded e')).perform (.edit included e) := by
  intro settings p e e' q
  have hp : Reached _ settings p := .perform (.first rfl _) _
  have hsets : ∀ values, e ≠ .set values ∧ e' ≠ .set values := fun values => ⟨by simp [e], by simp [e']⟩
  obtain ⟨-, hsecond, hsame⟩ := edits_commute hp rfl (by decide) (by decide) (by decide)
    (fun values => (hsets values).1) fun values => (hsets values).2
  exact ⟨by decide +kernel, by decide +kernel, hsecond, hsame⟩

/-- A filter has two selected elements, which are moved, and it is disabled when an element of the other filter is
selected. Moved first, they change what is searched; moved afterwards, they do not. -/
theorem search_due_in_one_order :
    let settings := { Settings.standard with rules := [.disabledWhenAny excluded included] }
    let p := ((restore Store.empty settings).perform (.edit excluded (.add "a/" true none))).perform
      (.edit excluded (.add "b/" true none))
    let e : Edit := .add "*.rs" true none
    let e' : Edit := .reorder ["filesToExclude-1", "filesToExclude-0"]
    settings.check = .ok settings ∧ (∃ trail, Reached trail settings p ∧ ∀ q ∈ trail, q.InRange) ∧
      (.exclusive included excluded ∉ settings.rules ∧ .exclusive excluded included ∉ settings.rules) ∧
      p.outcome excluded e' = .ok true ∧ (p.perform (.edit included e)).outcome excluded e' = .ok false := by
  intro settings p e e'
  have hp : Reached _ settings p := .perform (.perform (.first rfl _) _) _
  exact ⟨rfl, ⟨_, hp, by decide⟩, by decide, by decide +kernel⟩

end Panel

end AnyCase
