import AnyCase.Proofs.Members
import AnyCase.Proofs.Saved

/-!
# `Proofs.Change` — what the changes of a panel keep

A panel is changed by replacing its history, by applying the main form and by an edit of a filter. Each of
them keeps it intact, and so reading the store at any time gives the panel back. This module is about the
first two (`Intact.replaceHistory`, `Intact.submit`); edits have a module of their own.

Both changes touch keys that stand for themselves, which no member and no record of a filter has
(`Stored.withOwn`), and the main form sets values of members, which are saved at the end (`Intact.withForm`).
-/

namespace AnyCase

namespace Panel

open Layout

variable {settings : Settings} {p p' : Panel}

/-! ## What is left of the store -/

/-- A value that did not change needs not be written. -/
theorem Intact.valued_before (h : p.Intact settings) {c : Checkbox}
    (hid : ∀ g ∈ p.form.groups, g.id ≠ c.id) (hget : p.form.values.get? c.id = some c.selected) :
    p.Valued settings c := by
  obtain ⟨g, hg, d, hd, hdid, hdsel⟩ := Form.value_of_get?_values hget hid
  have hvalued : p.Valued settings d := h.values g hg d hd not_false
  unfold Valued at hvalued ⊢
  rwa [hdid, hdsel] at hvalued

/-- A form that differs in values only fits the records of the store as well. -/
theorem Intact.withForm (h : p.Intact settings) {f : Form} (hblank : f.blank = p.form.blank)
    (hcons : f.Consistent) :
    { p with form := f }.Stored settings (Unsaved p.form.values) where
  fits := h.fits.of_blank hblank
  consistent := hcons
  rules := (Form.rules_eq_of_blank hblank).trans h.rules
  named := Form.named_of_blank h.named hblank
  historyLength := h.historyLength
  text := h.text
  sensitiveCase := h.sensitiveCase
  history := h.history
  unstored := h.unstored
  records := h.records.of_blank hblank
  values := by
    intro g hg c hc hget
    obtain ⟨g₀, hg₀, heq⟩ := Form.exists_of_blank hblank hg
    refine h.valued_before (fun g₁ hg₁ hid => ?_) (Decidable.not_not.mp hget)
    have hc₀ : c.id ∈ g₀.order := by
      rw [← Group.order_eq_of_blank heq]
      exact List.mem_map_of_mem hc
    exact h.fits.member_id_ne_group_id h.named hg₀ hc₀ h.fits hg₁ hid

/-! ## The history and the main form -/

/-- The three keys that stand for themselves. -/
def ownKeys : List String := [textKey, sensitiveKey, historyKey]

/-- A panel with another text, case sensitivity and history, which its new store has. -/
theorem Stored.withOwn {pending : Checkbox → Prop} (h : p.Stored settings pending) {s : Store}
    {text : String} {sensitiveCase : Bool} {history : History}
    (hframe : ∀ key, key ∉ ownKeys → s.raw? key = p.store.raw? key)
    (htext : s.get textKey Json.text? "" = text)
    (hsensitive : s.get sensitiveKey Json.flag? settings.defaults.sensitiveCase = sensitiveCase)
    (hhistory : History.ofList p.historyLength (s.get historyKey Json.texts? []) = history) :
    { p with store := s, text := text, sensitiveCase := sensitiveCase, history := history }.Stored
      settings pending where
  fits := h.fits
  consistent := h.consistent
  rules := h.rules
  named := h.named
  historyLength := h.historyLength
  text := htext
  sensitiveCase := hsensitive
  history := hhistory
  unstored := by
    have helements : ∀ group ∈ filterGroups, elementsKey group ∉ ownKeys := by decide
    refine h.unstored.trans (List.filter_congr fun group hgroup => ?_)
    rw [Store.contains_congr (hframe _ (helements group hgroup))]
  records := by
    refine h.records.of_store (fun g hg hdyn => ?_) (fun g hg hdyn c hc => ?_)
    · have helements : ∀ group ∈ filterGroups, elementsKey group ∉ ownKeys := by decide
      exact hframe _ (helements g.id ((h.fits.dynamic_iff hg).mp hdyn))
    · have hfixed : ∀ key ∈ ownKeys, key ∈ fixedKeys := by decide
      exact hframe _ fun hmem => labelKey_not_mem_fixedKeys _ (hfixed _ hmem)
  values := by
    intro g hg c hc hnot
    have hfixed : ∀ key ∈ ownKeys, key ∈ fixedKeys := by decide
    have hkey : c.id ∉ ownKeys := fun hmem =>
      h.fits.not_isRecord h.named hg hc (isRecord_of_mem (hfixed _ hmem))
    exact (Store.get_congr (hframe _ hkey) _ _).trans (h.values g hg c hc hnot)

/-- **Replacing the history keeps a panel intact.** -/
theorem Intact.replaceHistory (h : p.Intact settings) (texts : List String) :
    (p.replaceHistory texts).Intact settings := by
  have hframe : ∀ key, key ≠ historyKey → (p.replaceHistory texts).store.raw? key = p.store.raw? key :=
    fun key hne => Store.raw?_set_of_ne hne
  have hraw : (p.replaceHistory texts).store.raw? historyKey
      = some (Json.ofTexts (History.ofList p.historyLength texts).entries) := by
    show (p.store.set historyKey _).raw? historyKey = _
    rw [Store.raw?_set, if_pos rfl, Json.settled_ofTexts]
  refine h.withOwn (fun key hkey => hframe key ?_) ?_ ?_ ?_
  · rintro rfl
    exact hkey (by decide)
  · exact (Store.get_congr (hframe _ (by decide)) _ _).trans h.text
  · exact (Store.get_congr (hframe _ (by decide)) _ _).trans h.sensitiveCase
  · have hread := Store.get_of_raw? hraw Json.texts? []
    rw [Json.texts?_ofTexts, Option.getD_some] at hread
    exact (congrArg (History.ofList p.historyLength) hread).trans
      (History.ofList_ofList p.historyLength texts)

theorem saveGroup_eq (p : Panel) (group : String) :
    p.saveGroup group = { p with store := p.store.setValues (p.form.membersOf group) } := by
  unfold saveGroup Form.membersOf
  cases p.form.group? group with
  | none => rfl
  | some g => exact saveAll_eq p g.members

/-- A store with the main form written: the text, the case sensitivity, and the values of both fixed groups. -/
def submitted (store : Store) (f : Form) (main : MainForm) : Store :=
  (((store.set textKey (.str main.text)).set sensitiveKey (.bool main.sensitiveCase)).setValues
    (f.membersOf conventions)).setValues (f.membersOf edges)

/-- Applying the main form writes it as a whole, and then the members of other groups that have changed. -/
theorem submit_eq (p : Panel) (main : MainForm) : p.submit main = saveChanges { p with
    text := main.text
    sensitiveCase := main.sensitiveCase
    form := p.form.overwriteAll main.checks
    store := submitted p.store (p.form.overwriteAll main.checks) main } p.form.values := by
  unfold submit
  simp only [fixedGroups, List.foldl_cons, List.foldl_nil, saveGroup_eq]
  rfl

/-- What applying the main form makes of a panel. -/
theorem submit_frame (p : Panel) (main : MainForm) : ∃ s, p.submit main = { p with
    store := s, form := p.form.overwriteAll main.checks, text := main.text,
    sensitiveCase := main.sensitiveCase } := by
  obtain ⟨s, hs⟩ := saveChanges_eq { p with
    text := main.text
    sensitiveCase := main.sensitiveCase
    form := p.form.overwriteAll main.checks
    store := submitted p.store (p.form.overwriteAll main.checks) main } p.form.values
  exact ⟨s, (submit_eq p main).trans hs⟩

/-- The main form keeps the shape of a panel. -/
theorem Shaped.submit (h : p.Shaped settings) (main : MainForm) : (p.submit main).Shaped settings := by
  obtain ⟨s, hs⟩ := submit_frame p main
  have hblank := Form.blank_overwriteAll p.form main.checks
  rw [hs]
  exact ⟨h.fits.of_blank hblank, Form.consistent_settle _, (Form.rules_eq_of_blank hblank).trans h.rules⟩

/-- **Applying the main form keeps a panel intact.** The fixed groups are saved as a whole, and the rules
may have changed others, which are saved after them. -/
theorem Intact.submit (h : p.Intact settings) (main : MainForm) : (p.submit main).Intact settings := by
  -- first the form, with values pending; then the text and the case sensitivity; then all is saved
  have hform := h.withForm (Form.blank_overwriteAll p.form main.checks) (Form.consistent_settle _)
  let s := (p.store.set textKey (.str main.text)).set sensitiveKey (.bool main.sensitiveCase)
  have htext : s.raw? textKey = some (.str main.text) := by
    rw [Store.raw?_set_of_ne (by decide), Store.raw?_set, if_pos rfl]
    rfl
  have hsensitive : s.raw? sensitiveKey = some (.bool main.sensitiveCase) := by
    rw [Store.raw?_set, if_pos rfl]
    rfl
  have hframe : ∀ key, key ≠ textKey → key ≠ sensitiveKey → s.raw? key = p.store.raw? key := by
    intro key hne hne'
    rw [Store.raw?_set_of_ne hne', Store.raw?_set_of_ne hne]
  have hown : { p with
      form := p.form.overwriteAll main.checks
      store := s, text := main.text, sensitiveCase := main.sensitiveCase }.Stored settings
        (Unsaved p.form.values) := by
    refine hform.withOwn (fun key hkey => ?_) ?_ ?_ ?_
    · apply hframe key
      · rintro rfl
        exact hkey (by decide)
      · rintro rfl
        exact hkey (by decide)
    · exact Store.get_of_raw? htext Json.text? ""
    · exact Store.get_of_raw? hsensitive Json.flag? _
    · show History.ofList p.historyLength (s.get historyKey Json.texts? []) = p.history
      rw [Store.get_congr (hframe _ (by decide) (by decide))]
      exact h.history
  exact ((hown.saveGroup conventions).saveGroup edges).saveChanges

end Panel

end AnyCase
