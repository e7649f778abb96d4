import AnyCase.Proofs.Occurrences
import AnyCase.Proofs.Session
import AnyCase.View

/-!
# `Proofs.History` — what a history remembers

The history of some texts is built by pushes from the oldest one on, and each push may cut off a text that comes back
with a later push. Still nothing is lost: the history has the first occurrences of the texts that are not empty, as far
as they have room (`History.entries_ofList`). A text that was cut off has enough others in front of it, all different,
which stay in front when one of them is pushed again (`take_filter_take`).

So what a client makes of its history by a push is clean already, and the daemon that gets it as a list of texts has
the same history afterwards (`History.normal_form`).
-/

namespace AnyCase

/-- What is cut off a list without repetitions is not needed in place of one element that is taken out. -/
theorem take_filter_take {l : List String} (h : l.Nodup) (x : String) (n : Nat) :
    ((l.take (n + 1)).filter (fun y => y ≠ x)).take n = (l.filter (fun y => y ≠ x)).take n := by
  induction l generalizing n with
  | nil => rfl
  | cons y rest ih =>
    obtain ⟨hy, hrest⟩ := List.nodup_cons.mp h
    rw [List.take_succ_cons]
    by_cases hyx : y = x
    · -- no other one is taken out
      subst hyx
      have hkept : ∀ l : List String, l ⊆ rest → l.filter (fun z => z ≠ y) = l := by
        intro l hl
        rw [List.filter_eq_self]
        intro z hz
        exact decide_eq_true fun heq => hy (heq ▸ hl hz)
      rw [List.filter_cons_of_neg (by simp), List.filter_cons_of_neg (by simp), hkept _ (List.take_subset n rest),
        hkept _ (List.Subset.refl rest), List.take_take, Nat.min_self]
    · rw [List.filter_cons_of_pos (by simpa using hyx), List.filter_cons_of_pos (by simpa using hyx)]
      cases n with
      | zero => rfl
      | succ n => rw [List.take_succ_cons, List.take_succ_cons, ih hrest n]

namespace History

/-- **A history has the first occurrences of its texts**, as many as there is room for, and no empty text. -/
theorem entries_ofList (capacity : Nat) (texts : List String) :
    (ofList capacity texts).entries = ((texts.filter (fun text => text ≠ "")).eraseDups).take capacity := by
  induction texts with
  | nil => rw [List.filter_nil, List.eraseDups_nil, List.take_nil]; rfl
  | cons text rest ih =>
    have hstep : ofList capacity (text :: rest) = push capacity text (ofList capacity rest) := rfl
    rw [hstep, push]
    split
    · rename_i hempty
      rw [ih, List.filter_cons_of_neg (by simp [hempty])]
    · rename_i hne
      rw [List.filter_cons_of_pos (by simpa using hne), List.eraseDups_cons]
      show (text :: (ofList capacity rest).entries.filter fun e => e ≠ text).take capacity = _
      rw [ih, eraseDups_filter fun other => !other == text]
      cases capacity with
      | zero => rfl
      | succ n =>
        have hnodup := (firstOccurrences_eraseDups (rest.filter fun text => text ≠ "")).nodup
        rw [List.take_succ_cons, List.take_succ_cons, take_filter_take hnodup]
        refine congrArg (fun l => text :: l.take n) (List.filter_congr fun other _ => Bool.eq_iff_iff.mpr ?_)
        simp

/-- Pushing texts is putting them in front, the last one first. -/
theorem foldl_push (capacity : Nat) (texts pushed : List String) :
    pushed.foldl (fun h text => h.push capacity text) (ofList capacity texts)
      = ofList capacity (pushed.reverse ++ texts) := by
  rw [ofList, ofList, List.foldr_append, List.foldr_reverse]

end History

namespace Session

variable {settings : Settings} {store : Store} {requests : List Request} {p : Panel}

/-- **The history of every open panel is clean.** -/
theorem clean_history (hopen : after settings (idle store) requests = active p) :
    p.history.Clean p.historyLength := by
  refine open_panel_induction (P := fun p => p.history.Clean p.historyLength) (fun store => ?_) (fun p op hp => ?_)
    (fun p hp => absurd hp (by simp)) hopen
  · obtain ⟨s, hs⟩ := Panel.saveChanges_eq _ _
    rw [Panel.restore, hs]
    exact History.clean_ofList _ _
  · cases op with
    | submit main =>
      obtain ⟨s, hs⟩ := Panel.submit_frame p main
      rw [Panel.perform, hs]
      exact hp
    | replaceHistory texts => exact History.clean_ofList _ _
    | edit group e =>
      rcases p.perform_edit group e with hsame | ⟨due, p', hedit, hmade⟩
      · rwa [hsame]
      · obtain ⟨s, u, hchanges⟩ := Panel.edit?_changes hedit
        rw [hmade, hchanges]
        exact hp

end Session

namespace History

open Session

/-- **What a history is made of.** The history of some texts has the first occurrences of those that are not empty,
as many as its capacity. Made again of its own texts it is the same, and after any pushes it has no text twice, no
empty one, and not more than its capacity. If a client has the history of an open panel, whatever store and requests
that panel comes from, and puts a text on top, then the request that it sends gives the panel the history that the
client has, also after the replies. -/
theorem normal_form :
    (∀ capacity texts, ∃ distinct, FirstOccurrences (texts.filter fun text => text ≠ "") distinct ∧
      (ofList capacity texts).entries = distinct.take capacity) ∧
    (∀ capacity texts, ofList capacity (ofList capacity texts).entries = ofList capacity texts) ∧
    (∀ capacity (texts pushed : List String),
      let h := pushed.foldl (fun h text => h.push capacity text) (ofList capacity texts)
      h.entries.Nodup ∧ "" ∉ h.entries ∧ h.entries.length ≤ capacity) ∧
    ∀ (settings : Settings) (store : Store) (requests : List Request) (p : Panel) (v : View) (text : String),
      after settings (idle store) requests = active p → v.history = p.history →
      let told := v.recordText text p.historyLength
      let answer := (active p).respond settings told.1
      ∃ p', answer.session = active p' ∧ p'.history = told.2.history ∧
        (told.2.receiveAll answer.replies).history = p'.history := by
  refine ⟨fun capacity texts => ?_, ofList_ofList, fun capacity texts pushed => ?_, ?_⟩
  · exact ⟨_, firstOccurrences_eraseDups _, entries_ofList capacity texts⟩
  · intro h
    have hclean : h.Clean capacity := by
      rw [show h = ofList capacity (pushed.reverse ++ texts) from foldl_push capacity texts pushed]
      exact clean_ofList capacity _
    exact ⟨hclean.2.1, hclean.1, hclean.2.2⟩
  · intro settings store requests p v text hopen hsame
    -- the history that is sent is clean, so it is the same when it is made of its texts
    have hclean : (v.history.push p.historyLength text).Clean p.historyLength := by
      rw [hsame]
      exact clean_push (clean_history hopen) text
    have hhistory : (p.replaceHistory (v.history.push p.historyLength text).entries).history
        = v.history.push p.historyLength text := hclean.ofList_entries
    exact ⟨_, rfl, hhistory, hhistory.symm⟩

/-- A text that was cut off and comes back, an empty one and one that is there twice; and a client that puts a text on
top of a full history. -/
theorem normal_form_of_full :
    let settings := { Settings.standard with historyLength := 2 }
    let p := (Panel.restore Store.empty settings).replaceHistory ["x", "", "y", "x", "z"]
    let v := View.receive default (.textHistory p.history.entries)
    let told := v.recordText "z" p.historyLength
    (p.history = ⟨["x", "y"]⟩ ∧ v.history = p.history) ∧ told.2.history = ⟨["z", "x"]⟩ ∧
      ∃ p', ((active p).respond settings told.1).session = active p' ∧ p'.history = ⟨["z", "x"]⟩ := by
  intro settings p v told
  have hhistory : p.history = ⟨["x", "y"]⟩ ∧ v.history = p.history := by decide
  have htold : told.2.history = ⟨["z", "x"]⟩ := by decide
  have hopen : after settings (idle .empty) [.openPanel, .history none ["x", "", "y", "x", "z"]] = active p := rfl
  obtain ⟨p', hsession, hsame, -⟩ := normal_form.2.2.2 settings .empty _ p v "z" hopen hhistory.2
  exact ⟨hhistory, htold, p', hsession, hsame.trans htold⟩

end History

end AnyCase
