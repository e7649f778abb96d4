import AnyCase.Proofs.Session

/-!
# `Proofs.Slots` — the store is never lost

A session is idle with a store at rest, or it has an open panel that owns the store. Kept in two fields that may each
be empty (`Slots`), the store has to be moved: opening takes it out of one field, closing puts it back. Nothing in the
two fields says that it does not get lost on the way, or that it is in one place only. But both are so: whatever is
asked, the fields are those of a session (`Slots.after_ofSession`), so exactly one of them is filled, and there is always a
store to open the panel with.

What is in the store may change under way. Keys come with every change, but only removing an element deletes any, and
those are two of its own (`Session.keptBut_respond`).
-/

namespace AnyCase

/-! ## Keys that stay -/

namespace Store

/-- Whether a store that has come from another one has all its keys, but for some that may be gone. -/
def KeptBut (gone : String → Prop) (s s' : Store) : Prop :=
  ∀ key, s.contains key = true → s'.contains key = true ∨ gone key

variable {gone gone' : String → Prop} {s s' s'' : Store}

theorem KeptBut.refl (gone : String → Prop) (s : Store) : s.KeptBut gone s := fun _ h => Or.inl h

theorem KeptBut.trans (h : s.KeptBut gone s') (h' : s'.KeptBut gone s'') : s.KeptBut gone s'' :=
  fun key hkey => (h key hkey).elim (h' key) Or.inr

theorem KeptBut.mono (h : s.KeptBut gone s') (hsub : ∀ key, gone key → gone' key) : s.KeptBut gone' s' :=
  fun key hkey => (h key hkey).imp_right (hsub key)

theorem keptBut_set (gone : String → Prop) (s : Store) (key : String) (v : Json) : s.KeptBut gone (s.set key v) := by
  intro k hk
  left
  rw [contains, raw?_set]
  split
  · rfl
  · exact hk

theorem keptBut_delete {key : String} (hgone : gone key) (s : Store) : s.KeptBut gone (s.delete key) := by
  intro k hk
  by_cases heq : k = key
  · exact Or.inr (heq ▸ hgone)
  · left
    rw [contains, raw?_delete_of_ne heq]
    exact hk

theorem keptBut_setValues (gone : String → Prop) (s : Store) (members : List Checkbox) :
    s.KeptBut gone (s.setValues members) := by
  induction members generalizing s with
  | nil => exact .refl gone s
  | cons c rest ih => exact (keptBut_set gone s c.id _).trans (ih (s.set c.id (.bool c.selected)))

end Store

namespace Panel

open Layout Store

variable {gone : String → Prop} {s : Store} {p p' : Panel} {group : String} {e : Edit} {due : Due} {searched : Bool}

theorem keptBut_saveChanges (h : s.KeptBut gone p.store) (before : Dict Bool) :
    s.KeptBut gone (p.saveChanges before).store := by
  rw [saveChanges, saveAll_eq]
  exact h.trans (keptBut_setValues gone p.store _)

theorem keptBut_saveOrder (h : s.KeptBut gone p.store) (group : String) :
    s.KeptBut gone (p.saveOrder group).store := by
  unfold saveOrder
  split
  · exact h.trans (keptBut_set gone p.store _ _)
  · exact h

/-- Opening a panel deletes nothing from its store. -/
theorem keptBut_restore (gone : String → Prop) (store : Store) (settings : Settings) :
    store.KeptBut gone (restore store settings).store := by
  unfold restore
  exact keptBut_saveChanges (.refl gone store) _

theorem keptBut_submit (gone : String → Prop) (p : Panel) (main : MainForm) :
    p.store.KeptBut gone (p.submit main).store := by
  rw [submit_eq]
  refine keptBut_saveChanges ?_ _
  -- the text, the case sensitivity, and both fixed groups
  exact (((keptBut_set gone p.store _ _).trans (keptBut_set gone _ _ _)).trans
    (keptBut_setValues gone _ _)).trans (keptBut_setValues gone _ _)

/-- The keys that an edit deletes: those of the value and of the label of an element that it removes. -/
def Deletes : Edit → String → Prop
  | .remove id, key => key = id ∨ key = labelKey id
  | _, _ => False

theorem keptBut_change? (h : p.change? group e = .ok (due, p')) : p.store.KeptBut (Deletes e) p'.store := by
  cases changed_of_change? h with
  | set hset => exact .refl _ p.store
  | add hadd => exact keptBut_saveOrder (keptBut_set _ p.store _ _) group
  | amend hamend => exact keptBut_set _ p.store _ _
  | @remove id removed f hremove =>
    have hvalue : p.store.KeptBut (Deletes (.remove id)) (p.store.delete id) := keptBut_delete (Or.inl rfl) p.store
    have hlabel : (p.store.delete id).KeptBut (Deletes (.remove id)) ((p.store.delete id).delete (labelKey id)) :=
      keptBut_delete (Or.inr rfl) _
    exact keptBut_saveOrder (hvalue.trans hlabel) group
  | reorder hreorder =>
    refine keptBut_saveOrder ?_ group
    exact .refl _ p.store

theorem keptBut_edit? (h : p.edit? group e = .ok (searched, p')) : p.store.KeptBut (Deletes e) p'.store := by
  obtain ⟨⟨due, p₁⟩, hchange, heq⟩ := bind_eq_ok_iff.mp h
  obtain ⟨-, rfl⟩ := Prod.mk.inj (Except.ok.inj heq)
  exact keptBut_saveChanges (keptBut_change? hchange) _

end Panel

/-- The keys that a request deletes if it is accepted. -/
def Request.Deletes : Request → String → Prop
  | .edit _ e, key => Panel.Deletes e key
  | _, _ => False

namespace Session

open Store

variable {settings : Settings} {s : Session}

/-- **No request deletes a key of the store**, but for those of an element that it removes. -/
theorem keptBut_respond (settings : Settings) (s : Session) (r : Request) :
    s.store.KeptBut r.Deletes (s.respond settings r).session.store := by
  cases s with
  | idle store =>
    cases r with
    | openPanel => exact Panel.keptBut_restore _ store settings
    | _ => exact .refl _ store
  | active p =>
    cases r with
    | mainInstant form => exact Panel.keptBut_submit _ p form
    | history fieldId texts => exact keptBut_set _ p.store _ _
    | edit group e =>
      rw [respond_edit_session]
      rcases p.perform_edit group e with hsame | ⟨due, p', hedit, hmade⟩
      · rw [hsame]
        exact .refl _ p.store
      · rw [hmade]
        exact Panel.keptBut_edit? hedit
    | _ => exact .refl _ p.store

/-- Over some requests, only those delete keys that remove elements. -/
theorem keptBut_after (s : Session) (requests : List Request) :
    s.store.KeptBut (fun key => ∃ r ∈ requests, r.Deletes key) (after settings s requests).store := by
  induction requests generalizing s with
  | nil => exact .refl _ s.store
  | cons r rest ih =>
    have hstep := (keptBut_respond settings s r).mono fun key hkey =>
      show ∃ r' ∈ r :: rest, r'.Deletes key from ⟨r, List.mem_cons_self, hkey⟩
    refine hstep.trans ((ih (s.respond settings r).session).mono ?_)
    rintro key ⟨r', hr', hkey⟩
    exact ⟨r', List.mem_cons_of_mem r hr', hkey⟩

end Session

/-! ## Two fields -/

/-- A session in two fields, one for the store at rest and one for the open panel. -/
structure Slots where
  store? : Option Store
  panel? : Option Panel

namespace Slots

/-- What handling a request leads to. -/
structure Answer where
  slots : Slots
  replies : List Reply
  searches : List Search

/-- The fields of a new session. -/
def start (store : Store) : Slots := ⟨some store, none⟩

/-- Opens the panel, which takes the store, or shows it if it is open. Without a store there is nothing to open. -/
def openPanel (settings : Settings) (d : Slots) : Answer :=
  match d.panel? with
  | some panel => ⟨d, [.reveal, .state panel.state], []⟩
  | none =>
    match d.store? with
    | none => ⟨d, [], []⟩
    | some store =>
      let panel := Panel.restore store settings
      ⟨⟨none, some panel⟩, Session.report panel, []⟩

/-- Closes the panel, which gives the store back. -/
def close (d : Slots) : Answer :=
  match d.panel? with
  | some panel => ⟨⟨some panel.store, none⟩, [], []⟩
  | none => ⟨d, [], []⟩

/-- Handles a request. What is asked of an open panel changes the panel in its field. -/
def respond (settings : Settings) (d : Slots) : Request → Answer
  | .openPanel => d.openPanel settings
  | .close | .shutdown => d.close
  | request =>
    match d.panel? with
    | some panel =>
      let outcome := Session.answerOpen panel request
      ⟨{ d with panel? := outcome.session.panel? }, outcome.replies, outcome.searches⟩
    | none => ⟨d, [], []⟩

/-- The fields after some requests. -/
def after (settings : Settings) (d : Slots) (requests : List Request) : Slots :=
  requests.foldl (fun d r => (d.respond settings r).slots) d

/-- The store, wherever it is. -/
def content? (d : Slots) : Option Store := d.store?.or (d.panel?.map (·.store))

/-- Whether a key has a value in the store. -/
def hasKey (d : Slots) (key : String) : Bool := d.content?.any (·.contains key)

/-- The fields of a session. -/
def ofSession : Session → Slots
  | .idle store => ⟨some store, none⟩
  | .active panel => ⟨none, some panel⟩

/-- The answer with an outcome. -/
def Answer.ofOutcome (o : Outcome) : Answer := ⟨ofSession o.session, o.replies, o.searches⟩

variable {settings : Settings}

theorem content?_ofSession (s : Session) : (ofSession s).content? = some s.store := by
  cases s <;> rfl

theorem hasKey_ofSession (s : Session) (key : String) : (ofSession s).hasKey key = s.store.contains key := by
  rw [hasKey, content?_ofSession, Option.any_some]

/-- **The fields of a session answer as the session.** -/
theorem respond_ofSession (s : Session) (r : Request) :
    (ofSession s).respond settings r = .ofOutcome (s.respond settings r) := by
  cases s with
  | idle store => cases r <;> rfl
  | active p =>
    cases r with
    | edit group e =>
      show Answer.mk ⟨none, (Session.answerOpen p (.edit group e)).session.panel?⟩ _ _ = _
      rw [Answer.ofOutcome, Session.respond, Session.answerOpen]
      cases p.edit? group e <;> rfl
    | _ => rfl

/-- Whatever is asked, the fields are those of a session. -/
theorem after_ofSession (s : Session) (requests : List Request) :
    (ofSession s).after settings requests = ofSession (Session.after settings s requests) := by
  induction requests generalizing s with
  | nil => rfl
  | cons r rest ih =>
    rw [after, List.foldl_cons, respond_ofSession]
    exact ih (s.respond settings r).session

/-- **The store is never lost.** After any requests to a new session, exactly one of its two fields is filled, and the
fields answer every request as the session does. Opening the panel is therefore always answered with the state of an
open panel. Without one, no other request is answered, runs a search or changes anything. Closing, stopping, telling
the state and showing a panel that is open leave the store as it is. And over any further requests, which open and close
the panel as they please, no key is lost, but for those of elements that were removed. -/
theorem store_never_lost (settings : Settings) (store : Store) (requests : List Request) :
    let d := (start store).after settings requests
    d.store?.isSome = !d.panel?.isSome ∧
    (∀ r, d.respond settings r
      = .ofOutcome ((Session.after settings (.idle store) requests).respond settings r)) ∧
    (∃ p, (d.respond settings .openPanel).slots.panel? = some p ∧
      .state p.state ∈ (d.respond settings .openPanel).replies) ∧
    (d.panel? = none → ∀ r, r ≠ .openPanel → d.respond settings r = ⟨d, [], []⟩) ∧
    (∀ r, r = .close ∨ r = .shutdown ∨ r = .snapshot ∨ (r = .openPanel ∧ d.panel?.isSome = true) →
      (d.respond settings r).slots.content? = d.content?) ∧
    ∀ rest key, d.hasKey key = true →
      (d.after settings rest).hasKey key = true ∨ ∃ r ∈ rest, r.Deletes key := by
  intro d
  have hd : d = ofSession (Session.after settings (.idle store) requests) := after_ofSession (.idle store) requests
  generalize Session.after settings (.idle store) requests = s at hd ⊢
  rw [hd]
  refine ⟨?_, respond_ofSession s, ?_, ?_, ?_, ?_⟩
  · cases s <;> rfl
  · cases s with
    | idle store => exact ⟨_, rfl, List.mem_cons_self⟩
    | active p => exact ⟨p, rfl, List.mem_cons_of_mem _ List.mem_cons_self⟩
  · intro hnone r hr
    cases s with
    | idle store =>
      cases r with
      | openPanel => exact absurd rfl hr
      | _ => rfl
    | active p => exact absurd hnone (by simp [ofSession])
  · rintro r (rfl | rfl | rfl | ⟨rfl, hopen⟩)
    · cases s <;> rfl
    · cases s <;> rfl
    · cases s <;> rfl
    · cases s with
      | idle store => exact absurd hopen (by simp [ofSession])
      | active p => rfl
  · intro rest key hkey
    rw [hasKey_ofSession] at hkey
    rw [after_ofSession, hasKey_ofSession]
    exact s.keptBut_after rest key hkey

/-- A session without a panel is asked to tell its state. In another one a filter was added, and then its panel is
shown, closed twice, opened and closed again: the label of the filter is still there, and so is a key that nothing
reads. -/
theorem store_never_lost_in_disorder :
    let settings := { Settings.standard with rules := [.exclusive Layout.included Layout.excluded] }
    let store := Store.empty.set "unread" (.str "a")
    let d := (start store).after settings [.close, .snapshot, .shutdown]
    let e := (start store).after settings [.shutdown, .openPanel, .edit Layout.included (.add "*.rs" true none)]
    let rest : List Request := [.openPanel, .close, .close, .openPanel, .shutdown]
    (d.panel? = none ∧ d.respond settings .snapshot = ⟨d, [], []⟩) ∧
      (e.panel?.isSome = true ∧ (e.respond settings .openPanel).slots.content? = e.content?) ∧
      (e.hasKey "unread" = true ∧ e.hasKey "filesToInclude-0-label" = true) ∧
      (e.after settings rest).hasKey "unread" = true ∧
      (e.after settings rest).hasKey "filesToInclude-0-label" = true := by
  intro settings store d e rest
  have hnone : d.panel? = none := rfl
  have hsome : e.panel?.isSome = true := by decide
  have hkeys : e.hasKey "unread" = true ∧ e.hasKey "filesToInclude-0-label" = true := by decide
  have hkeeps : ∀ r ∈ rest, ∀ key, ¬r.Deletes key := by simp [rest, Request.Deletes]
  obtain ⟨-, -, -, hidle, -, -⟩ := store_never_lost settings store [.close, .snapshot, .shutdown]
  obtain ⟨-, -, -, -, hcontent, hkept⟩ := store_never_lost settings store
    [.shutdown, .openPanel, .edit Layout.included (.add "*.rs" true none)]
  refine ⟨⟨hnone, hidle hnone .snapshot (by decide)⟩,
    ⟨hsome, hcontent .openPanel (Or.inr (Or.inr (Or.inr ⟨rfl, hsome⟩)))⟩, hkeys, ?_, ?_⟩
  · exact (hkept rest "unread" hkeys.1).resolve_right fun ⟨r, hr, hkey⟩ => hkeeps r hr _ hkey
  · exact (hkept rest _ hkeys.2).resolve_right fun ⟨r, hr, hkey⟩ => hkeeps r hr _ hkey

end Slots

end AnyCase
