import AnyCase.Proofs.Search
import AnyCase.Session
import Mathlib.Data.List.Infix

/-!
# `Proofs.Session` — what a session does over many requests

A session is followed over a list of requests: `Session.after` is where it ends, and `Session.searches` are
the searches it runs on the way. What one request does is said by two lemmas, one per state of the session
(`quiet_answerIdle`, `quiet_answerOpen`); a run is an induction over its last request.

An open panel was read from some store and then changed by operations, so what both establish holds of it
(`open_panel_induction`). Whatever the store, it has the right shape (`shapely_after`).

`last_search_current` is about the searches. Between requests, the last search that was run is the one that
the open panel describes, unless an element was turned on since then. Closing and opening the panel in
between changes nothing, as long as no element has had the last number: a later one may share its id, and then
the two are read back as one (`last_search_stale_after_last_number`).
-/

namespace AnyCase

namespace Session

open Panel

variable {settings : Settings} {s : Session} {store : Store} {p q : Panel}

/-! ## Runs -/

/-- The session after some requests. -/
def after (settings : Settings) : Session → List Request → Session
  | s, [] => s
  | s, r :: rest => after settings (s.respond settings r).session rest

/-- The searches that some requests lead to, in order. -/
def searches (settings : Settings) : Session → List Request → List Search
  | _, [] => []
  | s, r :: rest =>
    (s.respond settings r).searches ++ searches settings (s.respond settings r).session rest

theorem after_cons (s : Session) (r : Request) (rest : List Request) :
    after settings s (r :: rest) = after settings (s.respond settings r).session rest := rfl

theorem after_append (s : Session) (l l' : List Request) :
    after settings s (l ++ l') = after settings (after settings s l) l' := by
  induction l generalizing s with
  | nil => rfl
  | cons r rest ih => exact ih (s.respond settings r).session

theorem searches_append (s : Session) (l l' : List Request) :
    searches settings s (l ++ l') = searches settings s l ++ searches settings (after settings s l) l' := by
  induction l generalizing s with
  | nil => rfl
  | cons r rest ih =>
    show _ ++ searches settings _ (rest ++ l') = (_ ++ _) ++ _
    rw [ih, List.append_assoc]
    rfl

theorem respond_openPanel_session (store : Store) :
    ((idle store).respond settings .openPanel).session = active (restore store settings) := rfl

theorem respond_close_session (p : Panel) :
    ((active p).respond settings .close).session = idle p.store := rfl

/-- An edit leads to the panel that it makes, or leaves it as it is. -/
theorem respond_edit_session (p : Panel) (group : String) (e : Edit) :
    ((active p).respond settings (.edit group e)).session = active (p.perform (.edit group e)) := by
  cases hedit : p.edit? group e with
  | ok made => simp only [respond, answerOpen, perform, hedit]
  | error refusal => simp only [respond, answerOpen, perform, hedit]

/-! ## What holds between requests -/

/-- A session from whose store the panel is read as it was, with numbers for its elements. -/
def Kept (settings : Settings) : Session → Prop
  | idle store => Layout.Sound store
  | active panel => panel.Intact settings ∧ ∀ g ∈ panel.form.groups, g.Numbered

/-- Whether no element of the open panel has the last number. -/
def InRange : Session → Prop
  | idle _ => True
  | active panel => panel.InRange

instance : (s : Session) → Decidable s.InRange
  | idle _ => instDecidableTrue
  | active panel => inferInstanceAs (Decidable panel.InRange)

/-- The search of the open panel, or of the one that would be opened. -/
def current (settings : Settings) : Session → Search
  | idle store => (restore store settings).search
  | active panel => panel.search

/-- Whether a request amends an unselected element and selects it. -/
def TurnsOn (s : Session) (r : Request) : Prop :=
  ∃ p group e due p', s = active p ∧ r = .edit group e ∧ p.edit? group e = .ok (due, p') ∧
    p.TurnsOn group e

/-- What a request may do to the searches: it runs none and the current one is the same, it runs the one
that is current after it, or it turns an element on. -/
def Quiet (settings : Settings) (s : Session) (r : Request) : Prop :=
  ((s.respond settings r).searches = [] ∧
      (current settings (s.respond settings r).session = current settings s ∨ s.TurnsOn r)) ∨
    (s.respond settings r).searches = [current settings (s.respond settings r).session]

/-- Without a panel no search is run. -/
theorem quiet_answerIdle (store : Store) (r : Request) : Quiet settings (idle store) r := by
  cases r with
  | openPanel => exact Or.inl ⟨rfl, Or.inl rfl⟩
  | close => exact Or.inl ⟨rfl, Or.inl rfl⟩
  | snapshot => exact Or.inl ⟨rfl, Or.inl rfl⟩
  | shutdown => exact Or.inl ⟨rfl, Or.inl rfl⟩
  | mainInstant form => exact Or.inl ⟨rfl, Or.inl rfl⟩
  | history fieldId texts => exact Or.inl ⟨rfl, Or.inl rfl⟩
  | edit group e => exact Or.inl ⟨rfl, Or.inl rfl⟩

/-- With a panel a search is run whenever the current one has changed, unless an element was turned on. -/
theorem quiet_answerOpen (h : p.Intact settings) (r : Request) : Quiet settings (active p) r := by
  cases r with
  | openPanel => exact Or.inl ⟨rfl, Or.inl rfl⟩
  -- what is current without a panel is the search of the one that would be opened
  | close => exact Or.inl ⟨rfl, Or.inl h.search_restore⟩
  | snapshot => exact Or.inl ⟨rfl, Or.inl rfl⟩
  | shutdown => exact Or.inl ⟨rfl, Or.inl h.search_restore⟩
  | mainInstant form => exact Or.inr rfl
  | history fieldId texts => exact Or.inl ⟨rfl, Or.inl rfl⟩
  | edit group e =>
    cases hedit : p.edit? group e with
    | error refusal =>
      have hrespond : (active p).respond settings (.edit group e)
          = ⟨active p, [.rejected refusal.message], []⟩ := by
        simp only [respond, answerOpen, hedit]
      rw [Quiet, hrespond]
      exact Or.inl ⟨rfl, Or.inl rfl⟩
    | ok made =>
      obtain ⟨due, p'⟩ := made
      have hrespond : (active p).respond settings (.edit group e)
          = ⟨active p', [.state p'.state], if due then [p'.search] else []⟩ := by
        simp only [respond, answerOpen, hedit]
      rw [Quiet, hrespond]
      cases due with
      | true => exact Or.inr rfl
      | false =>
        refine Or.inl ⟨rfl, ?_⟩
        by_cases hon : p.TurnsOn group e
        · exact Or.inr ⟨p, group, e, false, p', rfl, rfl, hedit, hon⟩
        · exact Or.inl (h.search_edit? hedit hon)

theorem Kept.quiet (h : Kept settings s) (r : Request) : Quiet settings s r := by
  cases s with
  | idle store => exact quiet_answerIdle store r
  | active p => exact quiet_answerOpen h.1 r

/-- An open panel after a request was opened by it, or it is the one that was open, with or without an operation
on it. A session at rest has the store that it had, or that of the panel. -/
theorem session_of_respond (settings : Settings) (s : Session) (r : Request) :
    (∃ store, s = idle store ∧ ((s.respond settings r).session = idle store ∨
      (s.respond settings r).session = active (restore store settings))) ∨
    ∃ p, s = active p ∧ ((s.respond settings r).session = idle p.store ∨ (s.respond settings r).session = s ∨
      ∃ op, (s.respond settings r).session = active (p.perform op)) := by
  cases s with
  | idle store =>
    left
    refine ⟨store, rfl, ?_⟩
    cases r with
    | openPanel => exact Or.inr rfl
    | _ => exact Or.inl rfl
  | active p =>
    right
    refine ⟨p, rfl, ?_⟩
    cases r with
    | openPanel => exact Or.inr (Or.inl rfl)
    | snapshot => exact Or.inr (Or.inl rfl)
    | close => exact Or.inl rfl
    | shutdown => exact Or.inl rfl
    | mainInstant form => exact Or.inr (Or.inr ⟨.submit form, rfl⟩)
    | history fieldId texts => exact Or.inr (Or.inr ⟨.replaceHistory texts, rfl⟩)
    | edit group e => exact Or.inr (Or.inr ⟨.edit group e, respond_edit_session p group e⟩)

theorem Kept.step (h : Kept settings s) (r : Request) (hrange : (s.respond settings r).session.InRange) :
    Kept settings (s.respond settings r).session := by
  rcases session_of_respond settings s r with
    ⟨store, rfl, hidle | hopened⟩ | ⟨p, rfl, hclosed | hsame | ⟨op, hmade⟩⟩
  · rwa [hidle]
  · rw [hopened] at hrange ⊢
    exact ⟨intact_restore h settings, numbered_restore h hrange⟩
  · rw [hclosed]
    exact h.1.sound
  · rwa [hsame]
  · rw [hmade] at hrange ⊢
    exact ⟨h.1.perform h.2 op, h.1.numbered_perform h.2 op hrange⟩

/-- **A session keeps what it is told**, whatever it is asked. -/
theorem kept_after {requests : List Request} (h : Kept settings s)
    (hrange : ∀ before, before <+: requests → (after settings s before).InRange) :
    Kept settings (after settings s requests) := by
  -- every prefix after the first request is a prefix of all requests, with that one in front
  induction requests generalizing s with
  | nil => exact h
  | cons r rest ih =>
    have hbehind : ∀ before, before <+: rest → (after settings s (r :: before)).InRange :=
      fun before hbefore => hrange _ (List.cons_prefix_cons.mpr ⟨rfl, hbefore⟩)
    exact ih (h.step r (hbehind [] List.nil_prefix)) hbehind

/-! ## The shape of a panel -/

/-- **What holds of every panel that is read from a store, and is kept by every operation, holds of every open
panel.** -/
theorem open_panel_induction {requests : List Request} {P : Panel → Prop}
    (hrestore : ∀ store, P (restore store settings)) (hperform : ∀ p op, P p → P (p.perform op))
    (hs : ∀ p, s = active p → P p) (hopen : after settings s requests = active q) : P q := by
  induction requests generalizing s with
  | nil => exact hs q hopen
  | cons r rest ih =>
    refine ih (fun p hp => ?_) hopen
    rcases session_of_respond settings s r with
      ⟨store, -, hidle | hopened⟩ | ⟨p₀, rfl, hclosed | hsame | ⟨op, hmade⟩⟩
    · exact absurd (hp.symm.trans hidle) (by simp)
    · obtain rfl := Session.active.inj (hp.symm.trans hopened)
      exact hrestore store
    · exact absurd (hp.symm.trans hclosed) (by simp)
    · obtain rfl := Session.active.inj (hp.symm.trans hsame)
      exact hs _ rfl
    · obtain rfl := Session.active.inj (hp.symm.trans hmade)
      exact hperform _ op (hs _ rfl)

/-- Whether the open panel, if there is one, has the right shape. -/
def Shapely (settings : Settings) : Session → Prop
  | idle _ => True
  | active panel => panel.Shaped settings

/-- **Every open panel has the right shape**, whatever store it was opened on. -/
theorem shapely_after {requests : List Request} (h : Shapely settings s) :
    Shapely settings (after settings s requests) := by
  cases hafter : after settings s requests with
  | idle store => exact trivial
  | active q =>
    refine open_panel_induction (P := Panel.Shaped settings) (fun store => shaped_restore store settings)
      (fun p op hp => hp.perform op) (fun p hs => ?_) hafter
    subst hs
    exact h

/-! ## The last search -/

/-- Whether an element was turned on, by one of the requests, after the last search. -/
def TurnedOnSince (settings : Settings) (s : Session) (requests : List Request) : Prop :=
  ∃ before r rest, requests = before ++ r :: rest ∧
    searches settings (after settings s before) (r :: rest) = [] ∧ (after settings s before).TurnsOn r

/-- Requests without a search leave it open whether an element was turned on before them. -/
theorem TurnedOnSince.snoc {requests : List Request} {r : Request}
    (h : TurnedOnSince settings s requests)
    (hnone : ((after settings s requests).respond settings r).searches = []) :
    TurnedOnSince settings s (requests ++ [r]) := by
  obtain ⟨before, r₀, rest, rfl, hsearches, hon⟩ := h
  refine ⟨before, r₀, rest ++ [r], by simp, ?_, hon⟩
  rw [after_append] at hnone
  show searches settings (after settings s before) ((r₀ :: rest) ++ [r]) = []
  rw [searches_append, hsearches]
  show ((after settings (after settings s before) (r₀ :: rest)).respond settings r).searches ++ [] = []
  rw [hnone]
  rfl

/-- The last search of a run is the current one, or an element was turned on since. -/
theorem last_search_after {requests : List Request} (h : Kept settings s)
    (hrange : ∀ before, before <+: requests → (after settings s before).InRange) {last : Search}
    (hlast : (searches settings s requests).getLast? = some last) :
    last = current settings (after settings s requests) ∨ TurnedOnSince settings s requests := by
  -- on the last request: whether it ran a search decides which search is the last one
  induction requests using List.reverseRecOn with
  | nil => exact absurd hlast (by simp [searches])
  | append_singleton requests r ih =>
    have hbefore : ∀ before, before <+: requests → (after settings s before).InRange :=
      fun before hpre => hrange before (hpre.trans (List.prefix_append _ _))
    have hkept : Kept settings (after settings s requests) := kept_after h hbefore
    have hquiet := hkept.quiet r
    have hstep : after settings s (requests ++ [r])
        = ((after settings s requests).respond settings r).session := by
      rw [after_append]
      rfl
    have hsearches : searches settings s (requests ++ [r])
        = searches settings s requests ++ ((after settings s requests).respond settings r).searches := by
      rw [searches_append]
      show _ ++ (_ ++ []) = _
      rw [List.append_nil]
    rw [hsearches] at hlast
    rw [hstep]
    rcases hquiet with ⟨hnone, hcurrent⟩ | hsome
    · -- nothing was run: the last search is that of the requests before
      rw [hnone, List.append_nil] at hlast
      rcases ih hbefore hlast with heq | hon
      · rcases hcurrent with hsame | hturned
        · exact Or.inl (heq.trans hsame.symm)
        · refine Or.inr ⟨requests, r, [], rfl, ?_, hturned⟩
          show _ ++ [] = []
          rw [hnone]
          rfl
      · exact Or.inr (hon.snoc hnone)
    · rw [hsome, List.getLast?_append, List.getLast?_singleton, Option.some_or] at hlast
      exact Or.inl (Option.some.inj hlast).symm

/-- **The last search is up to date.** In a run that starts without any values stored, the last search that
was run is the one that the open panel describes, unless since then an element was amended that was not
selected before, and selected; this is so as long as no element has the last number. Any other edit for which no
search is due leaves the search as it is, and a reordering asks for a search exactly when it changes a filter. -/
theorem last_search_current {requests : List Request} (hempty : store.values = Dict.empty)
    (hopen : after settings (idle store) requests = active p) :
    ((∀ before, before <+: requests → (after settings (idle store) before).InRange) →
      ∀ last, (searches settings (idle store) requests).getLast? = some last →
        last = p.search ∨ TurnedOnSince settings (idle store) requests) ∧
    (∀ group e p', p.edit? group e = .ok (false, p') → ¬p.TurnsOn group e → p'.search = p.search) ∧
    (∀ group ids due p', p.edit? group (.reorder ids) = .ok (due, p') →
      (due = true ↔ p'.filters ≠ p.filters)) := by
  have hshaped : p.Shaped settings := by
    have hafter : Shapely settings (after settings (idle store) requests) := shapely_after (s := idle store) trivial
    rwa [hopen] at hafter
  refine ⟨fun hrange last hlast => ?_, fun group e p' hedit hnot => hshaped.search_edit? hedit hnot, ?_⟩
  · have hkept : Kept settings (idle store) := Layout.sound_of_empty hempty
    have hcurrent := last_search_after hkept hrange hlast
    rwa [hopen] at hcurrent
  · intro group ids due p' hedit
    obtain ⟨⟨due', p₁⟩, hchange, heq⟩ := bind_eq_ok_iff.mp hedit
    obtain ⟨f, -, hreorder⟩ := bind_eq_ok_iff.mp hchange
    obtain ⟨rfl, rfl⟩ := Prod.mk.inj (Except.ok.inj hreorder)
    obtain ⟨rfl, rfl⟩ := Prod.mk.inj (Except.ok.inj heq)
    exact decide_eq_true_iff

/-- A filter is added, which runs a search, and the panel is closed and opened again. -/
theorem last_search_current_after_closing :
    let settings := { Settings.standard with rules := [.exclusive Layout.included Layout.excluded] }
    let p := (restore Store.empty settings).perform (.edit Layout.included (.add "*.rs" true none))
    let requests := [.openPanel, .edit Layout.included (.add "*.rs" true none), .close, .openPanel]
    (searches settings (idle .empty) requests).length = 1 ∧
      ∀ last, (searches settings (idle .empty) requests).getLast? = some last →
        last = (restore p.store settings).search ∨ TurnedOnSince settings (idle .empty) requests := by
  intro settings p requests
  have hrange : ∀ before ∈ requests.inits, (after settings (idle .empty) before).InRange := by decide
  have hopen : after settings (idle .empty) requests = active (restore p.store settings) := by
    rw [after_cons, respond_openPanel_session, after_cons, respond_edit_session, after_cons,
      respond_close_session, after_cons, respond_openPanel_session]
    rfl
  exact ⟨by decide, (last_search_current rfl hopen).1 fun before h => hrange _ ((List.mem_inits _ _).mpr h)⟩

/-- After the last number the first one is given again. The labels of the two elements are stored under one key, so
a panel that is closed and opened again describes another search than the last one. -/
theorem last_search_stale_after_last_number :
    let requests := [.openPanel, .edit Layout.included (.add "a" true none),
      .edit Layout.included (.add "b" true (some "filesToInclude-18446744073709551615")),
      .edit Layout.included (.add "c" true none), .close, .openPanel]
    ∃ p last, after .standard (idle .empty) requests = active p ∧
      (searches .standard (idle .empty) requests).getLast? = some last ∧
      last.filesToInclude = some "a,b,c" ∧ p.search.filesToInclude = some "c,b,c" ∧
      ¬TurnedOnSince .standard (idle .empty) requests := by
  intro requests
  let p := (((restore Store.empty .standard).perform (.edit Layout.included (.add "a" true none))).perform
    (.edit Layout.included (.add "b" true (some "filesToInclude-18446744073709551615")))).perform
    (.edit Layout.included (.add "c" true none))
  have hopen : after .standard (idle .empty) requests = active (restore p.store .standard) := by
    rw [after_cons, respond_openPanel_session, after_cons, respond_edit_session, after_cons,
      respond_edit_session, after_cons, respond_edit_session, after_cons, respond_close_session, after_cons,
      respond_openPanel_session]
    rfl
  have hsearch : (searches .standard (idle .empty) requests).getLast?.bind (·.filesToInclude) = some "a,b,c" := by
    decide +kernel
  obtain ⟨last, hlast, hfilter⟩ := Option.bind_eq_some_iff.mp hsearch
  refine ⟨_, last, hopen, hlast, hfilter, by decide +kernel, ?_⟩
  -- no request amends an element
  rintro ⟨before, r, rest, heq, -, _, group, _, _, _, -, rfl, -, id, label, _, rfl, -⟩
  have hmem : .edit group (.amend id label true) ∈ requests := by
    rw [heq]
    exact List.mem_append_right _ List.mem_cons_self
  simp [requests] at hmem

end Session

end AnyCase
