import AnyCase.Proofs.Replies
import AnyCase.Proofs.Sync
import AnyCase.Terminal.Report

/-!
# `Proofs.Rebuild` — a view is built from one message

A client may be started at any time, and throws its view away when it ends. The daemon tells it the state of the
panel in one message, and the view that is built from that message is the panel itself, but for the numbers that
are free (`Session.view_of_reply`).

The message loses nothing. The groups are not taken from it as they are, though: main checkboxes, exclusions and
enablement are evaluated again. That this changes nothing is because the form of a panel is always consistent
(`Panel.Shaped.form_state`). The pattern that a client prints is compiled from its view, so it is the pattern that
is searched for.
-/

namespace AnyCase

open Layout

namespace Session

variable {settings : Settings} {store : Store} {p : Panel} {requests : List Request}

/-- **A view is built from one message.** Whatever was done, and whatever the store was at first, the message with
the state of the open panel is read back, and the view that is built from it has the text, the case sensitivity,
the rules and the groups of the panel, knows which elements were never stored, and prints the pattern that the
panel searches for. -/
theorem view_of_reply (hopen : after settings (idle store) requests = active p) :
    ∃ s, Reply.read? (Reply.state p.state).write = some (.state s) ∧
      let v := View.ofState s
      v.text = p.text ∧ v.sensitiveCase = p.sensitiveCase ∧
      (∀ g ∈ p.form.groups, v.isFirstStart g.id = p.unstored.contains g.id) ∧
      v.form.rules = p.form.rules ∧ v.form.contents = p.form.contents ∧
      Layout.compile v.text v.form = Layout.compile p.text p.form ∧
      .entry (.colored .blue "Pattern") (.one (.colored .cyan p.search.query)) 0 ∈ (Report.search v true).fields := by
  have hshaped : p.Shaped settings := by
    have hafter : Shapely settings (after settings (idle store) requests) := shapely_after trivial
    rwa [hopen] at hafter
  have hform := hshaped.form_state
  have hcompile : Layout.compile p.text p.state.form = Layout.compile p.text p.form := Panel.compile_eq hform p.text
  refine ⟨p.state, Reply.read?_write _, rfl, rfl, fun g hg => ?_, (Form.mk.inj hform).2, Panel.contents_eq hform,
    hcompile, ?_⟩
  · refine hshaped.isFirstStart rfl ?_
    rw [← hshaped.fits.groups_ids]
    exact List.mem_map_of_mem hg
  · have hquery : p.search.query = (Layout.compile p.text p.state.form).pattern := congrArg Compiled.pattern hcompile.symm
    rw [hquery]
    exact List.mem_append_right _ List.mem_cons_self

/-- The same after an element was added whose label has a line break and characters that are escaped. -/
theorem view_of_reply_after_edit :
    let settings := { Settings.standard with rules := [.exclusive included excluded] }
    let requests : List Request := [.openPanel, .edit included (.add "\"a\"\n\\b\u0007" true none)]
    ∃ p s, after settings (idle .empty) requests = active p ∧ p.filters = ["\"a\"\n\\b\u0007", ""] ∧
      Reply.read? (Reply.state p.state).write = some (.state s) ∧
      (View.ofState s).form.contents = p.form.contents := by
  intro settings requests
  let p := (Panel.restore Store.empty settings).perform (.edit included (.add "\"a\"\n\\b\u0007" true none))
  have hopen : after settings (idle .empty) requests = active p := by
    rw [after_cons, respond_openPanel_session, after_cons, respond_edit_session]
    rfl
  obtain ⟨s, hs, -, -, -, -, hcontents, -⟩ := view_of_reply hopen
  exact ⟨p, s, hopen, by decide, hs, hcontents⟩

end Session

end AnyCase
