import AnyCase.Message.Reply
import AnyCase.Message.Request
import AnyCase.Panel.Basic

/-!
# `Session` — the daemon between requests

A session has its persisted state at rest, or one open panel that owns it. Opening a panel that is open
reveals it; without a panel, every other request is dropped. The settings are those the daemon was
started with.

`Session.respond` gives the new session, the replies in the order they are sent, and the searches to run.
-/

namespace AnyCase

/-- The daemon between requests. -/
inductive Session
  /-- No panel is open. -/
  | idle (store : Store)
  /-- A panel is open. -/
  | active (panel : Panel)
  deriving Inhabited

/-- What handling a request leads to. -/
structure Outcome where
  session : Session
  replies : List Reply
  searches : List Search

namespace Session

/-- The persisted state. -/
def store : Session → Store
  | idle store => store
  | active panel => panel.store

/-- The open panel. -/
def panel? : Session → Option Panel
  | idle _ => none
  | active panel => some panel

/-- Whether a panel is open. -/
def isOpen (s : Session) : Bool := s.panel?.isSome

/-- What a panel tells a client that asks for all of it. -/
def report (panel : Panel) : List Reply :=
  [.state panel.state, .textHistory panel.history.entries]

/-- Handles a request to an open panel. -/
def answerOpen (panel : Panel) : Request → Outcome
  | .openPanel => ⟨active panel, [.reveal, .state panel.state], []⟩
  | .close | .shutdown => ⟨idle panel.store, [], []⟩
  | .snapshot => ⟨active panel, report panel, []⟩
  | .mainInstant form =>
    let panel' := panel.submit form
    ⟨active panel', [.focus], [panel'.search]⟩
  | .history _ texts => ⟨active (panel.replaceHistory texts), [.focus], []⟩
  | .edit group change =>
    match panel.edit? group change with
    | .ok (due, panel') =>
      ⟨active panel', [.state panel'.state], if due then [panel'.search] else []⟩
    | .error refusal => ⟨active panel, [.rejected refusal.message], []⟩

/-- Handles a request without an open panel. -/
def answerIdle (settings : Settings) (store : Store) : Request → Outcome
  | .openPanel =>
    let panel := Panel.restore store settings
    ⟨active panel, report panel, []⟩
  | _ => ⟨idle store, [], []⟩

/-- Handles a request. -/
def respond (settings : Settings) : Session → Request → Outcome
  | idle store, request => answerIdle settings store request
  | active panel, request => answerOpen panel request

end Session

end AnyCase
