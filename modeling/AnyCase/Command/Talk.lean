import AnyCase.Command.Control
import AnyCase.Command.Host
import AnyCase.FileTree.Basic
import AnyCase.Terminal.Report

/-!
# `Command.Talk` — the controller at work

The controller starts every command from the state that the daemon tells, makes the change in a view,
sends the request it gives and shows the panel as it is then. An error ends a command; requests that
were sent before stay sent.

## Contents

* `Talk` — a command that talks to the daemon: `Talk.send`, `Talk.view`, `Talk.perform`;
* `Control.run` — the commands.
-/

namespace AnyCase

open Terminal

/-! ## Talking to the daemon -/

/-- Why a command fails. -/
inductive ControlError
  | unreachable
  | settings (e : SettingsError)
  /-- A line of what the daemon sent is no reply. -/
  | unintelligible (line : String)
  | noPanel
  | noReply (command : String)
  /-- The change was refused before it was sent. -/
  | refused (action : String) (refusal : Refusal)
  /-- The daemon refused the request. -/
  | rejected (reason : String)
  deriving DecidableEq, Repr

/-- The error in words. -/
def ControlError.message : ControlError → String
  | unreachable =>
    "cannot connect to server; is it running?: " ++ FileFault.message .notFound
  | settings e => "configuration error: " ++ e.message
  | unintelligible line => "invalid response " ++ line ++ ": not a response"
  | noPanel => "no panel open; open one with csctl open"
  | noReply command => "the daemon replied nothing to " ++ command
  | refused action refusal => "cannot " ++ action ++ ": " ++ refusal.message
  | rejected reason => "rejected by the daemon: " ++ reason

/-- A command that talks to the daemon; what it did to the host stays done when it fails. -/
abbrev Talk := ExceptT ControlError (StateM Host)

namespace Talk

/-- Sends the text of a request and reads the replies. -/
def exchange (text : String) : Talk (List Reply) := do
  match (← get).connect text with
  | none => throw .unreachable
  | some (reply, h) =>
    set h
    match Reply.readLines reply with
    | .ok replies => pure replies
    | .error line => throw (.unintelligible line)

/-- Why the daemon refused, if it did. -/
def rejection? (replies : List Reply) : Option String :=
  replies.findSome? fun
    | .rejected reason => some reason
    | _ => none

/-- The first state that replies tell. -/
def state? (replies : List Reply) : Option PanelState :=
  replies.findSome? fun
    | .state s => some s
    | _ => none

/-- Sends a request, which the daemon has to accept. -/
def send (request : Request) : Talk (List Reply) := do
  let replies ← exchange request.write
  match rejection? replies with
  | some reason => throw (.rejected reason)
  | none => pure replies

/-- The view of replies that tell a state. -/
def viewOf (replies : List Reply) (missing : ControlError) : Talk View :=
  match state? replies with
  | some s => pure ((View.ofState s).receiveAll replies)
  | none => throw missing

/-- The view of the open panel. -/
def view : Talk View := do viewOf (← send .snapshot) .noPanel

/-- Sends the request that a change made; the view as it is then. -/
def perform (made : Request × View) : Talk View := do
  pure (made.2.receiveAll (← send made.1))

/-- Sends the request of a change that may be refused. -/
def attempt (action : String) (made : Except Refusal (Request × View)) : Talk View :=
  match made with
  | .ok made => perform made
  | .error refusal => throw (.refused action refusal)

/-- The settings of the user. -/
def settings : Talk Settings := do
  match Settings.load (← get).settingsFile with
  | .ok s => pure s
  | .error e => throw (.settings e)

/-- What is printed of a panel. -/
def panel (withPattern : Bool) (v : View) : Talk String := do
  pure (Report.panel (← get).mode v withPattern)

/-- What is printed of a message. -/
def status (icon : Icon) (message : String) : Talk String := do
  pure ((Report.status icon message).render (← get).mode)

end Talk

/-! ## The controller -/

namespace Control

/-- Opens the panel. -/
def runOpen : Talk String := do
  let replies ← Talk.send .openPanel
  let notice ← if replies.contains .reveal then Talk.status .info "panel already open" else pure ""
  let v ← Talk.viewOf replies (.noReply "open")
  pure (notice ++ (← Talk.panel false v))

/-- Sets the text, and remembers it. -/
def runText (text : String) (remember : Bool) : Talk String := do
  let v ← Talk.perform ((← Talk.view).enterText text)
  let v ← if remember then do
      let settings ← Talk.settings
      Talk.perform (v.recordText text settings.historyLength)
    else pure v
  Talk.panel true v

/-- Toggles a checkbox, or case sensitivity under its key. -/
def runToggle (id : String) : Talk String := do
  let v ← Talk.view
  let v ← if id = Layout.sensitiveKey then Talk.perform v.switchSensitivity
    else Talk.attempt "toggle" (v.toggle id)
  Talk.panel false v

/-- Relabels an element, and sets it if that is asked for. -/
def runEdit (group id label : String) (selected : Option Bool) : Talk String := do
  let v ← Talk.view
  let current := ((v.form.group? group).bind (·.member? id)).map (·.selected)
  match selected.or current with
  | some selected => Talk.attempt "edit" (v.amend group id label selected) >>= Talk.panel false
  | none => throw (.refused "edit" (.noElement group id))

/-- Runs a command; what it prints. -/
def run : Control → Talk String
  | openPanel => runOpen
  | close => do
    let _ ← Talk.send .close
    Talk.status .success "panel closed"
  | .report withPattern => do Talk.panel withPattern (← Talk.view)
  | text query remember => runText query remember
  | toggle id => runToggle id
  | add group label selected => do
    let v := (← Talk.view).typeLabel group label
    Talk.panel false (← Talk.attempt "add" (v.add group selected))
  | edit group id label selected => runEdit group id label selected
  | remove group id => do
    Talk.panel false (← Talk.attempt "remove" ((← Talk.view).remove group id))
  | order group id place => do
    Talk.panel false (← Talk.attempt "reorder" ((← Talk.view).move group id place))
  | history => do
    pure ((Report.history (← Talk.view)).render (← get).mode)

end Control

end AnyCase
