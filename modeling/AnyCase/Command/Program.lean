import AnyCase.Command.Server
import AnyCase.Command.Talk

/-!
# `Command.Program` — the two programs

`Host.control` is the controller on the words of a command line, `Host.server` the server program. Each
gives an exit status and what is printed, and leaves the host as it is then.
-/

namespace AnyCase

open Arguments Terminal

/-- What a program does: its exit status and what it prints. -/
structure Result where
  status : Nat
  stdout : String
  stderr : String
  deriving DecidableEq, Repr, Inhabited

/-! ## The server program -/

namespace ServerCommand

/-- Why the server program fails. -/
inductive Fault
  | nothingToDo
  | malformed (text : String)
  | control (e : ControlError)
  | start (e : StartError)
  deriving DecidableEq, Repr

/-- The fault in words. -/
def Fault.message : Fault → String
  | nothingToDo => "nothing to do; please either use --server or --request"
  | malformed text => "invalid request " ++ text ++ ": not a request"
  | control e => e.message
  | start e => e.message

/-- Sends a request; the replies, each on a line. -/
def runRequest (h : Host) (text : String) : Except Fault String × Host :=
  match Request.read? text with
  | none => (.error (.malformed text), h)
  | some r =>
    match (Talk.exchange r.write).run h with
    | (.ok replies, h) => (.ok (Reply.writeLines replies), h)
    | (.error e, h) => (.error (.control e), h)

/-- Starts the daemon, with the persisted state in another file if one is named. A second daemon does not
start; the clients of the first one do not find it any more. -/
def runServe (h : Host) (statePath : Option String) : Except Fault String × Host :=
  match h.start statePath with
  | .error e => (.error (.start e), h)
  | .ok started =>
    if h.reachable then
      (.error (.start .alreadyRunning), { h with reachable := false, files := started.files })
    else (.ok "", started)

/-- Runs a command: what it prints, or why it fails. -/
def run (h : Host) : ServerCommand → Except Fault String × Host
  | request wire => runRequest h wire
  | serve statePath => runServe h statePath
  | nothing => (.error .nothingToDo, h)

end ServerCommand

/-! ## Command lines -/

namespace Host

/-- The version of the programs. -/
def version : String := "0.1.0-dev"

/-- What a program does that is not run. -/
def stopped (program : String) : Stop → Result
  | .usage => ⟨2, "", "error: wrong arguments\n\nFor more information, try '--help'.\n"⟩
  | .help => ⟨0, "Usage: " ++ program ++ " [OPTIONS]\n", ""⟩
  | .version => ⟨0, program ++ " " ++ version ++ "\n", ""⟩

/-- The controller on the words of a command line. -/
def control (h : Host) (words : List String) : Result × Host :=
  match Control.read words with
  | .error stop => (stopped "csctl" stop, h)
  | .ok command =>
    match command.run.run h with
    | (.ok out, h) => (⟨0, out, ""⟩, h)
    | (.error e, h) => (⟨1, "", Icon.failure.render h.mode ++ " " ++ e.message ++ "\n"⟩, h)

/-- The server program on the words of a command line. -/
def server (h : Host) (words : List String) : Result × Host :=
  match ServerCommand.read words with
  | .error stop => (stopped "case-search" stop, h)
  | .ok command =>
    match command.run h with
    | (.ok out, h) => (⟨0, out, ""⟩, h)
    | (.error e, h) => (⟨1, "", e.message ++ "\n"⟩, h)

end Host

end AnyCase
