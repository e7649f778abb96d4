import AnyCase.Command.Arguments

/-!
# `Command.Server` — the command line of the server

The server program starts the daemon, or sends it one request and prints the replies.
-/

namespace AnyCase

open Arguments

/-- What the server program is asked to do. -/
inductive ServerCommand
  /-- Start the daemon, with the persisted state in a file other than that of the settings. -/
  | serve (statePath : Option String)
  /-- Send the text of a request to the daemon. -/
  | request (text : String)
  /-- Nothing. -/
  | nothing
  deriving DecidableEq, Repr

namespace ServerCommand

/-- The options of the server program. -/
def grammar : Grammar where
  options :=
    [⟨"server", some 's', .nothing⟩, ⟨"daemonize", some 'd', .nothing⟩,
      ⟨"request", some 'r', .value (fun _ => true)⟩, ⟨"state", none, .value (fun path => path ≠ "")⟩,
      ⟨"verbose", some 'v', .count⟩]
  operands := []
  hasVersion := true

/-- What was asked by what was given; a request goes before starting. -/
def ofGiven (g : Given) : ServerCommand :=
  match g.value? "request" with
  | some text => request text
  | none => if g.has "server" then serve (g.value? "state") else nothing

/-- What the words of a command line ask for. -/
def read (words : List String) : Except Stop ServerCommand := (grammar.read words).map ofGiven

end ServerCommand

end AnyCase
