import AnyCase.Daemon
import AnyCase.FileTree.Standard
import AnyCase.Terminal.Style

/-!
# `Command.Host` — what the programs of a user share

A `Host` has the settings file, the files of the system, and the daemon, if one runs. A client connects
to the daemon, sends the text of one request and gets the replies (`Host.connect`).
-/

namespace AnyCase

open Terminal

/-- What the programs of one user share. -/
structure Host where
  /-- The user's settings file. -/
  settingsFile : Option String
  /-- The directory in which the state is kept if no other file is named. -/
  dataDirectory : String
  files : FileTree
  daemon : Option Daemon
  /-- Whether clients find the daemon. -/
  reachable : Bool
  /-- The lines that daemons printed. -/
  printed : List String
  mode : Mode
  deriving Inhabited

namespace Host

/-- The path of the file of the persisted state if no other one is named. -/
def statePath (h : Host) : String := Settings.standard.stateFile h.dataDirectory

/-- The text of that file. -/
def stateText (h : Host) : Option String :=
  match h.files.read? h.statePath with
  | .ok text => text
  | .error _ => none

/-- A tree with a text in the file at a path. -/
def withText (files : FileTree) (path text : String) : FileTree :=
  match Daemon.makeRoom files path with
  | .ok files => files.write path text
  | .error _ => files

/-- The host on which no daemon runs. -/
def quiet (settingsFile : Option String) (dataDirectory : String) (stateText : Option String)
    (mode : Mode) : Host :=
  let path := Settings.standard.stateFile dataDirectory
  let files := stateText.elim FileTree.standard (withText FileTree.standard path)
  { settingsFile, dataDirectory, files, daemon := none, reachable := false, printed := [], mode }

/-- Starts the daemon, with the persisted state in another file if one is named. -/
def start (h : Host) (statePath : Option String) : Except StartError Host := do
  let (d, files) ← Daemon.start h.settingsFile h.files h.dataDirectory statePath
  .ok { h with daemon := some d, reachable := true, files }

/-- Sends a text over a connection of its own; none if no daemon is found. -/
def connect (h : Host) (text : String) : Option (String × Host) :=
  if h.reachable then
    h.daemon.map fun d =>
      let served := d.serve text
      let h := { h with
        printed := h.printed ++ served.printed
        files := served.daemon.save h.files }
      (served.reply,
        if served.stops then { h with daemon := none, reachable := false }
        else { h with daemon := some served.daemon })
  else none

end Host

end AnyCase
