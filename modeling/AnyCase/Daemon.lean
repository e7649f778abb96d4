import AnyCase.FileTree.Change
import AnyCase.Session
import AnyCase.Settings.Reader

/-!
# `Daemon` — the server process

The daemon owns the session. It is started from the user's settings file and the file of the persisted
state, answers one request per connection, and stops when it is asked to. A text that is no request is
answered by nothing.

The file of the persisted state is the one that is asked for, else the one of the settings. Its directory
is made if it is missing. A file that cannot be written does not disturb the daemon: it keeps its values
as long as it runs.

Searches are handed to the search program, or printed, one per line, if the settings name none.
-/

namespace AnyCase

/-- Why the daemon cannot start. -/
inductive StartError
  | settings (e : SettingsError)
  /-- The directory of the persisted state cannot be made. -/
  | noDirectory (path : String) (fault : FileFault)
  | unreadable (path : String) (fault : FileFault)
  /-- The file of the persisted state holds no state. -/
  | corrupted (path : String)
  | alreadyRunning
  deriving DecidableEq, Repr

/-- The error in words. -/
def StartError.message : StartError → String
  | settings e => "configuration error: " ++ e.message
  | noDirectory path fault => "cannot create directory " ++ path ++ ": " ++ fault.message
  | unreadable path fault => "cannot read file " ++ path ++ ": " ++ fault.message
  | corrupted path => "corrupted state file " ++ path ++ ": not an object"
  | alreadyRunning => "cannot start daemon: case-search is already running"

/-- A running daemon. -/
structure Daemon where
  settings : Settings
  /-- The path of the file of the persisted state. -/
  statePath : String
  session : Session
  deriving Inhabited

/-- What a connection leads to. -/
structure Served where
  daemon : Daemon
  /-- What is sent back. -/
  reply : String
  /-- The lines that are printed meanwhile. -/
  printed : List String
  /-- Whether the daemon stops. -/
  stops : Bool

namespace Daemon

/-- The files with the directory around a path. -/
def makeRoom (files : FileTree) (path : String) : Except StartError FileTree :=
  match FileTree.parent? path with
  | some directory => (files.makeDirectory directory).mapError (.noDirectory directory)
  | none => .ok files

/-- The store in the file at a path. -/
def openStore (files : FileTree) (path : String) : Except StartError Store :=
  match files.read? path with
  | .error fault => .error (.unreadable path fault)
  | .ok text => match Store.open? text with
    | some store => .ok store
    | none => .error (.corrupted path)

/-- The daemon of a settings file and the files of the system, and the files once it runs. -/
def start (settingsText : Option String) (files : FileTree) (dataDirectory : String)
    (statePath : Option String) : Except StartError (Daemon × FileTree) := do
  let settings ← (Settings.load settingsText).mapError .settings
  let path := statePath.getD (settings.stateFile dataDirectory)
  let files ← makeRoom files path
  let store ← openStore files path
  .ok (⟨settings, path, .idle store⟩, files)

/-- The files with the values of the daemon in its file. -/
def save (d : Daemon) (files : FileTree) : FileTree :=
  match d.session.store.file? with
  | some text => files.write d.statePath text
  | none => files

/-- The lines that searches print. -/
def printed (d : Daemon) (searches : List Search) : List String :=
  if d.settings.searchCommand.getD [] = [] then searches.map Search.write else []

/-- Answers what came in over a connection. -/
def serve (d : Daemon) (text : String) : Served :=
  match Request.read? text with
  | none => ⟨d, "", [], false⟩
  | some request =>
    let o := d.session.respond d.settings request
    ⟨{ d with session := o.session }, Reply.writeLines o.replies, d.printed o.searches,
      request = .shutdown⟩

end Daemon

end AnyCase
