import AnyCase.Command.Program
import AnyCase.Json.Reader

/-!
# `Main` — the programs at work

Both programs and the daemon run in this one process. Each line of standard input is a JSON array of the
words of a command line, the first of which is the name of the program:

* `["case-search", "--server"]` starts the daemon, and `["case-search", "--request", …]` sends it a
  request;
* `["csctl", "open"]` and the other commands of the controller work with its panel.

The first argument is the path of the user's settings file, the second one that of the file of the
persisted state. No other file is read or written: the programs see the files that every system has. What
the programs print goes to standard output and standard error, and what searches
print to standard output.
-/

namespace AnyCase

/-- The words of a line. -/
def wordsOfLine? (line : String) : Option (List String) := (Json.read? line).bind Json.texts?

/-- Runs a program on its words. -/
def Host.runWords (h : Host) : List String → Result × Host
  | "csctl" :: words => h.control words
  | "case-search" :: words => h.server words
  | program :: _ => (⟨127, "", program ++ ": no such program\n"⟩, h)
  | [] => (⟨0, "", ""⟩, h)

/-- Runs the program of a line. -/
def Host.runLine (h : Host) (line : String) : Result × Host :=
  match wordsOfLine? line with
  | some words => h.runWords words
  | none => (⟨2, "", "not an array of words\n"⟩, h)

/-- The lines printed since there were `count`. -/
def Host.printedSince (h : Host) (count : Nat) : String :=
  "".intercalate ((h.printed.drop count).map (· ++ "\n"))

/-- The text of a file, if there is one. -/
def readText (path : String) : IO (Option String) := do
  try
    let text ← IO.FS.readFile path
    pure (some text)
  catch _ => pure none

/-- Writes the file of the persisted state if its text has changed. -/
def keepState (path : String) (before after : Host) : IO Unit :=
  match after.stateText with
  | some text =>
    if before.stateText = some text then pure () else IO.FS.writeFile path text
  | none => pure ()

/-- Runs the lines of standard input one after the other. -/
partial def runLines (statePath : String) (h : Host) (status : UInt32) : IO UInt32 := do
  let line ← (← IO.getStdin).getLine
  if line.isEmpty then pure status
  else
    let (r, h') := h.runLine line
    IO.print (r.stdout ++ h'.printedSince h.printed.length)
    IO.eprint r.stderr
    keepState statePath h h'
    runLines statePath h' r.status.toUInt32

end AnyCase

/-- Runs the programs on the files given. -/
def main (args : List String) : IO UInt32 := do
  let settingsFile ← match args[0]? with
    | some path => AnyCase.readText path
    | none => pure none
  let statePath := args[1]?.getD "state.json"
  let stateText ← AnyCase.readText statePath
  AnyCase.runLines statePath (.quiet settingsFile "/root/.local/share" stateText .plain) 0
