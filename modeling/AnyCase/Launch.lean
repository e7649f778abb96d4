import AnyCase.FileTree.Standard

/-!
# `Launch` — starting the search program

Every search is handed to a program. A program that is named with a slash is the one at that path; any
other name is looked for in the directories of the search path. `FileTree.launchFault?` says why a
command cannot be started on the files of a system.
-/

namespace AnyCase

/-- Why a command cannot be started. -/
inductive LaunchFault
  | file (fault : FileFault)
  /-- A word of the command is too long. -/
  | wordTooLong
  /-- A word of the command has a null character in it. -/
  | nullCharacter
  deriving DecidableEq, Repr

/-- The fault in words. -/
def LaunchFault.message : LaunchFault → String
  | file fault => fault.message
  | wordTooLong => "Argument list too long (os error 7)"
  | nullCharacter => "nul byte found in provided data"

namespace FileTree

/-- The directories in which programs are looked for. -/
def searchPath : List String :=
  ["/usr/local/sbin", "/usr/local/bin", "/usr/sbin", "/usr/bin", "/sbin", "/bin"]

/-- Why what is at a path cannot be started as a program. Whatever is there and is no program may not be
started. -/
def programFault? (t : FileTree) (path : String) : Option FileFault :=
  match t.locate path with
  | .error fault => some fault
  | .ok ⟨_, some .program⟩ => none
  | .ok ⟨_, some _⟩ => some .notPermitted
  | .ok ⟨_, none⟩ => some .notFound

/-- Why a name without a slash cannot be started from any directory of the search path. Something that is
there and may not be started counts more than that it is missing elsewhere. -/
def searchFault? (t : FileTree) (name : String) : Option FileFault :=
  if name = "" then some .notFound
  else if 255 < name.utf8ByteSize then some .nameTooLong
  else
    let faults := searchPath.map (fun directory => t.programFault? (directory ++ "/" ++ name))
    if faults.contains none then none
    else if faults.contains (some .notPermitted) then some .notPermitted
    else some .notFound

/-- Whether a word is longer than a program can be given one. -/
def isLongWord (word : String) : Bool := 131071 < word.utf8ByteSize

/-- Why a command cannot be started; none if it can. -/
def launchFault? (t : FileTree) (program : String) (arguments : List String) : Option LaunchFault :=
  if (program :: arguments).any (fun word => word.toList.contains '\x00') then some .nullCharacter
  else
    let fault? := if program.toList.contains '/' then t.programFault? program else t.searchFault? program
    match fault? with
    | some fault => some (.file fault)
    | none => if arguments.any isLongWord then some .wordTooLong else none

end FileTree

/-- What is said of a command that cannot be started. -/
def launchMessage (program : String) (fault : LaunchFault) : String :=
  "cannot run search command " ++ program ++ ": " ++ fault.message

end AnyCase
