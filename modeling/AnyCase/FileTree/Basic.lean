/-!
# `FileTree.Basic` — files and where paths lead

A tree maps a place, the names on the way to it from the root, to what is there. A path is followed part
by part (`FileTree.walk`): the empty part and `.` stay, `..` goes up, and a name goes down into a
directory. The first part that cannot be taken is the fault of the whole path, so that a name that is too
long does no harm behind a directory that is missing.

## Contents

* `FileFault` — why something cannot be done with a path;
* `FileNode`, `FileTree`, `Place` — files;
* `walk`, `locate`, `read?` — following paths.
-/

namespace AnyCase

/-- Why something cannot be done with a path. -/
inductive FileFault
  | notFound
  | notPermitted
  | notAllowed
  | alreadyExists
  | notADirectory
  | isADirectory
  | nameTooLong
  | notText
  | nullCharacter
  deriving DecidableEq, Repr

/-- The fault in words. -/
def FileFault.message : FileFault → String
  | notFound => "No such file or directory (os error 2)"
  | notPermitted => "Permission denied (os error 13)"
  | notAllowed => "Operation not permitted (os error 1)"
  | alreadyExists => "File exists (os error 17)"
  | notADirectory => "Not a directory (os error 20)"
  | isADirectory => "Is a directory (os error 21)"
  | nameTooLong => "File name too long (os error 36)"
  | notText => "stream did not contain valid UTF-8"
  | nullCharacter => "file name contained an unexpected NUL byte"

/-- What is at a place. -/
inductive FileNode
  | directory
  /-- A directory in which nothing can be made, and why. -/
  | sealedDirectory (fault : FileFault)
  /-- Another name of the directory at a place. -/
  | link (target : List String)
  | program
  | text (content : String)
  deriving DecidableEq, Repr

/-- The files of a system. Where the list has a place twice, the first node counts. -/
structure FileTree where
  nodes : List (List String × FileNode)
  /-- The directory in which relative paths begin. -/
  workingDirectory : List String
  deriving DecidableEq, Repr, Inhabited

/-- Where a path leads: a place in a directory that exists, and what is there. -/
structure Place where
  names : List String
  node? : Option FileNode
  deriving DecidableEq, Repr

namespace FileTree

/-- What is at a place. -/
def node? (t : FileTree) (names : List String) : Option FileNode :=
  if names = [] then some .directory else t.nodes.lookup names

/-- Why nothing can be made in a directory. -/
def fault? (t : FileTree) (directory : List String) : Option FileFault :=
  match t.node? directory with
  | some (.sealedDirectory fault) => some fault
  | _ => none

/-! ## Paths -/

/-- The parts between the slashes of a path. -/
def parts (path : String) : List String := (path.toList.splitOn '/').map String.ofList

/-- The directory in which a path begins. -/
def start (t : FileTree) (path : String) : List String :=
  if path.toList.head? = some '/' then [] else t.workingDirectory

/-- Whether a part of a path stays where it is. -/
def stays (part : String) : Bool := part = "" || part = "."

/-- Whether a name is longer than the names of a directory may be. A sealed directory does not mind. -/
def overlong (t : FileTree) (directory : List String) (name : String) : Bool :=
  255 < name.utf8ByteSize && (t.fault? directory).isNone

/-- The fault that a path has by itself. -/
def pathFault? (path : String) : Option FileFault :=
  if path.toList.contains '\x00' then some .nullCharacter
  else if 4095 < path.utf8ByteSize then some .nameTooLong
  else none

/-! ## Following a path -/

/-- Follows the parts of a path from a directory. -/
def walk (t : FileTree) (directory : List String) : List String → Except FileFault Place
  | [] => .ok ⟨directory, t.node? directory⟩
  | part :: rest =>
    if stays part then t.walk directory rest
    else if part = ".." then t.walk directory.dropLast rest
    else if t.overlong directory part then .error .nameTooLong
    else
      let names := directory ++ [part]
      match t.node? names with
      | some .directory | some (.sealedDirectory _) => t.walk names rest
      | some (.link target) => t.walk target rest
      | some node => if rest = [] then .ok ⟨names, some node⟩ else .error .notADirectory
      | none => if rest = [] then .ok ⟨names, none⟩ else .error .notFound

/-- Where a path leads. -/
def locate (t : FileTree) (path : String) : Except FileFault Place :=
  match pathFault? path with
  | some fault => .error fault
  | none => if path = "" then .error .notFound else t.walk (t.start path) (parts path)

/-- The text of the file at a path; none if the path leads to nothing. -/
def read? (t : FileTree) (path : String) : Except FileFault (Option String) :=
  match t.locate path with
  | .ok ⟨_, some (.text content)⟩ => .ok (some content)
  | .ok ⟨_, some .program⟩ => .error .notText
  | .ok ⟨_, some _⟩ => .error .isADirectory
  | .ok ⟨_, none⟩ | .error _ => .ok none

end FileTree

end AnyCase
