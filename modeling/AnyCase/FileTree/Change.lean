import AnyCase.FileTree.Basic

/-!
# `FileTree.Change` — making directories and writing files

`FileTree.makeDirectory` makes a directory together with those around it that are missing. It goes down
the path as `FileTree.walk` does and makes what it does not find. `FileTree.write` writes a text where
that is possible and leaves the tree alone where it is not.

`parent?` is the directory part of a path, as it is written.
-/

namespace AnyCase.FileTree

/-! ## The parts of a path -/

/-- Drops the parts at the end that stay where they are. -/
def dropStays (parts : List String) : List String := (parts.reverse.dropWhile stays).reverse

/-- A path from its parts. -/
def join (parts : List String) : String := "/".intercalate parts

/-- The path of the directory around a path: what is left without the last name. The root and the empty
path have none; the one around a single relative name is empty. -/
def parent? (path : String) : Option String :=
  match parts path with
  | [] => none
  | first :: rest =>
    match dropStays rest with
    | [] => if first = "" then none else some ""
    | names =>
      match dropStays names.dropLast with
      | [] => some (if first = "" then "/" else first)
      | above => some (join (first :: above))

/-! ## Changes -/

/-- The tree with a node at a place. -/
def put (t : FileTree) (names : List String) (node : FileNode) : FileTree :=
  { t with nodes := (names, node) :: t.nodes.filter (fun e => e.1 ≠ names) }

/-- Goes down from a directory and makes the directories that are missing. -/
def makeAlong (t : FileTree) (directory : List String) : List String → Except FileFault FileTree
  | [] => .ok t
  | part :: rest =>
    if stays part then t.makeAlong directory rest
    else if part = ".." then t.makeAlong directory.dropLast rest
    else if t.overlong directory part then .error .nameTooLong
    else
      let names := directory ++ [part]
      match t.node? names with
      | some .directory | some (.sealedDirectory _) => t.makeAlong names rest
      | some (.link target) => t.makeAlong target rest
      | some _ => .error (if rest = [] then .alreadyExists else .notADirectory)
      | none =>
        match t.fault? directory with
        | some fault => .error fault
        | none => (t.put names .directory).makeAlong names rest

/-- Makes a directory and those around it, as far as they are missing. -/
def makeDirectory (t : FileTree) (path : String) : Except FileFault FileTree :=
  match pathFault? path with
  | some fault => .error fault
  | none => if path = "" then .ok t else t.makeAlong (t.start path) (parts path)

/-- Writes a text to the file at a path, where there is a file of text or room for one. -/
def write (t : FileTree) (path content : String) : FileTree :=
  match t.locate path with
  | .ok ⟨names, some (.text _)⟩ => t.put names (.text content)
  | .ok ⟨names, none⟩ =>
    if (t.fault? names.dropLast).isSome then t else t.put names (.text content)
  | _ => t

end AnyCase.FileTree
