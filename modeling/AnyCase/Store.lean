import AnyCase.Json.Reader
import AnyCase.Json.Writer

/-!
# `Store` — the persisted state

A store maps keys to JSON values. It lives in memory only, or in a file that is written anew at every
change (`Medium`). A file holds one object, the values under their keys in order, on indented lines.

Values are read as the type that is asked for; one that is missing or of another type counts as the
default (`Store.get`).
-/

namespace AnyCase

/-- Where a store is kept. -/
inductive Medium
  | memory
  /-- A file with its text, if it exists. -/
  | file (text : Option String)
  deriving DecidableEq

/-- Values under keys, and where they are kept. -/
structure Store where
  values : Dict Json
  medium : Medium

namespace Store

/-- The store without values, in memory. -/
def empty : Store := ⟨Dict.empty, .memory⟩

instance : Inhabited Store := ⟨empty⟩

/-- The text of a file that holds the values. -/
def fileText (values : Dict Json) : String := (Json.obj values.toList).pretty

/-- The values in the text of a file; none if it does not hold one object. -/
def readFile? (text : String) : Option (Dict Json) :=
  match (Json.read? text).map Json.settled with
  | some (.obj members) => some (Dict.ofList members)
  | _ => none

/-- The store in a file, without values if the file does not exist; none if the file is corrupted. -/
def open? (text : Option String) : Option Store :=
  match text with
  | none => some ⟨Dict.empty, .file none⟩
  | some t => (readFile? t).map (fun values => ⟨values, .file (some t)⟩)

/-- The text of the file in which the store is kept. -/
def file? (s : Store) : Option String :=
  match s.medium with
  | .memory => none
  | .file text => text

/-- The medium after the values have become the given ones. -/
def Medium.written (values : Dict Json) : Medium → Medium
  | .memory => .memory
  | .file _ => .file (some (fileText values))

/-- The store with other values, kept. -/
def withValues (s : Store) (values : Dict Json) : Store :=
  ⟨values, Medium.written values s.medium⟩

/-- Sets a key. -/
def set (s : Store) (key : String) (v : Json) : Store :=
  s.withValues (s.values.insert key v.settled)

/-- Deletes a key; deleting one that is not there is a change too, as far as the file is concerned. -/
def delete (s : Store) (key : String) : Store := s.withValues (s.values.erase key)

/-- Sets or deletes a key. -/
def put (s : Store) (key : String) (v : Option Json) : Store :=
  match v with
  | some v => s.set key v
  | none => s.delete key

/-- The value at a key. -/
def raw? (s : Store) (key : String) : Option Json := s.values.get? key

/-- Whether a key has a value. -/
def contains (s : Store) (key : String) : Bool := (s.raw? key).isSome

/-- The keys in order. -/
def keys (s : Store) : List String := s.values.keys

/-- The value at a key, read as a type; `default` if it is missing or of another type. -/
def get {α : Type} (s : Store) (key : String) (read : Json → Option α) (default : α) : α :=
  ((s.raw? key).bind read).getD default

end Store

end AnyCase
