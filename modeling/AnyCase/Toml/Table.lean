import AnyCase.Json.Basic

/-!
# `Toml.Table` — the tables of a TOML document

A table can be brought about in three ways, and how it was decides what may be added to it later:

* by a header of its own (`[a.b]`), which can be given once;
* on the way to a table with a longer header (`[a.b]` brings about `a`): a header may still follow;
* by a dotted key (`b.c = 1` brings about `b`): more dotted keys may follow, a header may not.

Values, inline tables among them, are closed. A name stands for one thing only: giving it again is an
error.

## Contents

* `Origin`, `Item` — tables that are being built;
* `insertAt?` — a key, dotted or not, in a table;
* `defineAt?` — what a header names;
* `Item.toJson` — the finished tables.
-/

namespace AnyCase.Toml

/-- How a table was brought about. -/
inductive Origin
  | header
  | longerHeader
  | dottedKey
  deriving DecidableEq, Repr

/-- What a name stands for in a table that is being built. -/
inductive Item
  | value (v : Json)
  | table (origin : Origin) (entries : List (String × Item))
  /-- The tables of the headers `[[…]]` with one name, the latest first. -/
  | tables (latestFirst : List Item)
  deriving Inhabited

/-- The entries of a table. -/
abbrev Entries := List (String × Item)

/-- What a name stands for. -/
def lookup? (name : String) (entries : Entries) : Option Item := Dict.find? name entries

/-- The entries with a name standing for something else, or for something at last. -/
def assign (name : String) (item : Item) : Entries → Entries
  | [] => [(name, item)]
  | (k, i) :: rest => if k = name then (k, item) :: rest else (k, i) :: assign name item rest

/-- The entries with a key set, `path` being the parts of the key before its last one. -/
def insertAt? (entries : Entries) (path : List String) (key : String) (v : Json) : Option Entries :=
  match path with
  | [] =>
    match lookup? key entries with
    | none => some (assign key (.value v) entries)
    | some _ => none
  | name :: rest =>
    match lookup? name entries with
    | none => (insertAt? [] rest key v).map (fun es => assign name (.table .dottedKey es) entries)
    | some (.table .dottedKey es) =>
      (insertAt? es rest key v).map (fun es' => assign name (.table .dottedKey es') entries)
    | some (.table .longerHeader es) =>
      if rest.isEmpty then none
      else (insertAt? es rest key v).map (fun es' => assign name (.table .longerHeader es') entries)
    | some (.tables (.table origin es :: earlier)) =>
      if rest.isEmpty then none
      else (insertAt? es rest key v).map
        (fun es' => assign name (.tables (.table origin es' :: earlier)) entries)
    | some _ => none

/-- The entries with all keys of a list set. -/
def insertAll? (entries : Entries) (pairs : List (List String × String × Json)) : Option Entries :=
  pairs.foldlM (fun es p => insertAt? es p.1 p.2.1 p.2.2) entries

/-- The entries with the name at the end of a header's path defined by `define`, which is given what the
name stands for so far. Tables on the way are brought about. -/
def defineAt? (entries : Entries) (path : List String) (key : String)
    (define : Option Item → Option Item) : Option Entries :=
  match path with
  | [] => (define (lookup? key entries)).map (fun item => assign key item entries)
  | name :: rest =>
    match lookup? name entries with
    | none =>
      (defineAt? [] rest key define).map (fun es => assign name (.table .longerHeader es) entries)
    | some (.table origin es) =>
      (defineAt? es rest key define).map (fun es' => assign name (.table origin es') entries)
    | some (.tables (.table origin es :: earlier)) =>
      (defineAt? es rest key define).map
        (fun es' => assign name (.tables (.table origin es' :: earlier)) entries)
    | some _ => none

/-- The table of a header `[…]` with its keys. -/
def headerTable? (pairs : List (List String × String × Json)) : Option Item → Option Item
  | none => (insertAll? [] pairs).map (.table .header)
  | some (.table .longerHeader es) => (insertAll? es pairs).map (.table .header)
  | some _ => none

/-- The tables of the headers `[[…]]` with one more. -/
def headerTables? (pairs : List (List String × String × Json)) : Option Item → Option Item
  | none => (insertAll? [] pairs).map (fun es => .tables [.table .header es])
  | some (.tables earlier) =>
    (insertAll? [] pairs).map (fun es => .tables (.table .header es :: earlier))
  | some _ => none

mutual

/-- What a name stands for, as a value: tables are objects. -/
def Item.toJson : Item → Json
  | .value v => v
  | .table _ entries => .obj (entriesToJson entries)
  | .tables latestFirst => .arr (itemsToJson latestFirst).reverse

/-- The members of a table. -/
def entriesToJson : List (String × Item) → List (String × Json)
  | [] => []
  | (k, i) :: rest => (k, i.toJson) :: entriesToJson rest

/-- The items of a list of tables. -/
def itemsToJson : List Item → List Json
  | [] => []
  | i :: rest => i.toJson :: itemsToJson rest

end

end AnyCase.Toml
