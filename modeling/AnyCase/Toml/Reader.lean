import AnyCase.Toml.Number
import AnyCase.Toml.Table

/-!
# `Toml.Reader` — TOML documents

A document is a list of lines: keys with their values, and headers that say to which table the keys
after them belong. `Toml.read?` gives its tables as one object. Dates and times, which the settings have
no use for, are objects with one reserved member.
-/

namespace AnyCase.Toml

/-- How deep arrays and inline tables may be nested, and how many parts a dotted key may have. -/
def maxDepth : Nat := 79

/-! ## Keys -/

/-- A character of a key without quotation marks. -/
def isBareChar (c : Char) : Bool := c.isAlphanum || c = '-' || c = '_'

/-- One part of a key, with the blanks after it dropped. -/
def keyPart? : Reads String := fun cs =>
  match lineString? cs with
  | some (text, rest) => some (String.ofList text, dropBlanks rest)
  | none =>
    let bare := cs.takeWhile isBareChar
    if bare.isEmpty then none
    else some (String.ofList bare, dropBlanks (cs.dropWhile isBareChar))

/-- The parts of a key after its first one. -/
def keyParts? : Nat → Reads (List String)
  | 0, _ => none
  | fuel + 1, '.' :: rest => do
    let (part, rest') ← keyPart? (dropBlanks rest)
    let (parts, rest'') ← keyParts? fuel rest'
    some (part :: parts, rest'')
  | _ + 1, cs => some ([], cs)

/-- A key: the parts before its last one, and the last one. -/
def key? : Reads (List String × String) := fun cs => do
  let (part, rest) ← keyPart? (dropBlanks cs)
  let (parts, rest') ← keyParts? (rest.length + 1) rest
  let all := part :: parts
  if all.length ≤ maxDepth then some ((all.dropLast, all.getLastD part), rest') else none

/-! ## Values -/

/-- The value of a date or time. -/
def ofMoment (spelling : String) : Json := .obj [("$date", .str spelling)]

/-- A value that is no array and no table. -/
def scalar? : Reads Json
  | 't' :: 'r' :: 'u' :: 'e' :: rest => some (.bool true, rest)
  | 'f' :: 'a' :: 'l' :: 's' :: 'e' :: rest => some (.bool false, rest)
  | cs =>
    match string? cs with
    | some (text, rest) => some (.str (String.ofList text), rest)
    | none =>
      match moment? cs with
      | some (spelling, rest) => some (ofMoment spelling, rest)
      | none =>
        match float? cs with
        | some (spelling, rest) => some (.real spelling, rest)
        | none => (int? cs).map (fun (i, rest) => (.int i, rest))

mutual

/-- A value; `depth` is the nesting still allowed. -/
def value? : Nat → Nat → Reads Json
  | 0, _, _ => none
  | fuel + 1, depth, '[' :: rest =>
    if depth = 0 then none
    else do
      let (items, rest') ← items? fuel (depth - 1) rest
      some (.arr items, rest')
  | fuel + 1, depth, '{' :: rest =>
    if depth = 0 then none
    else
      match dropBlanks rest with
      | '}' :: rest' => some (.obj [], rest')
      | _ => do
        let (pairs, rest') ← pairs? fuel (depth - 1) rest
        let entries ← insertAll? [] pairs
        some (.obj (entriesToJson entries), rest')
  | _ + 1, _, cs => scalar? cs

/-- The items of an array after its opening bracket or after a comma. -/
def items? : Nat → Nat → Reads (List Json)
  | 0, _, _ => none
  | fuel + 1, depth, cs => do
    match ← dropFiller? false cs with
    | ']' :: rest => some ([], rest)
    | cs' => do
      let (v, rest) ← value? fuel depth cs'
      match ← dropFiller? false rest with
      | ',' :: rest' => do
        let (vs, rest'') ← items? fuel depth rest'
        some (v :: vs, rest'')
      | ']' :: rest' => some ([v], rest')
      | _ => none

/-- The keys and values of an inline table, up to its closing brace. -/
def pairs? : Nat → Nat → Reads (List (List String × String × Json))
  | 0, _, _ => none
  | fuel + 1, depth, cs => do
    let ((path, key), rest) ← key? cs
    let rest ← expect? '=' rest
    let (v, rest) ← value? fuel depth (dropBlanks rest)
    match dropBlanks rest with
    | ',' :: rest' => do
      let (ps, rest'') ← pairs? fuel depth rest'
      some ((path, key, v) :: ps, rest'')
    | '}' :: rest' => some ([(path, key, v)], rest')
    | _ => none

end

/-! ## Documents -/

/-- To which table keys belong. -/
inductive Header
  | root
  | table (path : List String) (key : String)
  | element (path : List String) (key : String)
  deriving DecidableEq, Repr

/-- A document up to some line: the finished tables, the header in force, and the keys after it, the
latest first. -/
structure Draft where
  entries : Entries
  header : Header
  pairs : List (List String × String × Json)

namespace Draft

/-- The document without any line. -/
def start : Draft := ⟨[], .root, []⟩

/-- The tables with the keys of the header in force put into theirs. -/
def close? (d : Draft) : Option Entries :=
  match d.header with
  | .root => insertAll? d.entries d.pairs.reverse
  | .table path key => defineAt? d.entries path key (headerTable? d.pairs.reverse)
  | .element path key => defineAt? d.entries path key (headerTables? d.pairs.reverse)

/-- The document with one more header. -/
def withHeader? (d : Draft) (header : Header) : Option Draft :=
  d.close?.map (fun entries => ⟨entries, header, []⟩)

/-- The document with one more key. -/
def withPair (d : Draft) (path : List String) (key : String) (v : Json) : Draft :=
  { d with pairs := (path, key, v) :: d.pairs }

end Draft

/-- The document with one more line read. -/
def line? (d : Draft) : Reads Draft := fun cs =>
  match dropBlanks cs with
  | '[' :: '[' :: rest => do
    let ((path, key), rest) ← key? rest
    let rest ← expect? ']' rest
    let rest ← expect? ']' rest
    let rest ← endLine? rest
    some (← d.withHeader? (.element path key), rest)
  | '[' :: rest => do
    let ((path, key), rest) ← key? rest
    let rest ← expect? ']' rest
    let rest ← endLine? rest
    some (← d.withHeader? (.table path key), rest)
  | cs' =>
    match endLine? cs' with
    | some rest => some (d, rest)
    | none => do
      let ((path, key), rest) ← key? cs'
      let rest ← expect? '=' rest
      let rest := dropBlanks rest
      let (v, rest) ← value? (2 * rest.length + 2) maxDepth rest
      let rest ← endLine? rest
      some (d.withPair path key v, rest)

/-- The document after all lines. -/
def lines? : Nat → Draft → List Char → Option Draft
  | _, d, [] => some d
  | 0, _, _ => none
  | fuel + 1, d, c :: cs => do
    let (d', rest) ← line? d (c :: cs)
    lines? fuel d' rest

/-- The text without a byte order mark at its start. -/
def dropMark : List Char → List Char
  | c :: rest => if c = '\uFEFF' then rest else c :: rest
  | [] => []

/-- The tables of a document as one object. -/
def read? (text : String) : Option Json := do
  let cs := dropMark text.toList
  let d ← lines? (cs.length + 1) Draft.start cs
  let entries ← d.close?
  some (.obj (entriesToJson entries))

end AnyCase.Toml
