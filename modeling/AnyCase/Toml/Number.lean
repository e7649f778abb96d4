import AnyCase.Decimal
import AnyCase.Toml.Text

/-!
# `Toml.Number` — numbers, dates and times of TOML

Whole numbers have 64 bits and a sign; they may be written with underscores between digits, and in
hexadecimal, octal and binary. Floats and dates have no use in the settings, so their values are not
computed: only their grammar and range are checked.
-/

namespace AnyCase.Toml

/-! ## Digits -/

/-- The digits that a text begins with, an underscore allowed between two of them. -/
def moreDigits (isDigit : Char → Bool) : List Char → List Char × List Char
  | '_' :: d :: rest =>
    if isDigit d then
      let (ds, rest') := moreDigits isDigit rest
      (d :: ds, rest')
    else ([], '_' :: d :: rest)
  | c :: rest =>
    if isDigit c then
      let (ds, rest') := moreDigits isDigit rest
      (c :: ds, rest')
    else ([], c :: rest)
  | [] => ([], [])

/-- A digit, and the digits after it. -/
def digits? (isDigit : Char → Bool) : Reads (List Char)
  | c :: rest =>
    if isDigit c then
      let (ds, rest') := moreDigits isDigit rest
      some (c :: ds, rest')
    else none
  | [] => none

/-- Whether a number has a minus sign, and the text after its sign. -/
def sign : List Char → Bool × List Char
  | '+' :: rest => (false, rest)
  | '-' :: rest => (true, rest)
  | cs => (false, cs)

/-- The digits of a whole number in decimal: a single zero, or no leading zero. -/
def wholeDigits? : Reads (List Char)
  | '0' :: rest => some (['0'], rest)
  | cs => digits? Char.isDigit cs

/-! ## Whole numbers -/

/-- A number with a prefix for its base, after the prefix. -/
def based? (base : Nat) : Reads Int := fun cs => do
  let (ds, rest) ← digits? (fun c => (Json.hexDigit? c).any (· < base)) cs
  let n := ds.foldl (fun n c => base * n + (Json.hexDigit? c).getD 0) 0
  if n < Nat.pow 2 63 then some (Int.ofNat n, rest) else none

/-- A whole number. -/
def int? : Reads Int
  | '0' :: 'x' :: rest => based? 16 rest
  | '0' :: 'o' :: rest => based? 8 rest
  | '0' :: 'b' :: rest => based? 2 rest
  | cs => do
    let (negative, rest) := sign cs
    let (ds, rest') ← wholeDigits? rest
    let n := Decimal.value ds
    if negative then (if n ≤ Nat.pow 2 63 then some (-(Int.ofNat n), rest') else none)
    else (if n < Nat.pow 2 63 then some (Int.ofNat n, rest') else none)

/-! ## Floats -/

/-- The exponent of a float. -/
def exponent? : Reads Int
  | e :: rest =>
    if e = 'e' || e = 'E' then do
      let (negative, rest') := sign rest
      let (ds, rest'') ← digits? Char.isDigit rest'
      let n := Int.ofNat (Decimal.value ds)
      some (if negative then -n else n, rest'')
    else none
  | [] => none

/-- The fraction of a float, after its whole part; none if neither a point nor an exponent follows. -/
def fraction? (whole : List Char) : Reads Decimal
  | '.' :: rest => do
    let (ds, rest') ← digits? Char.isDigit rest
    match exponent? rest' with
    | some (e, rest'') => some (⟨whole ++ ds, e - ds.length⟩, rest'')
    | none => some (⟨whole ++ ds, -(ds.length : Int)⟩, rest')
  | cs => do
    let (e, rest) ← exponent? cs
    some (⟨whole, e⟩, rest)

/-- A float, as it is spelled. One that is too large is no number, unless it is negative. -/
def float? : Reads String := fun cs =>
  let (negative, rest) := sign cs
  let spelled (rest' : List Char) := String.ofList (cs.take (cs.length - rest'.length))
  match rest with
  | 'i' :: 'n' :: 'f' :: rest' => some (spelled rest', rest')
  | 'n' :: 'a' :: 'n' :: rest' => some (spelled rest', rest')
  | _ => do
    let (whole, rest') ← wholeDigits? rest
    let (d, rest'') ← fraction? whole rest'
    if !negative && d.exceedsDouble then none else some (spelled rest'', rest'')

/-! ## Dates and times -/

/-- A number of exactly `count` digits between two bounds. -/
def fixedDigits? (count low high : Nat) : Reads Nat := fun cs => do
  let ds := cs.take count
  if ds.length < count then none
  else do
    let n ← Decimal.ofDigits? ds
    if low ≤ n ∧ n ≤ high then some (n, cs.drop count) else none

/-- The text after a character it has to begin with. -/
def expect? (c : Char) : List Char → Option (List Char)
  | d :: rest => if d = c then some rest else none
  | [] => none

/-- The number of days in a month. -/
def daysIn (year month : Nat) : Nat :=
  if month = 2 then (if year % 4 = 0 ∧ (year % 100 ≠ 0 ∨ year % 400 = 0) then 29 else 28)
  else if month = 4 ∨ month = 6 ∨ month = 9 ∨ month = 11 then 30
  else 31

/-- The text after a date. -/
def dropDate? (cs : List Char) : Option (List Char) := do
  let (year, cs) ← fixedDigits? 4 0 9999 cs
  let cs ← expect? '-' cs
  let (month, cs) ← fixedDigits? 2 1 12 cs
  let cs ← expect? '-' cs
  let (_, cs) ← fixedDigits? 2 1 (daysIn year month) cs
  some cs

/-- The text after a time of day; its seconds may have a fraction. -/
def dropTime? (cs : List Char) : Option (List Char) := do
  let (_, cs) ← fixedDigits? 2 0 23 cs
  let cs ← expect? ':' cs
  let (_, cs) ← fixedDigits? 2 0 59 cs
  let cs ← expect? ':' cs
  let (_, cs) ← fixedDigits? 2 0 60 cs
  match cs with
  | '.' :: d :: rest => if d.isDigit then some (rest.dropWhile Char.isDigit) else some cs
  | _ => some cs

/-- The text after a time zone, if there is one. -/
def dropZone (cs : List Char) : List Char :=
  match cs with
  | [] => cs
  | c :: rest =>
    if c = 'Z' || c = 'z' then rest
    else if c = '+' || c = '-' then
      (do
        let (_, rest) ← fixedDigits? 2 0 23 rest
        let rest ← expect? ':' rest
        let (_, rest) ← fixedDigits? 2 0 59 rest
        some rest).getD cs
    else cs

/-- The text after a date, a time, or a date with a time. -/
def dropMoment? (cs : List Char) : Option (List Char) :=
  match dropDate? cs with
  | none => dropTime? cs
  | some rest =>
    match rest with
    | c :: rest' =>
      if c = 'T' || c = 't' || c = ' ' then
        match dropTime? rest' with
        | some rest'' => some (dropZone rest'')
        | none => some rest
      else some rest
    | [] => some rest

/-- A date or time, as it is spelled. -/
def moment? : Reads String := fun cs => do
  let rest ← dropMoment? cs
  some (String.ofList (cs.take (cs.length - rest.length)), rest)

end AnyCase.Toml
