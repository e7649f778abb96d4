import AnyCase.Decimal

/-!
# `Json.Number` — the numbers of a JSON text

A `Numeral` is the parts of a number as it is written: a sign, the whole digits, the digits after a point
and an exponent. One without a point and an exponent is a whole number if it fits into 64 bits; every
other one is a double-precision float.

A float is the product of two rounded factors, a significand and a power of ten, and the product is
rounded again. The significand is as much of the digits as a word of 64 bits has room for
(`Numeral.scaled`). So a number just below the greatest float may still be out of range
(`Numeral.isHuge`).

## Contents

* `Numeral`, `Numeral.read?` — numbers and their grammar;
* `Numeral.fill` — digits in a word of 64 bits;
* `Numeral.int?`, `Numeral.scaled`, `Numeral.isHuge` — what a number stands for.
-/

namespace AnyCase.Json

/-- A number as it is written. -/
structure Numeral where
  negative : Bool
  whole : List Char
  /-- The digits after the point, if there is one. -/
  fraction : Option (List Char)
  /-- The power of ten, if one is given. -/
  exponent : Option Int
  deriving DecidableEq, Repr

namespace Numeral

/-! ## Grammar -/

/-- Splits off a non-empty run of digits. -/
def digitRun? (cs : List Char) : Option (List Char × List Char) :=
  let run := cs.takeWhile Char.isDigit
  if run.isEmpty then none else some (run, cs.dropWhile Char.isDigit)

/-- The end of a number: nothing, or `e`, a sign and digits. -/
def exponent? : List Char → Option (Option Int)
  | [] => some none
  | e :: rest =>
    if e = 'e' || e = 'E' then
      match rest with
      | '+' :: ds => (Decimal.ofDigits? ds).map (fun n => some (Int.ofNat n))
      | '-' :: ds => (Decimal.ofDigits? ds).map (fun n => some (-(Int.ofNat n)))
      | ds => (Decimal.ofDigits? ds).map (fun n => some (Int.ofNat n))
    else none

/-- A number without its sign: the whole part has no leading zeros, and a point is followed by a digit. -/
def unsigned? (negative : Bool) (cs : List Char) : Option Numeral := do
  let (whole, rest) ← digitRun? cs
  if whole.length > 1 && whole.head? = some '0' then none
  else
    match rest with
    | '.' :: rest' => do
      let (fraction, rest'') ← digitRun? rest'
      let exponent ← exponent? rest''
      some ⟨negative, whole, some fraction, exponent⟩
    | _ => do
      let exponent ← exponent? rest
      some ⟨negative, whole, none, exponent⟩

/-- The number that a text is. -/
def read? : List Char → Option Numeral
  | '-' :: rest => unsigned? true rest
  | cs => unsigned? false cs

/-! ## Meaning -/

/-- Appends digits to a word of 64 bits as long as there is room; the word, and the digits left over. -/
def fill (word : Nat) : List Char → Nat × List Char
  | [] => (word, [])
  | d :: ds =>
    let longer := Nat.ofDigitChars 10 [d] word
    if longer < Nat.pow 2 64 then fill longer ds else (word, d :: ds)

/-- The whole number of 64 bits; none for zero with a sign, which is a float. -/
def int? (n : Numeral) : Option Int :=
  if n.fraction.isSome || n.exponent.isSome then none
  else
    match fill 0 n.whole with
    | (value, []) =>
      if !n.negative then some (Int.ofNat value)
      else if 1 ≤ value ∧ value ≤ Nat.pow 2 63 then some (-(Int.ofNat value))
      else none
    | _ => none

/-- The number as a significand of 64 bits and a power of ten. A whole digit that is left over counts as
a zero; one after the point is dropped. -/
def scaled (n : Numeral) : Nat × Int :=
  let fraction := n.fraction.getD []
  let (word, zeros) := fill 0 n.whole
  let (significand, dropped) := fill word fraction
  (significand, n.exponent.getD 0 + zeros.length - (fraction.length - dropped.length : Nat))

/-- The greatest power of ten that is a float. -/
def maxExponent : Int := 308

/-- Whether the number is out of the range of floats. -/
def isHuge (n : Numeral) : Bool :=
  match n.scaled with
  | (0, _) => false
  | (_, .negSucc _) => false
  | (significand, .ofNat e) =>
    maxExponent < e ||
      Decimal.doubleLimit ≤ Decimal.nearestDouble significand * Decimal.nearestDouble (Nat.pow 10 e)

end Numeral

end AnyCase.Json
