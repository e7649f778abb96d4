/-!
# `Decimal` — decimal numerals

Whole numbers are written in decimal without leading zeros (`Decimal.numeral`), and that is their only
canonical spelling: `Decimal.ofNumeral?` reads exactly those back. Numbers with a fraction or an exponent
are kept as a `Decimal`: digits and a power of ten.

## Contents

* `numeral`, `ofNumeral?`, `ofDigits?`, `value` — whole numbers and their digits;
* `nearestDouble`, `doubleLimit` — whole numbers as double-precision floats;
* `Decimal`, `Decimal.exceedsDouble` — numbers too large for a double-precision float.
-/

namespace AnyCase

/-- A non-negative number written with digits: `digits · 10 ^ exponent`. -/
structure Decimal where
  digits : List Char
  exponent : Int
  deriving DecidableEq, Repr

namespace Decimal

/-! ## Whole numbers -/

/-- The digits of a whole number, without leading zeros. -/
def numeral (n : Nat) : List Char := Nat.toDigits 10 n

/-- The number that a list of digits stands for, leading zeros allowed. -/
def value (digits : List Char) : Nat := Nat.ofDigitChars 10 digits 0

/-- The number of a non-empty list of digits. -/
def ofDigits? (digits : List Char) : Option Nat :=
  if digits.isEmpty || !digits.all Char.isDigit then none else some (value digits)

/-- The number of a canonical numeral: digits without a sign and without leading zeros. -/
def ofNumeral? (text : List Char) : Option Nat :=
  (ofDigits? text).filter (fun n => numeral n = text)

/-! ## Floats -/

/-- The whole number rounded to 53 binary digits, a half to the even neighbour: the nearest
double-precision float, as long as it is finite. -/
def nearestDouble (n : Nat) : Nat :=
  let unit := Nat.pow 2 (n.log2 - 52)
  let units := n / unit
  let rest := n % unit
  if unit < 2 * rest ∨ (unit = 2 * rest ∧ units % 2 = 1) then (units + 1) * unit else units * unit

/-- The least number that is rounded to infinity as a double-precision float: half a unit above the
largest finite one. -/
def doubleLimit : Nat := Nat.pow 2 1024 - Nat.pow 2 970

/-- Whether the number is rounded to infinity as a double-precision float. The number of its digits
before the point settles all but the numbers near the limit. -/
def exceedsDouble (d : Decimal) : Bool :=
  let n := value d.digits
  if n = 0 then false
  else
    let places : Int := (numeral n).length + d.exponent
    if places > 310 then true
    else if places < 300 then false
    else
      match d.exponent with
      | .ofNat e => doubleLimit ≤ n * Nat.pow 10 e
      | .negSucc e => doubleLimit * Nat.pow 10 (e + 1) ≤ n

end Decimal

end AnyCase
