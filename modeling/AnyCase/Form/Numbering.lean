import AnyCase.Decimal

/-!
# `Form.Numbering` — numbers for the elements of a group

The elements of a dynamic group have ids `<group>-<n>`, with `n` in canonical decimal. A `Numbering`
knows the least number above all those in use or handed out before, so no id is given twice, not even
after its element is gone. A proposed id is taken if its number is not below that.

Numbers are words. There is none after the last one, so once it is handed out the numbering starts over
(`Numbering.ofNat`), and ids are given again.
-/

namespace AnyCase

/-- Numbers of elements are words of 64 bits, below this. -/
def Numbering.limit : Nat := Nat.pow 2 64

/-- The numbers of the elements of a group: `next` is above every number used so far, as long as the last
one was not used. -/
structure Numbering where
  next : Nat
  next_lt : next < Numbering.limit
  deriving DecidableEq, Repr

namespace Numbering

theorem limit_pos : 0 < limit := Nat.two_pow_pos 64

/-- The numbering that goes on with a number, which is cut to a word. -/
def ofNat (n : Nat) : Numbering := ⟨n % limit, Nat.mod_lt n limit_pos⟩

/-- The id of the element with a number. -/
def idOf (group : String) (n : Nat) : String := group ++ "-" ++ String.ofList (Decimal.numeral n)

/-- The number in an id of a group, if it has the canonical form. -/
def numberOf? (group id : String) : Option Nat :=
  (((group.toList ++ ['-']).isPrefixOf? id.toList).bind Decimal.ofNumeral?).filter (· < limit)

/-- The numbering that goes on after the given ids. -/
def after (group : String) (ids : List String) : Numbering :=
  ofNat (((ids.filterMap (numberOf? group)).map (· + 1)).foldr max 0)

/-- The next id. -/
def fresh (s : Numbering) (group : String) : String × Numbering :=
  (idOf group s.next, ofNat (s.next + 1))

/-- A proposed id, if it has the form of an id of the group and its number is still free. -/
def take? (s : Numbering) (group proposed : String) : Option (String × Numbering) :=
  match numberOf? group proposed with
  | some n => if n < s.next then none else some (proposed, ofNat (n + 1))
  | none => none

/-- The id of a new element: the proposed one if it can be taken, the next one otherwise. -/
def issue (s : Numbering) (group : String) (proposed : Option String) : String × Numbering :=
  ((proposed.bind (s.take? group)).getD (s.fresh group))

end Numbering

end AnyCase
