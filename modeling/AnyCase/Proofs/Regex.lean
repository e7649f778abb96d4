import Mathlib

/-!
# `Proofs.Regex` — what regular expressions mean

The search program takes regular expressions. This module gives the part of their syntax that patterns use, and
its usual meaning: letters, digits, `-`, `_`, blanks and `/` stand for themselves, `[…]` is a class with ranges,
`(?<!…)` and `(?!…)` reject a character of a class before or after, and `|` separates branches. A text that uses
anything else is not read at all (`Regex.read?`), so nothing is said about it.

A match is between two places of a text, which has a character at each place but the last. Neither the reader nor
the meaning knows anything of how patterns are made.

## Contents

* `CharClass`, `Item` — the parts of a branch;
* `Regex.Run`, `Regex.Matches` — what they match;
* `Regex.readClass?`, `Regex.readItem?`, `Regex.readItems?`, `Regex.read?` — the reader.
-/

namespace AnyCase.Regex

/-! ## Meaning -/

/-- A class of characters: those in some ranges, both ends included. -/
def CharClass : Type := List (Char × Char)
  deriving DecidableEq

/-- Whether a class has a character. -/
def CharClass.has (k : CharClass) (c : Char) : Bool := List.any k fun range => range.1 ≤ c && c ≤ range.2

/-- A part of a branch. -/
inductive Item
  /-- A character that stands for itself. -/
  | char (c : Char)
  /-- A character of a class. -/
  | oneOf (k : CharClass)
  /-- A place that has no character of a class before it. -/
  | notPrecededBy (k : CharClass)
  /-- A place that has no character of a class after it. -/
  | notFollowedBy (k : CharClass)
  deriving DecidableEq

/-- The character before a place of a text. -/
def charBefore? (text : List Char) : Nat → Option Char
  | 0 => none
  | i + 1 => text[i]?

/-- What stands between two places of a text. -/
def slice? (text : List Char) (i j : Nat) : Option (List Char) :=
  if i ≤ j ∧ j ≤ text.length then some ((text.drop i).take (j - i)) else none

/-- Whether items match, one after the other, what stands between two places of a text. -/
def Run (text : List Char) : List Item → Nat → Nat → Prop
  | [], i, j => i = j ∧ j ≤ text.length
  | .char c :: rest, i, j => text[i]? = some c ∧ Run text rest (i + 1) j
  | .oneOf k :: rest, i, j => text[i]?.any k.has = true ∧ Run text rest (i + 1) j
  | .notPrecededBy k :: rest, i, j => (charBefore? text i).any k.has = false ∧ Run text rest i j
  | .notFollowedBy k :: rest, i, j => text[i]?.any k.has = false ∧ Run text rest i j

/-- Whether a branch matches what stands between two places of a text. -/
def Matches (branches : List (List Item)) (text : List Char) (i j : Nat) : Prop :=
  ∃ branch ∈ branches, Run text branch i j

/-! ## Reading -/

/-- Whether a character stands for itself outside classes. -/
def isPlain (c : Char) : Bool := c.isAlphanum || ['-', '_', ' ', '/'].contains c

/-- The rest of a class up to its closing bracket. A dash makes a range of two letters or digits, and stands for
itself at the end of the class. -/
def readClass? : List Char → Option (CharClass × List Char)
  | [] => none
  | ']' :: rest => some ([], rest)
  | '-' :: ']' :: rest => some ([('-', '-')], rest)
  | a :: '-' :: b :: rest =>
    if a.isAlphanum && b.isAlphanum && a ≤ b then (readClass? rest).map fun r => ((a, b) :: r.1, r.2)
    else none
  | a :: rest =>
    if a.isAlphanum || ['_', ' ', '/'].contains a then (readClass? rest).map fun r => ((a, a) :: r.1, r.2)
    else none

/-- The rest of a class that has characters. -/
def readSet? (l : List Char) : Option (CharClass × List Char) :=
  (readClass? l).filter fun r => !List.isEmpty r.1

/-- What is made of a class that a closing parenthesis follows. -/
def closed? (item : CharClass → Item) : CharClass × List Char → Option (Item × List Char)
  | (k, ')' :: rest) => some (item k, rest)
  | _ => none

/-- The first item of a text, and the rest. -/
def readItem? : List Char → Option (Item × List Char)
  | [] => none
  | '(' :: '?' :: '<' :: '!' :: '[' :: rest => (readSet? rest).bind (closed? .notPrecededBy)
  | '(' :: '?' :: '!' :: '[' :: rest => (readSet? rest).bind (closed? .notFollowedBy)
  | '[' :: rest => (readSet? rest).map fun r => (.oneOf r.1, r.2)
  | c :: rest => if isPlain c then some (.char c, rest) else none

theorem length_readClass? {l rest : List Char} {k : CharClass} (h : readClass? l = some (k, rest)) :
    rest.length < l.length := by
  fun_induction readClass? l generalizing k with
  | case1 => exact absurd h (by simp)
  | case2 rest' =>
    obtain ⟨-, rfl⟩ := Prod.mk.inj (Option.some.inj h)
    simp
  | case3 rest' =>
    obtain ⟨-, rfl⟩ := Prod.mk.inj (Option.some.inj h)
    simp
  | case4 a b rest' _ _ ih =>
    obtain ⟨⟨k', rest''⟩, hrest, heq⟩ := Option.map_eq_some_iff.mp h
    obtain ⟨-, rfl⟩ := Prod.mk.inj heq
    have hlt : rest''.length < rest'.length := ih hrest
    simp only [List.length_cons]
    omega
  | case5 => exact absurd h (by simp)
  | case6 a rest' _ _ _ _ ih =>
    obtain ⟨⟨k', rest''⟩, hrest, heq⟩ := Option.map_eq_some_iff.mp h
    obtain ⟨-, rfl⟩ := Prod.mk.inj heq
    have hlt : rest''.length < rest'.length := ih hrest
    simp only [List.length_cons]
    omega
  | case7 => exact absurd h (by simp)

theorem length_readSet? {l rest : List Char} {k : CharClass} (h : readSet? l = some (k, rest)) :
    rest.length < l.length :=
  length_readClass? (Option.filter_eq_some_iff.mp h).1

/-- An item takes something of the text. -/
theorem length_readItem? {l rest : List Char} {item : Item} (h : readItem? l = some (item, rest)) :
    rest.length < l.length := by
  have hclosed : ∀ {make : CharClass → Item} {l' : List Char},
      (readSet? l').bind (closed? make) = some (item, rest) → rest.length < l'.length := by
    intro make l' h
    obtain ⟨⟨k, rest'⟩, hset, hclosed⟩ := Option.bind_eq_some_iff.mp h
    have hlt := length_readSet? hset
    unfold closed? at hclosed
    split at hclosed
    · rename_i heq
      obtain ⟨-, rfl⟩ := Prod.mk.inj (Option.some.inj hclosed)
      obtain ⟨-, rfl⟩ := Prod.mk.inj heq
      rw [List.length_cons] at hlt
      omega
    · exact absurd hclosed (by simp)
  unfold readItem? at h
  split at h
  · exact absurd h (by simp)
  · have hlt := hclosed h
    simp only [List.length_cons]
    omega
  · have hlt := hclosed h
    simp only [List.length_cons]
    omega
  · rename_i l'
    obtain ⟨⟨k, rest'⟩, hset, heq⟩ := Option.map_eq_some_iff.mp h
    obtain ⟨-, rfl⟩ := Prod.mk.inj heq
    have hlt : rest'.length < l'.length := length_readSet? hset
    exact Nat.lt_succ_of_lt hlt
  · split at h
    · obtain ⟨-, rfl⟩ := Prod.mk.inj (Option.some.inj h)
      exact Nat.lt_succ_self _
    · exact absurd h (by simp)

/-- The items of a text, up to its end. -/
def readItems? : List Char → Option (List Item)
  | [] => some []
  | c :: l =>
    match _h : readItem? (c :: l) with
    | none => none
    | some (item, rest) => (readItems? rest).map (item :: ·)
termination_by l => l.length
decreasing_by exact length_readItem? _h

/-- The branches of a regular expression. -/
def read? (pattern : String) : Option (List (List Item)) := (pattern.toList.splitOn '|').mapM readItems?

end AnyCase.Regex
