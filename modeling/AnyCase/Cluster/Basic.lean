import AnyCase.Cluster.Table

/-!
# `Cluster.Basic` — what a reader takes for one character

A text is cut into extended grapheme clusters. Whether two neighbours are kept together depends on the
kinds of both (`Kind`) and, for pictographs, flags and joined consonants, on what stands before them
(`Context`). The text is read once from the left: `Context.next` goes one character further,
`Context.joins` tells whether it belongs to the cluster before.

`Cluster.count` is the number of clusters, which is the width of a text in a table.
-/

namespace AnyCase.Cluster

/-- How a character combines with its neighbours. -/
inductive Kind
  | other
  | carriageReturn
  | lineFeed
  | control
  | extend
  /-- Extends what is before it, but keeps consonants apart. -/
  | nonJoiner
  | linker
  | joiner
  | spacing
  | prepend
  | regional
  | pictograph
  | consonant
  /-- A leading consonant, a vowel or a trailing consonant of a syllable block. -/
  | leading
  | vowel
  | trailing
  /-- A syllable block without or with a trailing consonant. -/
  | openBlock
  | closedBlock
  deriving DecidableEq, Repr, Inhabited

namespace Kind

/-- The kind of a character. -/
def ofChar (c : Char) : Kind :=
  let code := c.toNat
  if code = 0x0d then carriageReturn
  else if code = 0x0a then lineFeed
  else if 0x20 ≤ code && code < 0x7f then other
  else if code = 0x200c then nonJoiner
  else if code = 0x200d then joiner
  else if 0xac00 ≤ code && code ≤ 0xd7a3 then
    if (code - 0xac00) % 28 = 0 then openBlock else closedBlock
  else if 0x1f1e6 ≤ code && code ≤ 0x1f1ff then regional
  else if inRanges controls code then control
  else if inRanges extenders code then extend
  else if inRanges linkers code then linker
  else if inRanges spacingMarks code then spacing
  else if inRanges prependers code then prepend
  else if inRanges consonants code then consonant
  else if inRanges pictographs code then pictograph
  else if inRanges leadings code then leading
  else if inRanges vowels code then vowel
  else if inRanges trailings code then trailing
  else other

/-- Whether a character always stands by itself. -/
def isBreak : Kind → Bool
  | carriageReturn | lineFeed | control => true
  | _ => false

/-- Whether a character extends the cluster before it, whatever that is. -/
def isExtending : Kind → Bool
  | extend | nonJoiner | linker | joiner => true
  | _ => false

/-- Whether two parts of a syllable block belong together. -/
def inBlock (k next : Kind) : Bool :=
  match k, next with
  | leading, leading | leading, vowel | leading, openBlock | leading, closedBlock => true
  | openBlock, vowel | openBlock, trailing | vowel, vowel | vowel, trailing => true
  | closedBlock, trailing | trailing, trailing => true
  | _, _ => false

end Kind

/-- How far the joining of consonants has come. -/
inductive Conjunct
  | none
  /-- A consonant, and what extends it. -/
  | started
  /-- The same with a linker in it. -/
  | linked
  deriving DecidableEq, Repr

/-- What matters of the text so far: its last character, and what it ends with. -/
structure Context where
  last : Kind
  /-- It ends with a pictograph and what extends it. -/
  pictograph : Bool
  /-- It ends with that and a joiner. -/
  joinedPictograph : Bool
  conjunct : Conjunct
  /-- It ends with an odd number of regional indicators, so one more makes a flag. -/
  halfFlag : Bool
  deriving DecidableEq, Repr

namespace Context

/-- The text of one character. -/
def start (k : Kind) : Context where
  last := k
  pictograph := k = .pictograph
  joinedPictograph := false
  conjunct := if k = .consonant then .started else .none
  halfFlag := k = .regional

/-- The joining of consonants after one more character. -/
def nextConjunct (c : Conjunct) (k : Kind) : Conjunct :=
  match k with
  | .consonant => .started
  | .linker => if c = .none then .none else .linked
  | .extend | .joiner => c
  | _ => .none

/-- The text with one more character. -/
def next (s : Context) (k : Kind) : Context where
  last := k
  pictograph := k = .pictograph || (s.pictograph && (k.isExtending && k ≠ .joiner))
  joinedPictograph := s.pictograph && k = .joiner
  conjunct := nextConjunct s.conjunct k
  halfFlag := k = .regional && !s.halfFlag

/-- Whether one more character belongs to the last cluster. -/
def joins (s : Context) (k : Kind) : Bool :=
  if s.last = .carriageReturn && k = .lineFeed then true
  else if s.last.isBreak || k.isBreak then false
  else k.isExtending || k = .spacing || s.last = .prepend
    || s.last.inBlock k
    || (s.conjunct = .linked && k = .consonant)
    || (s.joinedPictograph && k = .pictograph)
    || (s.halfFlag && k = .regional)

end Context

/-- The number of clusters that begin after the text so far. -/
def countAfter (s : Context) : List Char → Nat
  | [] => 0
  | c :: rest =>
    let k := Kind.ofChar c
    countAfter (s.next k) rest + if s.joins k then 0 else 1

/-- The number of clusters of a text. -/
def count (text : String) : Nat :=
  match text.toList with
  | [] => 0
  | c :: rest => countAfter (.start (Kind.ofChar c)) rest + 1

end AnyCase.Cluster
