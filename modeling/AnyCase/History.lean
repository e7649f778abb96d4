/-!
# `History` — the texts searched for, most recent first

A history holds no text twice and no empty text, and at most as many as its capacity. Pushing a text
puts it on top, wherever it stood before.
-/

namespace AnyCase

/-- Recent texts, most recent first. -/
structure History where
  entries : List String
  deriving DecidableEq, Repr, Inhabited

namespace History

/-- The history without texts. -/
def empty : History := ⟨[]⟩

/-- Puts a text on top, keeping at most `capacity` texts; the empty text is not remembered. -/
def push (capacity : Nat) (text : String) (h : History) : History :=
  if text = "" then h
  else ⟨(text :: h.entries.filter (fun e => e ≠ text)).take capacity⟩

/-- The history of a list of texts, most recent first: they are pushed from the oldest on, so that the
most recent ones end on top. -/
def ofList (capacity : Nat) (texts : List String) : History :=
  texts.foldr (push capacity) empty

end History

end AnyCase
