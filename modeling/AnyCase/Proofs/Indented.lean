import AnyCase.Proofs.Wire

/-!
# `Proofs.Indented` — what is written on lines of its own is read back

The layout of the persisted state differs from that of messages in white space only: a new line with its indent
before each item and member and before the end, and a space after a colon. White space between tokens is skipped,
and a line break completes a number or a word as a comma does (`Lexer.foldlM_newLine`). So a value has the same
tokens in both layouts, and what is read from them is known (`Json.read?_of_reads`).
-/

namespace AnyCase.Json

namespace Lexer

variable {s : Lexer} {done tokens : List Token} {text : List Char}

theorem foldlM_spaces (done : List Token) (n : Nat) :
    (List.replicate n ' ').foldlM step ⟨done, .between⟩ = some ⟨done, .between⟩ := by
  induction n with
  | zero => rfl
  | succ n ih =>
    rw [List.replicate_succ, List.foldlM_cons]
    exact ih

/-- A new line completes what stands before it, and its indent is skipped. -/
theorem foldlM_newLine (h : s.Completed done) (level : Nat) :
    (newLine level).foldlM step s = some ⟨done, .between⟩ := by
  have hbreak : s.step '\n' = some ⟨done, .between⟩ := h.delimiter '\n' (by decide)
  rw [newLine, List.foldlM_cons, hbreak]
  exact foldlM_spaces done (2 * level)

theorem Reads.after_space (h : Reads text tokens) : Reads (' ' :: text) tokens := h

theorem Reads.after_newLine (h : Reads text tokens) (level : Nat) : Reads (newLine level ++ text) tokens := by
  intro done
  obtain ⟨s, hs, hcompleted⟩ := h done
  refine ⟨s, ?_, hcompleted⟩
  rw [List.foldlM_append, foldlM_newLine (completed_between done)]
  exact hs

theorem Reads.before_newLine (h : Reads text tokens) (level : Nat) : Reads (text ++ newLine level) tokens := by
  intro done
  obtain ⟨s, hs, hcompleted⟩ := h done
  refine ⟨_, ?_, completed_between _⟩
  rw [List.foldlM_append, hs]
  exact foldlM_newLine hcompleted level

/-- A member on a line: a space follows the colon. -/
theorem Reads.member (h : Reads text tokens) (k : String) :
    Reads (quoted k ++ ':' :: ' ' :: text) (.str k :: .colon :: tokens) :=
  (reads_quoted k).append h.after_space (by decide) fun _ => rfl

mutual

/-- **A value on lines of its own has the tokens that it has without spaces.** -/
theorem reads_prettyChars : ∀ (v : Json) (level : Nat), Plain v → Reads (prettyChars level v) (tokensOf v)
  | null, level, h | bool true, level, h | bool false, level, h => by
    have hcompact := reads_compactChars _ h
    rw [compactChars] at hcompact
    rw [prettyChars]
    exact hcompact
  | int i, _, h => by
    rw [prettyChars, tokensOf]
    rw [Plain] at h
    exact reads_intChars h
  | str text, _, _ => by
    rw [prettyChars, tokensOf]
    exact reads_quoted text
  | arr [], _, _ => by
    rw [prettyChars, tokensOf, tokensOfItems]
    exact (reads_nil.cons fun _ => rfl).append reads_nil (by decide) fun _ => rfl
  | arr (v :: rest), level, h => by
    rw [Plain, PlainItems] at h
    have hitems := reads_prettyItems rest v (level + 1) h.2 (reads_prettyChars v (level + 1) h.1)
    have hopen := (hitems.after_newLine (level + 1)).cons (c := '[') fun _ => rfl
    have hclose := (hopen.before_newLine level).append reads_nil (c := ']') (by decide) fun _ => rfl
    rw [prettyChars, tokensOf]
    simpa only [List.append_assoc, List.cons_append] using hclose
  | obj [], _, _ => by
    rw [prettyChars, tokensOf, tokensOfMembers]
    exact (reads_nil.cons fun _ => rfl).append reads_nil (by decide) fun _ => rfl
  | obj ((k, v) :: rest), level, h => by
    rw [Plain, PlainMembers] at h
    have hmembers := reads_prettyMembers rest k v (level + 1) h.2 (reads_prettyChars v (level + 1) h.1)
    have hopen := (hmembers.after_newLine (level + 1)).cons (c := '{') fun _ => rfl
    have hclose := (hopen.before_newLine level).append reads_nil (c := '}') (by decide) fun _ => rfl
    rw [prettyChars, tokensOf]
    simpa only [List.append_assoc, List.cons_append] using hclose

theorem reads_prettyItems : ∀ (rest : List Json) (v : Json) (level : Nat), PlainItems rest →
    Reads (prettyChars level v) (tokensOf v) →
    Reads (prettyChars level v ++ prettyItems level rest) (tokensOfItems (v :: rest))
  | [], v, level, _, hv => by
    rw [prettyItems, List.append_nil, tokensOfItems]
    exact hv
  | w :: rest, v, level, h, hv => by
    rw [PlainItems] at h
    have hrest := reads_prettyItems rest w level h.2 (reads_prettyChars w level h.1)
    have hitems := hv.append (hrest.after_newLine level) (c := ',') (by decide) fun _ => rfl
    rw [prettyItems, tokensOfItems]
    simpa only [List.append_assoc, List.cons_append] using hitems

theorem reads_prettyMembers : ∀ (rest : List (String × Json)) (k : String) (v : Json) (level : Nat),
    PlainMembers rest → Reads (prettyChars level v) (tokensOf v) →
    Reads (quoted k ++ ':' :: ' ' :: prettyChars level v ++ prettyMembers level rest)
      (tokensOfMembers ((k, v) :: rest))
  | [], k, v, level, _, hv => by
    rw [prettyMembers, List.append_nil, tokensOfMembers]
    exact hv.member k
  | (k', w) :: rest, k, v, level, h, hv => by
    rw [PlainMembers] at h
    have hrest := reads_prettyMembers rest k' w level h.2 (reads_prettyChars w level h.1)
    have hmembers := (hv.member k).append (hrest.after_newLine level) (c := ',') (by decide) fun _ => rfl
    rw [prettyMembers, tokensOfMembers]
    simpa only [List.append_assoc, List.cons_append] using hmembers

end

end Lexer

/-- **A plain value that is written on lines of its own is read back**, if it is not nested too deep. -/
theorem read?_pretty {v : Json} (h : Plain v) (hdepth : v.depth ≤ maxDepth) : read? v.pretty = some v :=
  read?_of_reads (Lexer.reads_prettyChars v 0 h) h hdepth

end AnyCase.Json
