import AnyCase.Proofs.Replies

/-!
# `Proofs.Framing` — replies are the lines of what was sent

The daemon sends its replies one per line, and the client takes every line for a reply. No line break stands in a
reply: texts escape all characters below the space (`Json.printable_compactChars`), and between texts no white space
is written. So the lines of what was sent are the replies (`linesOf_writeLines`), and each line is read back as
`Reply.read?_write` says (`readLines_writeLines`).
-/

namespace AnyCase

/-! ## Characters of a message -/

/-- Whether a text has no control characters, line breaks among them. -/
def Printable (text : List Char) : Prop := ∀ c ∈ text, 0x20 ≤ c.toNat

instance (text : List Char) : Decidable (Printable text) := List.decidableBAll _ text

namespace Printable

variable {c : Char} {text text' : List Char}

theorem nil : Printable [] := fun _ hc => absurd hc List.not_mem_nil

theorem cons (hc : 0x20 ≤ c.toNat) (h : Printable text) : Printable (c :: text) :=
  List.forall_mem_cons.mpr ⟨hc, h⟩

theorem append (h : Printable text) (h' : Printable text') : Printable (text ++ text') :=
  List.forall_mem_append.mpr ⟨h, h'⟩

end Printable

namespace Json

theorem printable_escapeChar (c : Char) : Printable (escapeChar c) := by
  unfold escapeChar
  -- seven characters have escapes of their own
  iterate 7
    split
    · decide
  split
  · rename_i hlt
    have hhex : ∀ n < 16, 0x20 ≤ (hexChar n).toNat := by decide
    have hzero : 0x20 ≤ '0'.toNat := by decide
    have hdigits : Printable [hexChar (c.toNat / 16), hexChar (c.toNat % 16)] :=
      .cons (hhex _ (by omega)) (.cons (hhex _ (by omega)) .nil)
    exact .cons (by decide) (.cons (by decide) (.cons hzero (.cons hzero hdigits)))
  · rename_i hge
    exact .cons (Nat.le_of_not_lt hge) .nil

theorem printable_quoted (text : String) : Printable (quoted text) := by
  refine (Printable.cons (by decide) fun c hc => ?_).append (.cons (by decide) .nil)
  obtain ⟨d, -, hd⟩ := List.mem_flatMap.mp hc
  exact printable_escapeChar d c hd

theorem printable_intChars (i : Int) : Printable (intChars i) := by
  have hdigit : ∀ c : Char, c.isDigit = true → 0x20 ≤ c.toNat := by
    intro c hc
    obtain ⟨hlow, -⟩ := Char.isDigit_iff_toNat.mp hc
    exact Nat.le_trans (by decide) hlow
  obtain ⟨c, rest, heq, hc, hrest⟩ := Lexer.exists_intChars i
  rw [heq]
  refine .cons ?_ fun d hd => hdigit d (hrest d hd)
  rcases hc with hc | rfl
  · exact hdigit c hc
  · decide

mutual

/-- **What is written without spaces has no control characters.** -/
theorem printable_compactChars : ∀ v : Json, Plain v → Printable (compactChars v)
  | null, _ | bool true, _ | bool false, _ => by
    rw [compactChars]
    decide
  | int i, _ => by
    rw [compactChars]
    exact printable_intChars i
  | str text, _ => by
    rw [compactChars]
    exact printable_quoted text
  | arr items, h => by
    rw [Plain] at h
    rw [compactChars]
    exact (Printable.cons (by decide) (printable_compactItems items h)).append (.cons (by decide) .nil)
  | obj members, h => by
    rw [Plain] at h
    rw [compactChars]
    exact (Printable.cons (by decide) (printable_compactMembers members h)).append (.cons (by decide) .nil)

theorem printable_compactItems : ∀ items : List Json, PlainItems items → Printable (compactItems items)
  | [], _ => by
    rw [compactItems]
    exact .nil
  | [v], h => by
    rw [PlainItems] at h
    rw [compactItems]
    exact printable_compactChars v h.1
  | v :: w :: rest, h => by
    rw [PlainItems] at h
    rw [compactItems]
    exact (printable_compactChars v h.1).append (.cons (by decide) (printable_compactItems (w :: rest) h.2))

theorem printable_compactMembers : ∀ members : List (String × Json), PlainMembers members →
    Printable (compactMembers members)
  | [], _ => by
    rw [compactMembers]
    exact .nil
  | [(k, v)], h => by
    rw [PlainMembers] at h
    rw [compactMembers]
    exact (printable_quoted k).append (.cons (by decide) (printable_compactChars v h.1))
  | (k, v) :: m :: rest, h => by
    rw [PlainMembers] at h
    rw [compactMembers]
    have hmember := (printable_quoted k).append (.cons (c := ':') (by decide) (printable_compactChars v h.1))
    exact hmember.append (.cons (by decide) (printable_compactMembers (m :: rest) h.2))

end

end Json

/-! ## Lines -/

/-- Lists that are put together with nothing between them. -/
theorem intercalate_nothing {α : Type} (lists : List (List α)) : [].intercalate lists = lists.flatten := by
  induction lists with
  | nil => rfl
  | cons l rest ih =>
    cases rest with
    | nil => rfl
    | cons l' rest =>
      rw [List.intercalate_cons_cons, ih, List.append_nil]
      rfl

/-- A line that ends with a line feed is the first one. -/
theorem linesOfChars_append {line : List Char} (h : Printable line) (rest : List Char) :
    linesOfChars (line ++ '\n' :: rest) = line :: linesOfChars rest := by
  induction line with
  | nil => rfl
  | cons c line ih =>
    obtain ⟨hc, hline⟩ := List.forall_mem_cons.mp h
    have hfeed : c ≠ '\n' := by
      rintro rfl
      exact absurd hc (by decide)
    have hreturn : c ≠ '\r' := by
      rintro rfl
      exact absurd hc (by decide)
    rw [List.cons_append, linesOfChars.eq_4 c _ (fun _ heq _ => hreturn heq) hfeed, ih hline]
    rfl

/-- **The lines of lines are the lines.** -/
theorem linesOfChars_flatMap {lines : List (List Char)} (h : ∀ line ∈ lines, Printable line) :
    linesOfChars (lines.flatMap (fun line => line ++ ['\n'])) = lines := by
  induction lines with
  | nil => rfl
  | cons line rest ih =>
    obtain ⟨hline, hrest⟩ := List.forall_mem_cons.mp h
    rw [List.flatMap_cons, List.append_assoc, List.singleton_append, linesOfChars_append hline, ih hrest]

namespace Reply

/-! ## Replies -/

theorem printable_write (r : Reply) : Printable r.write.toList := by
  unfold write Json.compact
  rw [String.toList_ofList]
  exact Json.printable_compactChars _ r.within_toJson.1

theorem toList_writeLines (replies : List Reply) :
    (writeLines replies).toList = (replies.map (fun r => r.write.toList)).flatMap (fun line => line ++ ['\n']) := by
  have htext : ∀ r : Reply, (r.write ++ "\n").toList = r.write.toList ++ ['\n'] := fun r => String.toList_append
  unfold writeLines
  rw [String.toList_intercalate, String.toList_empty, intercalate_nothing, List.map_map, List.flatMap_map,
    ← List.flatMap_def]
  exact congrArg (List.flatMap · replies) (funext htext)

/-- The lines of what was sent are the texts of the replies. -/
theorem linesOf_writeLines (replies : List Reply) : linesOf (writeLines replies) = replies.map write := by
  have hprintable : ∀ line ∈ replies.map (fun r => r.write.toList), Printable line := by
    intro line hline
    obtain ⟨r, -, rfl⟩ := List.mem_map.mp hline
    exact r.printable_write
  rw [linesOf, toList_writeLines, linesOfChars_flatMap hprintable, List.map_map]
  refine List.map_congr_left fun r _ => ?_
  exact String.ofList_toList

/-- **Sending replies loses nothing.** Whatever the replies are, the lines of what was sent are their texts, one for
each reply and in their order, and the client reads the same list of replies from them. -/
theorem readLines_writeLines (replies : List Reply) :
    linesOf (writeLines replies) = replies.map write ∧ readLines (writeLines replies) = .ok replies := by
  refine ⟨linesOf_writeLines replies, ?_⟩
  rw [readLines, linesOf_writeLines]
  induction replies with
  | nil => rfl
  | cons r rest ih =>
    rw [List.map_cons, List.mapM_cons, read?_write, ih]
    rfl

end Reply

end AnyCase
