import AnyCase.Convention
import Mathlib

/-!
# `Proofs.Words` — the words of a text and how they are written

The words of a text are found by three passes that put marks between them. Whatever the passes do, they lose no
letter and no digit, and what is left between marks is nothing else: so a text that has any has words
(`wordsOf_ne_nil`), and words are made of those (`isAlphanum_of_mem_wordsOf`).

A word that is written in a convention is made of letters and digits again. So an identifier has no other
characters than those, the separator of its convention, and underscores (`Convention.Writes`).
-/

namespace AnyCase

/-! ## Pieces -/

section Pieces

variable {mark c : Char} {l piece : List Char}

/-- A piece has what the text has, but for the mark. -/
theorem mem_of_mem_piecesBetween (h : piece ∈ piecesBetween mark l) (hc : c ∈ piece) : c ∈ l ∧ c ≠ mark := by
  induction l generalizing piece with
  | nil =>
    rw [List.mem_singleton.mp h] at hc
    exact absurd hc List.not_mem_nil
  | cons a rest ih =>
    unfold piecesBetween at h
    split at h
    · rcases List.mem_cons.mp h with rfl | hrest
      · exact absurd hc List.not_mem_nil
      · exact (ih hrest hc).imp (List.mem_cons_of_mem a) id
    · rename_i hne
      -- the first piece of the rest is continued to the front
      split at h
      · rw [List.mem_singleton.mp h, List.mem_singleton] at hc
        subst hc
        exact ⟨List.mem_cons_self, hne⟩
      · rename_i first pieces heq
        rcases List.mem_cons.mp h with rfl | hother
        · rcases List.mem_cons.mp hc with rfl | hc
          · exact ⟨List.mem_cons_self, hne⟩
          · have hfirst : first ∈ piecesBetween mark rest := heq ▸ List.mem_cons_self
            exact (ih hfirst hc).imp (List.mem_cons_of_mem a) id
        · have hpiece : piece ∈ piecesBetween mark rest := heq ▸ List.mem_cons_of_mem _ hother
          exact (ih hpiece hc).imp (List.mem_cons_of_mem a) id

/-- What is not the mark is in a piece. -/
theorem exists_piece (hc : c ∈ l) (hne : c ≠ mark) : ∃ piece ∈ piecesBetween mark l, c ∈ piece := by
  induction l with
  | nil => exact absurd hc List.not_mem_nil
  | cons a rest ih =>
    unfold piecesBetween
    split
    · rename_i ha
      have hrest : c ∈ rest := (List.mem_cons.mp hc).resolve_left fun heq => hne (heq.trans ha)
      obtain ⟨piece, hpiece, hmem⟩ := ih hrest
      exact ⟨piece, List.mem_cons_of_mem _ hpiece, hmem⟩
    · cases hpieces : piecesBetween mark rest with
      | nil =>
        rcases List.mem_cons.mp hc with rfl | hrest
        · exact ⟨[c], List.mem_cons_self, List.mem_cons_self⟩
        · obtain ⟨piece, hpiece, -⟩ := ih hrest
          rw [hpieces] at hpiece
          exact absurd hpiece List.not_mem_nil
      | cons first pieces =>
        rcases List.mem_cons.mp hc with rfl | hrest
        · exact ⟨c :: first, List.mem_cons_self, List.mem_cons_self⟩
        · obtain ⟨piece, hpiece, hmem⟩ := ih hrest
          rw [hpieces] at hpiece
          rcases List.mem_cons.mp hpiece with rfl | hpiece
          · exact ⟨a :: piece, List.mem_cons_self, List.mem_cons_of_mem a hmem⟩
          · exact ⟨piece, List.mem_cons_of_mem _ hpiece, hmem⟩

end Pieces

/-! ## Words -/

section Words

variable {c : Char} {l text word : List Char}

theorem mem_markLowerUpper (h : c ∈ l) : c ∈ markLowerUpper l := by
  fun_induction markLowerUpper l with
  | case1 a b rest _ ih =>
    rcases List.mem_cons.mp h with rfl | h
    · exact List.mem_cons_self
    · rcases List.mem_cons.mp h with rfl | h
      · simp
      · simp [ih h]
  | case2 a b rest _ ih =>
    rcases List.mem_cons.mp h with rfl | h
    · exact List.mem_cons_self
    · exact List.mem_cons_of_mem a (ih h)
  | case3 rest => exact h

theorem mem_markAcronym (h : c ∈ l) : c ∈ markAcronym l := by
  fun_induction markAcronym l with
  | case1 x y z rest _ ih =>
    rcases List.mem_cons.mp h with rfl | h
    · exact List.mem_cons_self
    · rcases List.mem_cons.mp h with rfl | h
      · simp
      · rcases List.mem_cons.mp h with rfl | h
        · simp
        · simp [ih h]
  | case2 x y z rest _ ih =>
    rcases List.mem_cons.mp h with rfl | h
    · exact List.mem_cons_self
    · exact List.mem_cons_of_mem x (ih h)
  | case3 rest => exact h

/-- Letters and digits are kept, whatever comes before them. -/
theorem mem_markOther (inRun : Bool) (h : c ∈ l) (hc : c.isAlphanum = true) : c ∈ markOther inRun l := by
  induction l generalizing inRun with
  | nil => exact absurd h List.not_mem_nil
  | cons a rest ih =>
    unfold markOther
    rcases List.mem_cons.mp h with rfl | h
    · rw [if_pos hc]
      exact List.mem_cons_self
    · split
      · exact List.mem_cons_of_mem a (ih false h)
      · split
        · exact ih true h
        · exact List.mem_cons_of_mem _ (ih true h)

/-- Nothing but letters and digits is kept. -/
theorem of_mem_markOther {inRun : Bool} (h : c ∈ markOther inRun l) : c.isAlphanum = true ∨ c = wordMark := by
  induction l generalizing inRun with
  | nil => exact absurd h List.not_mem_nil
  | cons a rest ih =>
    unfold markOther at h
    split at h
    · rename_i ha
      rcases List.mem_cons.mp h with rfl | h
      · exact Or.inl ha
      · exact ih h
    · split at h
      · exact ih h
      · rcases List.mem_cons.mp h with rfl | h
        · exact Or.inr rfl
        · exact ih h

/-- **Words are made of letters and digits.** -/
theorem isAlphanum_of_mem_wordsOf (h : word ∈ wordsOf text) (hc : c ∈ word) : c.isAlphanum = true := by
  obtain ⟨hmem, hne⟩ := mem_of_mem_piecesBetween (List.mem_filter.mp h).1 hc
  exact (of_mem_markOther hmem).resolve_right hne

/-- No word is empty. -/
theorem ne_nil_of_mem_wordsOf (h : word ∈ wordsOf text) : word ≠ [] := by
  have hfilter := (List.mem_filter.mp h).2
  rintro rfl
  exact absurd hfilter (by decide)

/-- **A text with a letter or a digit has words.** -/
theorem wordsOf_ne_nil (hc : c ∈ text) (halpha : c.isAlphanum = true) : wordsOf text ≠ [] := by
  have hne : c ≠ wordMark := by
    rintro rfl
    exact absurd halpha (by decide)
  have hmem := mem_markOther false (mem_markAcronym (mem_markLowerUpper hc)) halpha
  obtain ⟨piece, hpiece, hcpiece⟩ := exists_piece hmem hne
  have hword : piece ∈ wordsOf text := by
    refine List.mem_filter.mpr ⟨hpiece, ?_⟩
    cases piece with
    | nil => exact absurd hcpiece List.not_mem_nil
    | cons _ _ => rfl
  exact List.ne_nil_of_mem hword

end Words

/-! ## Writing words -/

theorem isAlphanum_toLower {c : Char} (h : c.isAlphanum = true) : c.toLower.isAlphanum = true := by
  by_cases hupper : c.isUpper = true
  · have halpha : c.isAlpha = true := by rw [Char.isAlpha, hupper, Bool.true_or]
    rw [Char.isAlphanum, Char.isAlpha_toLower_eq_isAlpha, halpha, Bool.true_or]
  · rw [Char.toLower_eq_of_not_isUpper hupper]
    exact h

theorem isAlphanum_toUpper {c : Char} (h : c.isAlphanum = true) : c.toUpper.isAlphanum = true := by
  by_cases hlower : c.isLower = true
  · have halpha : c.isAlpha = true := by rw [Char.isAlpha, hlower, Bool.or_true]
    rw [Char.isAlphanum, Char.isAlpha_toUpper_eq_isAlpha, halpha, Bool.true_or]
  · rw [Char.toUpper_eq_of_not_isLower hlower]
    exact h

namespace Convention

variable {k : Convention} {c : Char} {word text : List Char} {words : List (List Char)}

/-- Whether a character may stand in an identifier of a convention. -/
def Writes (k : Convention) (c : Char) : Prop := c.isAlphanum = true ∨ c ∈ k.separator ∨ c = '_'

/-- Words that are not empty and have letters and digits only, as those of a text are. -/
def Proper (words : List (List Char)) : Prop := ∀ word ∈ words, word ≠ [] ∧ ∀ c ∈ word, c.isAlphanum = true

theorem proper_wordsOf (text : List Char) : Proper (wordsOf text) := fun _ hword =>
  ⟨ne_nil_of_mem_wordsOf hword, fun _ hc => isAlphanum_of_mem_wordsOf hword hc⟩

/-! ### One word -/

theorem isAlphanum_of_mem_lowerWord (h : ∀ c ∈ word, c.isAlphanum = true) (hc : c ∈ lowerWord word) :
    c.isAlphanum = true := by
  obtain ⟨d, hd, rfl⟩ := List.mem_map.mp hc
  exact isAlphanum_toLower (h d hd)

theorem isAlphanum_of_mem_upperWord (h : ∀ c ∈ word, c.isAlphanum = true) (hc : c ∈ upperWord word) :
    c.isAlphanum = true := by
  obtain ⟨d, hd, rfl⟩ := List.mem_map.mp hc
  exact isAlphanum_toUpper (h d hd)

theorem isAlphanum_of_mem_capitalWord (h : ∀ c ∈ word, c.isAlphanum = true) (hc : c ∈ capitalWord word) :
    c.isAlphanum = true := by
  cases word with
  | nil => exact absurd hc List.not_mem_nil
  | cons a rest =>
    rcases List.mem_cons.mp hc with rfl | hc
    · exact isAlphanum_toUpper (h a List.mem_cons_self)
    · exact isAlphanum_of_mem_lowerWord (fun d hd => h d (List.mem_cons_of_mem a hd)) hc

/-- A word that follows another one may have an underscore before it. -/
theorem of_mem_followingWord (h : ∀ c ∈ word, c.isAlphanum = true) (hc : c ∈ followingWord word) :
    c.isAlphanum = true ∨ c = '_' := by
  cases word with
  | nil => exact absurd hc List.not_mem_nil
  | cons a rest =>
    rw [followingWord] at hc
    split at hc
    · rcases List.mem_cons.mp hc with rfl | hc
      · exact Or.inr rfl
      · rcases List.mem_cons.mp hc with rfl | hc
        · exact Or.inl (h c List.mem_cons_self)
        · exact Or.inl (isAlphanum_of_mem_lowerWord (fun d hd => h d (List.mem_cons_of_mem a hd)) hc)
    · exact Or.inl (isAlphanum_of_mem_capitalWord h hc)

theorem lowerWord_ne_nil (h : word ≠ []) : lowerWord word ≠ [] := mt List.map_eq_nil_iff.mp h

theorem upperWord_ne_nil (h : word ≠ []) : upperWord word ≠ [] := mt List.map_eq_nil_iff.mp h

theorem capitalWord_ne_nil (h : word ≠ []) : capitalWord word ≠ [] := by
  cases word with
  | nil => exact absurd rfl h
  | cons a rest => exact List.cons_ne_nil _ _

/-! ### Words between separators -/

theorem of_mem_intercalate {separator : List Char} (h : c ∈ separator.intercalate words) :
    c ∈ separator ∨ ∃ word ∈ words, c ∈ word := by
  induction words with
  | nil => exact absurd h List.not_mem_nil
  | cons word rest ih =>
    cases rest with
    | nil =>
      rw [List.intercalate_singleton] at h
      exact Or.inr ⟨word, List.mem_cons_self, h⟩
    | cons next rest =>
      rw [List.intercalate_cons_cons, List.mem_append, List.mem_append] at h
      rcases h with (h | h) | h
      · exact Or.inr ⟨word, List.mem_cons_self, h⟩
      · exact Or.inl h
      · refine (ih h).imp_right fun ⟨piece, hpiece, hc⟩ => ⟨piece, List.mem_cons_of_mem _ hpiece, hc⟩

theorem intercalate_ne_nil {separator : List Char} (hne : words ≠ []) (h : ∀ word ∈ words, word ≠ []) :
    separator.intercalate words ≠ [] := by
  obtain ⟨word, rest, rfl⟩ := List.exists_cons_of_ne_nil hne
  have hword := h word List.mem_cons_self
  cases rest with
  | nil =>
    rw [List.intercalate_singleton]
    exact hword
  | cons next rest =>
    rw [List.intercalate_cons_cons, List.append_assoc]
    exact List.append_ne_nil_of_left_ne_nil hword _

/-- Words that are written one by one, with the separator between them. -/
theorem writes_intercalate {write : List Char → List Char} (h : Proper words)
    (hwrite : ∀ word, (∀ c ∈ word, c.isAlphanum = true) → ∀ c ∈ write word, c.isAlphanum = true)
    (hc : c ∈ k.separator.intercalate (words.map write)) : k.Writes c := by
  rcases of_mem_intercalate hc with hsep | ⟨piece, hpiece, hc⟩
  · exact Or.inr (Or.inl hsep)
  · obtain ⟨word, hword, rfl⟩ := List.mem_map.mp hpiece
    exact Or.inl (hwrite word (h word hword).2 c hc)

theorem writes_runTogether {first : List Char → List Char} (h : Proper words)
    (hfirst : ∀ word, (∀ c ∈ word, c.isAlphanum = true) → ∀ c ∈ first word, c.isAlphanum = true)
    (hc : c ∈ runTogether first words) : k.Writes c := by
  cases words with
  | nil => exact absurd hc List.not_mem_nil
  | cons word rest =>
    rcases List.mem_append.mp hc with hc | hc
    · exact Or.inl (hfirst word (h word List.mem_cons_self).2 c hc)
    · obtain ⟨piece, hpiece, hc⟩ := List.mem_flatten.mp hc
      obtain ⟨next, hnext, rfl⟩ := List.mem_map.mp hpiece
      exact (of_mem_followingWord (h next (List.mem_cons_of_mem _ hnext)).2 hc).imp_right Or.inr

/-- **An identifier has no characters but letters, digits, the separator and underscores.** -/
theorem writes_of_mem_join (h : Proper words) (hc : c ∈ k.join words) : k.Writes c := by
  cases k with
  | camel => exact writes_runTogether h (fun _ hw _ hc => isAlphanum_of_mem_lowerWord hw hc) hc
  | pascal => exact writes_runTogether h (fun _ hw _ hc => isAlphanum_of_mem_capitalWord hw hc) hc
  | upperSnake => exact writes_intercalate h (fun _ hw _ hc => isAlphanum_of_mem_upperWord hw hc) hc
  | capital => exact writes_intercalate h (fun _ hw _ hc => isAlphanum_of_mem_capitalWord hw hc) hc
  | _ => exact writes_intercalate h (fun _ hw _ hc => isAlphanum_of_mem_lowerWord hw hc) hc

/-- **Words are written as something.** -/
theorem join_ne_nil (h : Proper words) (hne : words ≠ []) : k.join words ≠ [] := by
  have hpieces : ∀ write : List Char → List Char, (∀ word, word ≠ [] → write word ≠ []) →
      k.separator.intercalate (words.map write) ≠ [] := by
    intro write hwrite
    refine intercalate_ne_nil (mt List.map_eq_nil_iff.mp hne) fun piece hpiece => ?_
    obtain ⟨word, hword, rfl⟩ := List.mem_map.mp hpiece
    exact hwrite word (h word hword).1
  have htogether : ∀ first : List Char → List Char, (∀ word, word ≠ [] → first word ≠ []) →
      runTogether first words ≠ [] := by
    intro first hfirst
    obtain ⟨word, rest, rfl⟩ := List.exists_cons_of_ne_nil hne
    exact List.append_ne_nil_of_left_ne_nil (hfirst word (h word List.mem_cons_self).1) _
  cases k with
  | camel => exact htogether _ fun _ => lowerWord_ne_nil
  | pascal => exact htogether _ fun _ => capitalWord_ne_nil
  | upperSnake => exact hpieces _ fun _ => upperWord_ne_nil
  | capital => exact hpieces _ fun _ => capitalWord_ne_nil
  | _ => exact hpieces _ fun _ => lowerWord_ne_nil

end Convention

end AnyCase
