import AnyCase.Pattern
import AnyCase.Proofs.Regex
import AnyCase.Proofs.Words

/-!
# `Proofs.Matching` — what the pattern of a query matches

A pattern is put together from texts, and nothing in it is escaped. It is read as it is meant because an
identifier has only characters that stand for themselves, and because the separator of a convention stands for
itself in the class that it ends (`Alternative.readItems?_render`). No alternative has a bar in it, so the
lookarounds of one do not reach into the next, and the pattern is read as its alternatives (`read?_compile`).

So the pattern matches a slice of a text exactly if the slice is the query written in one of the selected
conventions, and stands where the edges asked for are edges of that convention (`Pattern.matches_iff`).
-/

namespace AnyCase

namespace Regex

variable {c : Char} {l rest text body : List Char} {item : Item} {items : List Item} {i j : Nat}

/-! ## Reading in steps -/

/-- The items of a text are its first item and those of the rest. -/
theorem readItems?_of_readItem? (h : readItem? l = some (item, rest)) :
    readItems? l = (readItems? rest).map (item :: ·) := by
  cases l with
  | nil => exact absurd h (by simp [readItem?])
  | cons c l =>
    rw [readItems?]
    split
    · rename_i hnone
      exact absurd (h.symm.trans hnone) (by simp)
    · rename_i item' rest' hsome
      obtain ⟨rfl, rfl⟩ := Prod.mk.inj (Option.some.inj (h.symm.trans hsome))
      rfl

theorem readItem?_plain (h : isPlain c = true) (rest : List Char) :
    readItem? (c :: rest) = some (.char c, rest) := by
  have hparen : c ≠ '(' := by
    rintro rfl
    exact absurd h (by decide)
  have hbracket : c ≠ '[' := by
    rintro rfl
    exact absurd h (by decide)
  unfold readItem?
  split
  · rename_i heq
    exact absurd heq (List.cons_ne_nil _ _)
  · rename_i heq
    exact absurd (List.cons.inj heq).1 hparen
  · rename_i heq
    exact absurd (List.cons.inj heq).1 hparen
  · rename_i heq
    exact absurd (List.cons.inj heq).1 hbracket
  · rename_i heq
    obtain ⟨rfl, rfl⟩ := List.cons.inj heq
    exact if_pos h

/-- Plain characters are read as themselves. -/
theorem readItems?_plain (h : ∀ c ∈ body, isPlain c = true) (rest : List Char) :
    readItems? (body ++ rest) = (readItems? rest).map (body.map Item.char ++ ·) := by
  induction body with
  | nil =>
    show readItems? rest = (readItems? rest).map fun items => items
    rw [Option.map_id']
  | cons c body ih =>
    have hc := readItem?_plain (h c List.mem_cons_self) (body ++ rest)
    rw [List.cons_append, readItems?_of_readItem? hc, ih fun d hd => h d (List.mem_cons_of_mem c hd),
      Option.map_map]
    rfl

/-- Where all texts of a list are read, so is the list. -/
theorem mapM_readItems? {texts : List (List Char)} (h : ∀ t ∈ texts, ∃ items, readItems? t = some items) :
    ∃ branches, texts.mapM readItems? = some branches ∧
      ∀ branch, branch ∈ branches ↔ ∃ t ∈ texts, readItems? t = some branch := by
  induction texts with
  | nil => exact ⟨[], rfl, by simp⟩
  | cons t rest ih =>
    obtain ⟨items, hitems⟩ := h t List.mem_cons_self
    obtain ⟨branches, hbranches, hmem⟩ := ih fun t' ht' => h t' (List.mem_cons_of_mem t ht')
    refine ⟨items :: branches, by simp [List.mapM_cons, hitems, hbranches], fun branch => ?_⟩
    rw [List.mem_cons, hmem, List.exists_mem_cons_iff, hitems, Option.some.injEq]
    exact or_congr_left eq_comm

/-! ## Running -/

/-- Characters match if the text goes on with them. -/
theorem run_chars (body : List Char) (items : List Item) (text : List Char) (i j : Nat) :
    Run text (body.map Item.char ++ items) i j ↔
      body <+: text.drop i ∧ Run text items (i + body.length) j := by
  induction body generalizing i with
  | nil => simp
  | cons c body ih =>
    rw [List.map_cons, List.cons_append, Run, ih, List.length_cons, ← and_assoc]
    have hplace : i + (body.length + 1) = i + 1 + body.length := by omega
    rw [hplace]
    refine and_congr_left fun _ => ?_
    by_cases hi : i < text.length
    · rw [List.drop_eq_getElem_cons hi, List.cons_prefix_cons, List.getElem?_eq_getElem hi, Option.some.injEq]
      exact and_congr_left fun _ => eq_comm
    · have hdrop : text.drop i = [] := List.drop_eq_nil_of_le (Nat.le_of_not_lt hi)
      have hnone : text[i]? = none := List.getElem?_eq_none (Nat.le_of_not_lt hi)
      simp [hdrop, hnone]

/-- A slice is what the text goes on with, up to its end. -/
theorem slice?_eq_some_iff : slice? text i j = some body ↔
    body <+: text.drop i ∧ i + body.length = j ∧ j ≤ text.length := by
  unfold slice?
  constructor
  · intro h
    split at h
    · rename_i hle
      obtain rfl := Option.some.inj h
      have hlength : ((text.drop i).take (j - i)).length = j - i := by
        rw [List.length_take, List.length_drop]
        omega
      exact ⟨List.take_prefix _ _, by omega, hle.2⟩
    · exact absurd h (by simp)
  · rintro ⟨hstarts, rfl, hle⟩
    rw [if_pos ⟨Nat.le_add_right i _, hle⟩, Nat.add_sub_cancel_left]
    exact congrArg some (List.prefix_iff_eq_take.mp hstarts).symm

end Regex

open Regex

variable {query : String} {selected : List Convention} {edges : Edges} {k : Convention} {a : Alternative}

/-! ## One alternative -/

namespace Alternative

/-- The class of the characters that continue a word written in a convention. -/
def wordClass (separator : List Char) : CharClass :=
  [('a', 'z'), ('A', 'Z'), ('0', '9')] ++ separator.map fun c => (c, c)

/-- Whether a character continues a word written in a convention. -/
def Continues (k : Convention) (c : Char) : Prop := c.isAlphanum = true ∨ c ∈ k.separator

theorem has_wordClass (k : Convention) (c : Char) :
    (wordClass k.separator).has c = true ↔ Continues k c := by
  have hself : ∀ d : Char, (d ≤ c && c ≤ d) = decide (c = d) := by
    intro d
    rw [Bool.eq_iff_iff, Bool.and_eq_true, decide_eq_true_eq, decide_eq_true_eq, decide_eq_true_eq]
    exact ⟨fun h => Char.le_antisymm h.2 h.1, fun h => h ▸ ⟨Char.le_refl _, Char.le_refl _⟩⟩
  have hranges : c.isAlphanum = (('a' ≤ c && c ≤ 'z') || (('A' ≤ c && c ≤ 'Z') || ('0' ≤ c && c ≤ '9'))) := by
    rw [← Bool.or_assoc, Bool.or_comm ('a' ≤ c && c ≤ 'z') _]
    simp [Char.isAlphanum, Char.isAlpha, Char.isUpper, Char.isLower, Char.isDigit, Char.le_def]
  have hseparator : k.separator.any (fun d => d ≤ c && c ≤ d) = true ↔ c ∈ k.separator := by
    rw [List.any_eq_true]
    constructor
    · rintro ⟨d, hd, heq⟩
      rw [hself, decide_eq_true_eq] at heq
      exact heq ▸ hd
    · intro hc
      exact ⟨c, hc, by rw [hself, decide_eq_true_eq]⟩
  unfold Continues
  rw [hranges, ← hseparator, CharClass.has, wordClass, List.any_append, List.any_map, Bool.or_eq_true]
  simp only [List.any_cons, List.any_nil, Bool.or_false]
  rfl

/-- The items of an alternative. -/
def items (edges : Edges) (a : Alternative) : List Item :=
  (if edges.atStart then [.notPrecededBy (wordClass a.separator)] else [])
    ++ a.body.map Item.char
    ++ (if edges.atEnd then [.notFollowedBy (wordClass a.separator)] else [])

theorem readItem?_lookbehind (k : Convention) (rest : List Char) :
    readItem? ("(?<!".toList ++ wordChars k.separator ++ [')'] ++ rest)
      = some (.notPrecededBy (wordClass k.separator), rest) := by
  cases k <;> rfl

theorem readItem?_lookahead (k : Convention) (rest : List Char) :
    readItem? ("(?!".toList ++ wordChars k.separator ++ [')'] ++ rest)
      = some (.notFollowedBy (wordClass k.separator), rest) := by
  cases k <;> rfl

/-- **An alternative is read as it is meant**, if its body is plain. -/
theorem readItems?_render (hbody : ∀ c ∈ a.body, isPlain c = true) (hseparator : a.separator = k.separator)
    (edges : Edges) : readItems? (a.render edges) = some (a.items edges) := by
  have hend : readItems? (if edges.atEnd then "(?!".toList ++ wordChars a.separator ++ [')'] else [])
      = some (if edges.atEnd then [.notFollowedBy (wordClass a.separator)] else []) := by
    cases edges.atEnd with
    | false => simp [readItems?]
    | true =>
      have hitem := readItem?_lookahead k []
      rw [← hseparator, List.append_nil] at hitem
      rw [if_pos rfl, if_pos rfl, readItems?_of_readItem? hitem, readItems?]
      rfl
  have hrest := readItems?_plain hbody (if edges.atEnd then "(?!".toList ++ wordChars a.separator ++ [')'] else [])
  rw [hend, Option.map_some] at hrest
  unfold render items
  rw [List.append_assoc]
  cases edges.atStart with
  | false => exact hrest
  | true =>
    have hitem := readItem?_lookbehind k
      (a.body ++ if edges.atEnd then "(?!".toList ++ wordChars a.separator ++ [')'] else [])
    rw [← hseparator] at hitem
    rw [if_pos rfl, if_pos rfl, readItems?_of_readItem? hitem, hrest]
    rfl

/-- The characters of an alternative stand for themselves, but for its lookarounds. -/
theorem bar_not_mem_render (hbody : ∀ c ∈ a.body, isPlain c = true) (hseparator : a.separator = k.separator)
    (edges : Edges) : '|' ∉ a.render edges := by
  have haround : '|' ∉ "(?<!".toList ++ wordChars k.separator ++ [')'] ∧
      '|' ∉ "(?!".toList ++ wordChars k.separator ++ [')'] := by
    cases k <;> decide
  unfold render
  rw [hseparator]
  intro hmem
  rcases List.mem_append.mp hmem with hmem | hend
  · rcases List.mem_append.mp hmem with hstart | hmid
    · split at hstart
      · exact haround.1 hstart
      · exact absurd hstart List.not_mem_nil
    · exact absurd (hbody _ hmid) (by decide)
  · split at hend
    · exact haround.2 hend
    · exact absurd hend List.not_mem_nil

/-- What an alternative matches. -/
theorem run_items (hseparator : a.separator = k.separator) (edges : Edges) (text : List Char) (i j : Nat) :
    Run text (a.items edges) i j ↔ slice? text i j = some a.body ∧
      (edges.atStart = true → ∀ c, charBefore? text i = some c → ¬Continues k c) ∧
        (edges.atEnd = true → ∀ c, text[j]? = some c → ¬Continues k c) := by
  have hnone : ∀ o : Option Char,
      o.any (wordClass a.separator).has = false ↔ ∀ c, o = some c → ¬Continues k c := by
    intro o
    rw [hseparator]
    cases o with
    | none => simp
    | some d =>
      have hd := has_wordClass k d
      rw [Option.any_some, ← Bool.not_eq_true, hd]
      exact ⟨fun h c heq => Option.some.inj heq ▸ h, fun h => h d rfl⟩
  have hstart : ∀ rest : List Item,
      Run text ((if edges.atStart then [.notPrecededBy (wordClass a.separator)] else []) ++ rest) i j ↔
        (edges.atStart = true → ∀ c, charBefore? text i = some c → ¬Continues k c) ∧ Run text rest i j := by
    intro rest
    rw [← hnone]
    cases edges.atStart with
    | false => simp
    | true => simp [Run]
  have hend : ∀ n, Run text (if edges.atEnd then [.notFollowedBy (wordClass a.separator)] else []) n j ↔
      (n = j ∧ j ≤ text.length) ∧ (edges.atEnd = true → ∀ c, text[j]? = some c → ¬Continues k c) := by
    intro n
    rw [← hnone]
    cases edges.atEnd with
    | false => simp [Run]
    | true =>
      simp only [if_true, Run, forall_const]
      constructor
      · rintro ⟨hany, rfl, hle⟩
        exact ⟨⟨rfl, hle⟩, hany⟩
      · rintro ⟨⟨rfl, hle⟩, hany⟩
        exact ⟨hany, rfl, hle⟩
  unfold items
  rw [List.append_assoc, hstart, run_chars, hend, slice?_eq_some_iff]
  tauto

/-! ## The whole pattern -/

theorem isPlain_of_mem_separator : ∀ c ∈ k.separator, isPlain c = true := by
  rw [← List.all_eq_true]
  cases k <;> rfl

/-- A query with words is written as its words are. -/
theorem body_ofQuery (hquery : ∃ c ∈ query.toList, c.isAlphanum = true) (k : Convention) :
    (ofQuery query k).body = (k.convert query).toList := by
  obtain ⟨c, hc, halpha⟩ := hquery
  have hwords := Convention.join_ne_nil (k := k) (Convention.proper_wordsOf query.toList) (wordsOf_ne_nil hc halpha)
  show (if (k.join (wordsOf query.toList)).isEmpty then _ else _) = _
  rw [if_neg (by simpa using hwords), Convention.convert, String.toList_ofList]

theorem isPlain_of_mem_body (hquery : ∃ c ∈ query.toList, c.isAlphanum = true) (k : Convention) {c : Char}
    (hc : c ∈ (ofQuery query k).body) : isPlain c = true := by
  rw [body_ofQuery hquery, Convention.convert, String.toList_ofList] at hc
  rcases Convention.writes_of_mem_join (Convention.proper_wordsOf query.toList) hc with halpha | hsep | rfl
  · rw [isPlain, halpha, Bool.true_or]
  · exact isPlain_of_mem_separator c hsep
  · decide

end Alternative

open AnyCase.Alternative

namespace Pattern

theorem mem_alternatives {l : List Char} :
    l ∈ alternatives query selected edges ↔ ∃ k ∈ selected, (ofQuery query k).render edges = l := by
  rw [alternatives, List.mem_eraseDups, List.mem_map]

/-- **The bars of a pattern are those between its alternatives**, none of which has a bar in it. -/
theorem splitOn_compile (hquery : ∃ c ∈ query.toList, c.isAlphanum = true) (hselected : selected ≠ [])
    (edges : Edges) :
    (compile query selected edges).pattern.toList.splitOn '|' = alternatives query selected edges := by
  have hempty : selected.isEmpty = false := by simpa using hselected
  rw [compile, hempty, if_neg Bool.false_ne_true, String.toList_ofList]
  apply List.splitOn_intercalate
  · intro l hl
    obtain ⟨k, -, rfl⟩ := mem_alternatives.mp hl
    exact bar_not_mem_render (fun _ hc => isPlain_of_mem_body hquery k hc) rfl edges
  · obtain ⟨k, hk⟩ := List.exists_mem_of_ne_nil _ hselected
    exact List.ne_nil_of_mem (mem_alternatives.mpr ⟨k, hk, rfl⟩)

/-- **A pattern is read as its alternatives.** -/
theorem read?_compile (hquery : ∃ c ∈ query.toList, c.isAlphanum = true) (hselected : selected ≠ [])
    (edges : Edges) : ∃ r, read? (compile query selected edges).pattern = some r ∧
      ∀ branch, branch ∈ r ↔ ∃ k ∈ selected, branch = (ofQuery query k).items edges := by
  have hread : ∀ k, readItems? ((ofQuery query k).render edges) = some ((ofQuery query k).items edges) :=
    fun k => readItems?_render (fun _ hc => isPlain_of_mem_body hquery k hc) rfl edges
  have hall : ∀ l ∈ alternatives query selected edges, ∃ items, readItems? l = some items := by
    intro l hl
    obtain ⟨k, -, rfl⟩ := mem_alternatives.mp hl
    exact ⟨_, hread k⟩
  obtain ⟨branches, hbranches, hbranch⟩ := mapM_readItems? hall
  refine ⟨branches, ?_, fun branch => ?_⟩
  · rw [read?, splitOn_compile hquery hselected, hbranches]
  · rw [hbranch]
    constructor
    · rintro ⟨l, hl, heq⟩
      obtain ⟨k, hk, rfl⟩ := mem_alternatives.mp hl
      exact ⟨k, hk, Option.some.inj (heq.symm.trans (hread k))⟩
    · rintro ⟨k, hk, rfl⟩
      exact ⟨_, mem_alternatives.mpr ⟨k, hk, rfl⟩, hread k⟩

/-- **What a pattern matches.** The pattern of a query with a letter or a digit can be read, and it matches
exactly the slices of a text that are the query in one of the selected conventions, with no character before
them, if an edge is asked for there, and none after them, that continues a word of that convention. -/
theorem matches_iff (hquery : ∃ c ∈ query.toList, c.isAlphanum = true) (hselected : selected ≠ [])
    (edges : Edges) : ∃ r, read? (compile query selected edges).pattern = some r ∧
      ∀ (text : List Char) (i j : Nat), Matches r text i j ↔
        ∃ k ∈ selected, slice? text i j = some (k.convert query).toList ∧
          (edges.atStart = true → ∀ c, charBefore? text i = some c → ¬Continues k c) ∧
            (edges.atEnd = true → ∀ c, text[j]? = some c → ¬Continues k c) := by
  obtain ⟨r, hr, hbranch⟩ := read?_compile hquery hselected edges
  refine ⟨r, hr, fun text i j => ?_⟩
  have hrun : ∀ k : Convention, Run text ((ofQuery query k).items edges) i j ↔
      slice? text i j = some (k.convert query).toList ∧
        (edges.atStart = true → ∀ c, charBefore? text i = some c → ¬Continues k c) ∧
          (edges.atEnd = true → ∀ c, text[j]? = some c → ¬Continues k c) := by
    intro k
    rw [← body_ofQuery hquery]
    exact run_items rfl edges text i j
  constructor
  · rintro ⟨branch, hmem, hmatch⟩
    obtain ⟨k, hk, rfl⟩ := (hbranch branch).mp hmem
    exact ⟨k, hk, (hrun k).mp hmatch⟩
  · rintro ⟨k, hk, hmatch⟩
    exact ⟨_, (hbranch _).mpr ⟨k, hk, rfl⟩, (hrun k).mpr hmatch⟩

/-- Before an underscore a word in kebab case is at its end, and one in snake case is not. -/
theorem matches_before_underscore :
    ∃ r, read? (compile "aB" [.kebab, .snake] ⟨false, true⟩).pattern = some r ∧
      Matches r ['a', '-', 'b', '_', 'c'] 0 3 ∧ ¬Matches r ['a', '_', 'b', '_', 'c'] 0 3 := by
  have hquery : ∃ c ∈ "aB".toList, c.isAlphanum = true := ⟨'a', by decide, by decide⟩
  obtain ⟨r, hr, hmatches⟩ := matches_iff hquery (List.cons_ne_nil Convention.kebab [.snake]) ⟨false, true⟩
  refine ⟨r, hr, (hmatches _ _ _).mpr ⟨.kebab, by decide, by decide, ?_, ?_⟩, fun h => ?_⟩
  · intro hstart
    exact absurd hstart (by decide)
  · rintro - c hc
    obtain rfl : '_' = c := Option.some.inj hc
    rintro (halpha | hsep)
    · exact absurd halpha (by decide)
    · exact absurd hsep (by decide)
  · obtain ⟨k, hk, hslice, -, hend⟩ := (hmatches _ _ _).mp h
    have hsnake : k = .snake := by
      rcases List.mem_cons.mp hk with rfl | hk
      · exact absurd hslice (by decide)
      · exact List.mem_singleton.mp hk
    subst hsnake
    exact hend rfl '_' rfl (Or.inr (by decide))

end Pattern

end AnyCase
