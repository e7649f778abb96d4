import AnyCase.Proofs.Matching
import AnyCase.Proofs.Occurrences

/-!
# `Proofs.Alternatives` — the alternatives of a pattern

The bars of a pattern separate its alternatives, so cutting it at the bars gives these back. They are the query in each
of the selected conventions, between the lookarounds asked for (`Pattern.variant`). Conventions that are selected twice
lead to the same text, and so may different ones; of each text only the first stays (`FirstOccurrences`). Lookarounds
tell texts apart that are the same otherwise.

Between its lookarounds an alternative is an identifier (`Joined`): letters and digits, with single joining characters
between them. That is shown from the words of the query, which have no other characters, along the ways in which words
are joined.

## Contents

* `Joined`, `joined_join` — how an identifier is made up;
* `split_compile` — the main statement.
-/

namespace AnyCase

/-! ## Identifiers -/

/-- A text of letters and digits that are joined: the joining character stands neither first nor last, and never
twice in a row. -/
structure Joined (joiner : Char) (text : List Char) : Prop where
  ne_nil : text ≠ []
  chars : ∀ c ∈ text, c.isAlphanum = true ∨ c = joiner
  first : joiner ∉ text.head?
  last : joiner ∉ text.getLast?
  single : text.IsChain fun c d => ¬(c = joiner ∧ d = joiner)

namespace Joined

variable {joiner : Char} {text text' : List Char} {texts : List (List Char)}

/-- Letters and digits alone are joined by anything else. -/
theorem of_isAlphanum (hjoiner : joiner.isAlphanum = false) (hne : text ≠ [])
    (h : ∀ c ∈ text, c.isAlphanum = true) : Joined joiner text := by
  have hne' : ∀ c ∈ text, c ≠ joiner := fun c hc heq => by
    rw [← heq, h c hc] at hjoiner
    exact Bool.noConfusion hjoiner
  refine ⟨hne, fun c hc => Or.inl (h c hc), fun hmem => hne' joiner (List.mem_of_mem_head? hmem) rfl,
    fun hmem => hne' joiner (List.mem_of_mem_getLast? hmem) rfl, ?_⟩
  have hpairs : text.Pairwise fun c d => ¬(c = joiner ∧ d = joiner) :=
    List.pairwise_of_forall_mem_list fun c hc _ _ hboth => hne' c hc hboth.1
  exact hpairs.isChain

theorem append (h : Joined joiner text) (h' : Joined joiner text') : Joined joiner (text ++ text') where
  ne_nil := List.append_ne_nil_of_left_ne_nil h.ne_nil text'
  chars c hc := (List.mem_append.mp hc).elim (h.chars c) (h'.chars c)
  first := by
    rw [List.head?_append_of_ne_nil _ h.ne_nil]
    exact h.first
  last := by
    rw [List.getLast?_append_of_ne_nil _ h'.ne_nil]
    exact h'.last
  single := h.single.append h'.single fun c hc _ _ hboth => h.last (hboth.1 ▸ hc)

/-- Two texts are joined by the joining character. -/
theorem append_cons (h : Joined joiner text) (h' : Joined joiner text') :
    Joined joiner (text ++ joiner :: text') where
  ne_nil := List.append_ne_nil_of_left_ne_nil h.ne_nil _
  chars c hc := by
    rcases List.mem_append.mp hc with hc | hc
    · exact h.chars c hc
    · exact (List.mem_cons.mp hc).elim Or.inr (h'.chars c)
  first := by
    rw [List.head?_append_of_ne_nil _ h.ne_nil]
    exact h.first
  last := by
    rw [List.append_cons, List.getLast?_append_of_ne_nil _ h'.ne_nil]
    exact h'.last
  single := by
    have hrest : (joiner :: text').IsChain fun c d => ¬(c = joiner ∧ d = joiner) :=
      h'.single.cons fun d hd hboth => h'.first (hboth.2 ▸ hd)
    exact h.single.append hrest fun c hc _ _ hboth => h.last (hboth.1 ▸ hc)

/-- So are any texts. -/
theorem intercalate (hne : texts ≠ []) (h : ∀ t ∈ texts, Joined joiner t) :
    Joined joiner ([joiner].intercalate texts) := by
  induction texts with
  | nil => exact absurd rfl hne
  | cons t rest ih =>
    obtain ⟨ht, hrest⟩ := List.forall_mem_cons.mp h
    cases rest with
    | nil =>
      rw [List.intercalate_singleton]
      exact ht
    | cons t' rest =>
      rw [List.intercalate_cons_cons, List.append_assoc]
      exact ht.append_cons (ih (List.cons_ne_nil t' rest) hrest)

end Joined

namespace Convention

variable {k : Convention} {words : List (List Char)} {text word : List Char}

/-- The character that joins words: the separator, or the underscore where there is none. -/
def joiner (k : Convention) : Char := k.separator.head?.getD '_'

theorem isAlphanum_joiner (k : Convention) : k.joiner.isAlphanum = false := by
  cases k <;> rfl

/-- Words that are written one by one are joined by the separator. -/
theorem joined_intercalate {write : List Char → List Char} (hseparator : k.separator = [k.joiner]) (h : Proper words)
    (hne : words ≠ []) (hwrite : ∀ word, word ≠ [] → write word ≠ [])
    (halnum : ∀ word, (∀ c ∈ word, c.isAlphanum = true) → ∀ c ∈ write word, c.isAlphanum = true) :
    Joined k.joiner (k.separator.intercalate (words.map write)) := by
  rw [hseparator]
  refine Joined.intercalate (mt List.map_eq_nil_iff.mp hne) fun t ht => ?_
  obtain ⟨word, hword, rfl⟩ := List.mem_map.mp ht
  exact .of_isAlphanum k.isAlphanum_joiner (hwrite word (h word hword).1) (halnum word (h word hword).2)

/-- A word that follows a text is joined to it. -/
theorem joined_append_followingWord (htext : Joined '_' text) (hne : word ≠ [])
    (halnum : ∀ c ∈ word, c.isAlphanum = true) : Joined '_' (text ++ followingWord word) := by
  have hcapital : Joined '_' (capitalWord word) :=
    .of_isAlphanum rfl (capitalWord_ne_nil hne) fun _ hc => isAlphanum_of_mem_capitalWord halnum hc
  cases word with
  | nil => exact absurd rfl hne
  | cons c rest =>
    obtain ⟨hc, hrest⟩ := List.forall_mem_cons.mp halnum
    rw [followingWord]
    split
    · have hkept : Joined '_' (c :: lowerWord rest) :=
        .of_isAlphanum rfl (List.cons_ne_nil _ _) (List.forall_mem_cons.mpr ⟨hc, fun _ hd =>
          isAlphanum_of_mem_lowerWord hrest hd⟩)
      exact htext.append_cons hkept
    · exact htext.append hcapital

theorem joined_append_following (htext : Joined '_' text) (h : Proper words) :
    Joined '_' (text ++ (words.map followingWord).flatten) := by
  induction words generalizing text with
  | nil =>
    rw [List.map_nil, List.flatten_nil, List.append_nil]
    exact htext
  | cons word rest ih =>
    obtain ⟨hword, hrest⟩ := List.forall_mem_cons.mp h
    rw [List.map_cons, List.flatten_cons, ← List.append_assoc]
    exact ih (joined_append_followingWord htext hword.1 hword.2) hrest

/-- So are words that are run together. -/
theorem joined_runTogether {first : List Char → List Char} (h : Proper words) (hne : words ≠ [])
    (hfirst : ∀ word, word ≠ [] → first word ≠ [])
    (halnum : ∀ word, (∀ c ∈ word, c.isAlphanum = true) → ∀ c ∈ first word, c.isAlphanum = true) :
    Joined '_' (runTogether first words) := by
  obtain ⟨word, rest, rfl⟩ := List.exists_cons_of_ne_nil hne
  obtain ⟨hword, hrest⟩ := List.forall_mem_cons.mp h
  exact joined_append_following (.of_isAlphanum rfl (hfirst word hword.1) (halnum word hword.2)) hrest

/-- **An identifier is made of letters and digits, and single joining characters between them.** -/
theorem joined_join (h : Proper words) (hne : words ≠ []) : Joined k.joiner (k.join words) := by
  cases k with
  | camel =>
    exact joined_runTogether h hne (fun _ => lowerWord_ne_nil) fun _ hw _ hc => isAlphanum_of_mem_lowerWord hw hc
  | pascal =>
    exact joined_runTogether h hne (fun _ => capitalWord_ne_nil) fun _ hw _ hc => isAlphanum_of_mem_capitalWord hw hc
  | upperSnake =>
    exact joined_intercalate rfl h hne (fun _ => upperWord_ne_nil) fun _ hw _ hc => isAlphanum_of_mem_upperWord hw hc
  | capital =>
    exact joined_intercalate rfl h hne (fun _ => capitalWord_ne_nil) fun _ hw _ hc =>
      isAlphanum_of_mem_capitalWord hw hc
  | kebab | snake | path =>
    exact joined_intercalate rfl h hne (fun _ => lowerWord_ne_nil) fun _ hw _ hc => isAlphanum_of_mem_lowerWord hw hc

end Convention

/-! ## The alternatives -/

open AnyCase.Alternative

namespace Pattern

variable {query : String} {selected selected' : List Convention} {edges : Edges}

/-- A lookaround for the characters that continue a word of a convention. -/
def lookaround (opening : String) (k : Convention) : List Char :=
  opening.toList ++ ("[a-zA-Z0-9".toList ++ (k.separator ++ "])".toList))

/-- A query in a convention, between the lookarounds asked for. -/
def variant (query : String) (edges : Edges) (k : Convention) : List Char :=
  (if edges.atStart then lookaround "(?<!" k else []) ++ (k.convert query).toList
    ++ (if edges.atEnd then lookaround "(?!" k else [])

theorem append_wordChars (opening : String) (k : Convention) :
    opening.toList ++ wordChars k.separator ++ [')'] = lookaround opening k := by
  have hclose : "])".toList = [']'] ++ [')'] := rfl
  unfold wordChars lookaround
  -- the other literals are not to be looked into
  generalize opening.toList = before, "[a-zA-Z0-9".toList = ranges
  rw [hclose, List.append_assoc, List.append_assoc, List.append_assoc]

theorem render_ofQuery (hquery : ∃ c ∈ query.toList, c.isAlphanum = true) (edges : Edges) (k : Convention) :
    (ofQuery query k).render edges = variant query edges k := by
  have hseparator : (ofQuery query k).separator = k.separator := rfl
  rw [render, body_ofQuery hquery, hseparator, append_wordChars, append_wordChars]
  rfl

theorem joined_convert (hquery : ∃ c ∈ query.toList, c.isAlphanum = true) (k : Convention) :
    Joined k.joiner (k.convert query).toList := by
  obtain ⟨c, hc, halnum⟩ := hquery
  rw [Convention.convert, String.toList_ofList]
  exact Convention.joined_join (Convention.proper_wordsOf _) (wordsOf_ne_nil hc halnum)

/-- Selections with the same alternatives lead to the same pattern. -/
theorem compile_congr (hne : selected ≠ []) (hne' : selected' ≠ [])
    (h : alternatives query selected' edges = alternatives query selected edges) :
    compile query selected' edges = compile query selected edges := by
  have hempty : selected.isEmpty = false := by simpa using hne
  have hempty' : selected'.isEmpty = false := by simpa using hne'
  rw [compile, compile, hempty, hempty', h]

/-- **The alternatives of a pattern.** Cut at its bars, the pattern of a query with a letter or a digit is the variants
of the query in the selected conventions, each once, in the order in which they come first. Between its lookarounds a
variant is an identifier. A convention that is selected once more makes no difference. -/
theorem split_compile (hquery : ∃ c ∈ query.toList, c.isAlphanum = true) (hselected : selected ≠ []) (edges : Edges) :
    FirstOccurrences (selected.map (variant query edges))
      ((compile query selected edges).pattern.toList.splitOn '|') ∧
    (∀ k ∈ selected, Joined k.joiner (k.convert query).toList) ∧
    (∀ l₁ k l₂, selected = l₁ ++ k :: l₂ → k ∈ l₁ → compile query (l₁ ++ l₂) edges = compile query selected edges) ∧
    compile query selected.eraseDups edges = compile query selected edges := by
  refine ⟨?_, fun k _ => joined_convert hquery k, ?_, ?_⟩
  · rw [splitOn_compile hquery hselected, alternatives]
    simp only [render_ofQuery hquery]
    exact firstOccurrences_eraseDups _
  · rintro l₁ k l₂ rfl hk
    refine compile_congr hselected (List.append_ne_nil_of_left_ne_nil (List.ne_nil_of_mem hk) l₂) ?_
    rw [alternatives, alternatives, List.map_append, List.map_append, List.map_cons]
    exact (eraseDups_append_cons_of_mem (List.mem_map_of_mem hk)).symm
  · obtain ⟨k, hk⟩ := List.exists_mem_of_ne_nil _ hselected
    refine compile_congr hselected (List.ne_nil_of_mem (List.mem_eraseDups.mpr hk)) ?_
    exact eraseDups_map_eraseDups _ _

/-- Three conventions, one of them selected twice, write a query in two ways. Where an edge is asked for they are three,
since the underscore continues a word of one of them only. -/
theorem split_compile_of_repeated :
    let selected : List Convention := [.camel, .snake, .pascal, .camel]
    let branches := fun edges => (compile "word 2" selected edges).pattern.toList.splitOn '|'
    branches ⟨false, false⟩ = ["word_2".toList, "Word_2".toList] ∧ (branches ⟨true, false⟩).length = 3 ∧
      FirstOccurrences (selected.map (variant "word 2" ⟨true, false⟩)) (branches ⟨true, false⟩) ∧
      compile "word 2" [.camel, .snake, .pascal] ⟨true, false⟩ = compile "word 2" selected ⟨true, false⟩ := by
  intro selected branches
  have hquery : ∃ c ∈ "word 2".toList, c.isAlphanum = true := ⟨'2', by decide, by decide⟩
  obtain ⟨hfirst, -, hrepeated, -⟩ := split_compile hquery (List.cons_ne_nil _ _ : selected ≠ []) ⟨true, false⟩
  exact ⟨by decide +kernel, by decide +kernel, hfirst, hrepeated [.camel, .snake, .pascal] .camel [] rfl (by decide)⟩

end Pattern

end AnyCase
