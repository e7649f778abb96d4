import AnyCase.Proofs.Breaks

/-!
# `Proofs.Recasing` — converting what has been converted

A text that is already an identifier of some convention is a text like any other: its words are looked for again. They
are found again when the convention keeps them apart. Between separators they always are. Words that are run together
are told apart by their capitals, so words that are single letters can be lost: side by side they look like an
acronym. In upper case it is the other way round: a word is cut after a digit inside it, because what follows is a
capital. `Convention.Legible` says what the words must be like, and `Convention.convert_convert` that then nothing else
is needed: what a convention makes of an identifier is what it makes of the text.

How words were cased does not matter to that: a convention writes words in lower case as it writes the words themselves
(`join_map_lowerWord`), so it is enough that the words are found up to their case (`words_of_join`).
-/

namespace AnyCase

namespace Convention

variable {j k : Convention} {c d : Char} {l text word separator : List Char} {words pieces : List (List Char)}

/-! ## Which words can be read back -/

/-- Whether the words of an identifier can be told apart: no single letters where capitals do it, and no letters after
digits in a word where everything is a capital. -/
def Legible (j : Convention) (words : List (List Char)) : Prop :=
  match j with
  | camel | pascal => ∀ word ∈ words, ¬(word.length = 1 ∧ word.all Char.isAlpha = true)
  | upperSnake => ∀ word ∈ words, word.IsChain fun a b => ¬(a.isDigit = true ∧ b.isAlpha = true)
  | kebab | snake | capital | path => True

instance (j : Convention) (words : List (List Char)) : Decidable (j.Legible words) :=
  match j with
  | camel | pascal => inferInstanceAs (Decidable (∀ word ∈ words, ¬(word.length = 1 ∧ word.all Char.isAlpha = true)))
  | upperSnake =>
    inferInstanceAs (Decidable (∀ word ∈ words, word.IsChain fun a b => ¬(a.isDigit = true ∧ b.isAlpha = true)))
  | kebab | snake | capital | path => inferInstanceAs (Decidable True)

/-! ## Writing what is written -/

/-- Digits have no case. -/
theorem isDigit_toLower (c : Char) : c.toLower.isDigit = c.isDigit := by
  by_cases hupper : c.isUpper = true
  · have halpha : c.isAlpha = true := isAlpha_of_isUpper hupper
    rw [not_isDigit_of_isAlpha halpha, not_isDigit_of_isAlpha]
    rw [Char.isAlpha_toLower_eq_isAlpha, halpha]
  · rw [Char.toLower_eq_of_not_isUpper hupper]

theorem isDigit_toUpper (c : Char) : c.toUpper.isDigit = c.isDigit := by
  rw [← isDigit_toLower c.toUpper, Char.toLower_toUpper_eq_toLower, isDigit_toLower]

theorem toLower_of_isDigit (h : c.isDigit = true) : c.toLower = c := by
  refine Char.toLower_eq_of_not_isUpper fun hupper => ?_
  rw [not_isDigit_of_isAlpha (isAlpha_of_isUpper hupper)] at h
  exact Bool.false_ne_true h

theorem lowerWord_lowerWord (word : List Char) : lowerWord (lowerWord word) = lowerWord word := by
  simp [lowerWord]

theorem lowerWord_upperWord (word : List Char) : lowerWord (upperWord word) = lowerWord word := by
  simp [lowerWord, upperWord]

theorem upperWord_lowerWord (word : List Char) : upperWord (lowerWord word) = upperWord word := by
  simp [lowerWord, upperWord]

theorem lowerWord_capitalWord (word : List Char) : lowerWord (capitalWord word) = lowerWord word := by
  cases word with
  | nil => rfl
  | cons c rest => simp [capitalWord, lowerWord]

theorem capitalWord_lowerWord (word : List Char) : capitalWord (lowerWord word) = capitalWord word := by
  cases word with
  | nil => rfl
  | cons c rest => simp [capitalWord, lowerWord]

theorem followingWord_lowerWord (word : List Char) : followingWord (lowerWord word) = followingWord word := by
  cases word with
  | nil => rfl
  | cons c rest =>
    have hcapital := capitalWord_lowerWord (c :: rest)
    rw [lowerWord, List.map_cons] at hcapital ⊢
    rw [followingWord, followingWord, isDigit_toLower, hcapital]
    split
    · rename_i h
      rw [toLower_of_isDigit h, ← lowerWord, lowerWord_lowerWord]
    · rfl

/-- **A convention writes words by their letters, whatever their case.** -/
theorem join_map_lowerWord (k : Convention) (words : List (List Char)) : k.join (words.map lowerWord) = k.join words := by
  have hpieces : ∀ write : List Char → List Char, (∀ word, write (lowerWord word) = write word) →
      k.separator.intercalate ((words.map lowerWord).map write) = k.separator.intercalate (words.map write) := by
    intro write hwrite
    rw [List.map_map]
    exact congrArg _ (List.map_congr_left fun word _ => hwrite word)
  have htogether : ∀ first : List Char → List Char, (∀ word, first (lowerWord word) = first word) →
      runTogether first (words.map lowerWord) = runTogether first words := by
    intro first hfirst
    cases words with
    | nil => rfl
    | cons word rest =>
      rw [List.map_cons, runTogether, runTogether, hfirst, List.map_map]
      refine congrArg (fun pieces => first word ++ List.flatten pieces) ?_
      exact List.map_congr_left fun next _ => followingWord_lowerWord next
  cases k with
  | camel => exact htogether _ lowerWord_lowerWord
  | pascal => exact htogether _ capitalWord_lowerWord
  | upperSnake => exact hpieces _ upperWord_lowerWord
  | capital => exact hpieces _ capitalWord_lowerWord
  | _ => exact hpieces _ lowerWord_lowerWord

/-! ## One written word is one word -/

theorem wordsOf_lowerWord (hne : word ≠ []) (halnum : ∀ c ∈ word, c.isAlphanum = true) :
    wordsOf (lowerWord word) = [lowerWord word] := by
  refine wordsOf_eq_singleton (lowerWord_ne_nil hne) (fun _ => isAlphanum_of_mem_lowerWord halnum) ?_
  intro c d rest hsuffix
  have hmem : d ∈ lowerWord word := hsuffix.subset (List.mem_cons_of_mem c List.mem_cons_self)
  obtain ⟨e, -, rfl⟩ := List.mem_map.mp hmem
  exact cutsBetween_of_not_isUpper (Char.isUpper_toLower_eq_false e)

/-- The capital is at the front, where nothing is cut. -/
theorem wordsOf_capitalWord (hne : word ≠ []) (halnum : ∀ c ∈ word, c.isAlphanum = true) :
    wordsOf (capitalWord word) = [capitalWord word] := by
  refine wordsOf_eq_singleton (capitalWord_ne_nil hne) (fun _ => isAlphanum_of_mem_capitalWord halnum) ?_
  intro c d rest hsuffix
  obtain ⟨first, others, rfl⟩ := List.exists_cons_of_ne_nil hne
  have hmem : d ∈ lowerWord others := by
    rw [capitalWord, List.suffix_cons_iff] at hsuffix
    rcases hsuffix with heq | hsuffix
    · rw [← (List.cons.inj heq).2]
      exact List.mem_cons_self
    · exact hsuffix.subset (List.mem_cons_of_mem c List.mem_cons_self)
  obtain ⟨e, -, rfl⟩ := List.mem_map.mp hmem
  exact cutsBetween_of_not_isUpper (Char.isUpper_toLower_eq_false e)

/-- Capitals only: there is no lower-case letter to start a word, and no digit before a letter to end one. -/
theorem wordsOf_upperWord (hne : word ≠ []) (halnum : ∀ c ∈ word, c.isAlphanum = true)
    (hdigits : word.IsChain fun a b => ¬(a.isDigit = true ∧ b.isAlpha = true)) :
    wordsOf (upperWord word) = [upperWord word] := by
  refine wordsOf_eq_singleton (upperWord_ne_nil hne) (fun _ => isAlphanum_of_mem_upperWord halnum) ?_
  intro c d rest hsuffix
  obtain ⟨part, hpart, heq⟩ := List.suffix_map_iff.mp hsuffix
  match part, heq with
  | a :: b :: others, heq =>
    simp only [List.map_cons, List.cons.injEq] at heq
    obtain ⟨rfl, rfl, rfl⟩ := heq
    have hnext : ¬(a.isDigit = true ∧ b.isAlpha = true) := (List.isChain_cons_cons.mp (hdigits.suffix hpart)).1
    have hafter : (others.map Char.toUpper).head?.any Char.isLower = false := by
      cases others with
      | nil => rfl
      | cons e _ => exact Char.isLower_toUpper_eq_false e
    rw [cutsBetween, hafter, Bool.and_false, Bool.or_false, endsLowerRun, Char.isLower_toUpper_eq_false, Bool.false_or,
      isDigit_toUpper, Char.isUpper_toUpper_eq_isAlpha, Bool.eq_false_iff, ne_eq, Bool.and_eq_true]
    exact hnext

/-! ## Words between separators -/

theorem wordsOf_intercalate (hsep : separator ≠ []) (hother : ∀ c ∈ separator, c.isAlphanum = false)
    (hpieces : ∀ piece ∈ pieces, wordsOf piece = [piece]) : wordsOf (separator.intercalate pieces) = pieces := by
  induction pieces with
  | nil => rfl
  | cons piece rest ih =>
    have hpiece : wordsOf piece = [piece] := hpieces piece List.mem_cons_self
    cases rest with
    | nil => rw [List.intercalate_singleton, hpiece]
    | cons next rest =>
      have hends : ∀ c, endsBefore c (separator ++ separator.intercalate (next :: rest)) = true := by
        intro c
        obtain ⟨d, others, rfl⟩ := List.exists_cons_of_ne_nil hsep
        simp [endsBefore, follows, hother d List.mem_cons_self]
      rw [List.intercalate_cons_cons, List.append_assoc, wordsOf_append fun c _ => hends c, hpiece,
        wordsOf_append_of_others hother, ih fun other hmem => hpieces other (List.mem_cons_of_mem _ hmem)]
      rfl

/-! ## Words that are run together -/

/-- A written word ends in a lower-case letter or a digit, unless it is a capital alone. -/
theorem endsLowerRun_of_getLast_lowerWord (halnum : ∀ c ∈ word, c.isAlphanum = true)
    (hc : c ∈ (lowerWord word).getLast?) : endsLowerRun c = true := by
  obtain ⟨d, hd, rfl⟩ := List.mem_map.mp (List.mem_of_mem_getLast? hc)
  have halpha := halnum d hd
  rw [endsLowerRun, Char.isLower_toLower_eq_isAlpha, isDigit_toLower]
  exact halpha

theorem endsLowerRun_of_getLast_capitalWord (halnum : ∀ c ∈ word, c.isAlphanum = true)
    (hlength : ¬(word.length = 1 ∧ word.all Char.isAlpha = true)) (hc : c ∈ (capitalWord word).getLast?) :
    endsLowerRun c = true := by
  match word with
  | [] => exact absurd hc (Option.not_mem_none c)
  | [d] =>
    -- one character, and no letter
    have hdigit : d.isDigit = true := by
      have halpha : d.isAlpha = false := by simpa using hlength
      have halnum := halnum d List.mem_cons_self
      rwa [Char.isAlphanum, halpha, Bool.false_or] at halnum
    obtain rfl : d.toUpper = c := Option.mem_some_iff.mp hc
    rw [endsLowerRun, isDigit_toUpper, hdigit, Bool.or_true]
  | d :: e :: rest =>
    rw [capitalWord, lowerWord, List.map_cons, List.getLast?_cons_cons] at hc
    exact endsLowerRun_of_getLast_lowerWord (fun x hx => halnum x (List.mem_cons_of_mem d hx)) hc

/-- The underscore before a digit is no part of a word. -/
theorem wordsOf_followingWord_append (word text : List Char) :
    wordsOf (followingWord word ++ text) = wordsOf (capitalWord word ++ text) := by
  cases word with
  | nil => rfl
  | cons c rest =>
    rw [followingWord]
    split
    · rename_i hdigit
      have hupper : c.toUpper = c := by
        refine Char.toUpper_eq_of_not_isLower fun hlower => ?_
        rw [not_isDigit_of_isAlpha (isAlpha_of_isLower hlower)] at hdigit
        exact Bool.false_ne_true hdigit
      rw [List.cons_append, wordsOf_cons_of_other (by decide), capitalWord, hupper]
    · rfl

/-- What follows a lower-case letter or a digit starts a word: with its capital, or with the underscore. -/
theorem endsBefore_following (hc : endsLowerRun c = true) (h : Proper words) :
    endsBefore c (words.map followingWord).flatten = true := by
  cases words with
  | nil => rfl
  | cons word rest =>
    obtain ⟨hne, halnum⟩ := h word List.mem_cons_self
    obtain ⟨d, others, rfl⟩ := List.exists_cons_of_ne_nil hne
    rw [List.map_cons, List.flatten_cons, followingWord]
    split
    · simp [endsBefore, follows]
    · rename_i hdigit
      have halpha : d.isAlpha = true := by
        have hd := halnum d List.mem_cons_self
        rwa [Char.isAlphanum, Bool.eq_false_iff.mpr hdigit, Bool.or_false] at hd
      simp [capitalWord, endsBefore, follows, cutsBetween, hc, halpha]

theorem wordsOf_append_following (hfirst : wordsOf l = [l]) (hlast : ∀ c ∈ l.getLast?, endsLowerRun c = true)
    (h : Proper words) (hlegible : ∀ word ∈ words, ¬(word.length = 1 ∧ word.all Char.isAlpha = true)) :
    wordsOf (l ++ (words.map followingWord).flatten) = l :: words.map capitalWord := by
  induction words generalizing l with
  | nil => rw [List.map_nil, List.flatten_nil, List.append_nil, hfirst, List.map_nil]
  | cons word rest ih =>
    obtain ⟨hne, halnum⟩ := h word List.mem_cons_self
    rw [wordsOf_append fun c hc => endsBefore_following (hlast c hc) h, hfirst, List.map_cons, List.flatten_cons,
      wordsOf_followingWord_append]
    have hrest : wordsOf (capitalWord word ++ (rest.map followingWord).flatten) =
        capitalWord word :: rest.map capitalWord :=
      ih (wordsOf_capitalWord hne halnum)
        (fun c hc => endsLowerRun_of_getLast_capitalWord halnum (hlegible word List.mem_cons_self) hc)
        (fun other hmem => h other (List.mem_cons_of_mem _ hmem))
        fun other hmem => hlegible other (List.mem_cons_of_mem _ hmem)
    rw [hrest]
    rfl

/-! ## An identifier has the words it was made of -/

/-- Words that are written one by one are found again as they are written. -/
theorem words_of_intercalate {write : List Char → List Char} (hsep : separator ≠ [])
    (hother : ∀ c ∈ separator, c.isAlphanum = false) (hone : ∀ word ∈ words, wordsOf (write word) = [write word])
    (hlower : ∀ word, lowerWord (write word) = lowerWord word) :
    (wordsOf (separator.intercalate (words.map write))).map lowerWord = words.map lowerWord := by
  have hpieces : ∀ piece ∈ words.map write, wordsOf piece = [piece] := by
    intro piece hpiece
    obtain ⟨word, hword, rfl⟩ := List.mem_map.mp hpiece
    exact hone word hword
  rw [wordsOf_intercalate hsep hother hpieces, List.map_map]
  exact List.map_congr_left fun word _ => hlower word

/-- So are words that are run together. -/
theorem words_of_runTogether {first : List Char → List Char} (h : Proper words)
    (hlegible : ∀ word ∈ words, ¬(word.length = 1 ∧ word.all Char.isAlpha = true))
    (hone : ∀ word ∈ words, wordsOf (first word) = [first word])
    (hlast : ∀ word ∈ words, ∀ c ∈ (first word).getLast?, endsLowerRun c = true)
    (hlower : ∀ word, lowerWord (first word) = lowerWord word) :
    (wordsOf (runTogether first words)).map lowerWord = words.map lowerWord := by
  cases words with
  | nil => rfl
  | cons word rest =>
    have hwords := wordsOf_append_following (hone word List.mem_cons_self) (hlast word List.mem_cons_self)
      (fun other hmem => h other (List.mem_cons_of_mem _ hmem))
      fun other hmem => hlegible other (List.mem_cons_of_mem _ hmem)
    rw [runTogether, hwords, List.map_cons, hlower, List.map_map, List.map_cons]
    exact congrArg _ (List.map_congr_left fun other _ => lowerWord_capitalWord other)

/-- No separator has a letter or a digit. -/
theorem not_isAlphanum_of_mem_separator (hc : c ∈ k.separator) : c.isAlphanum = false := by
  cases k with
  | camel | pascal => exact absurd hc List.not_mem_nil
  | _ =>
    obtain rfl := List.mem_singleton.mp hc
    decide

/-- **An identifier has the words it was made of, up to their case.** -/
theorem words_of_join (h : Proper words) (hlegible : j.Legible words) :
    (wordsOf (j.join words)).map lowerWord = words.map lowerWord := by
  have hlowerOne : ∀ word ∈ words, wordsOf (lowerWord word) = [lowerWord word] := fun word hword =>
    wordsOf_lowerWord (h word hword).1 (h word hword).2
  have hcapitalOne : ∀ word ∈ words, wordsOf (capitalWord word) = [capitalWord word] := fun word hword =>
    wordsOf_capitalWord (h word hword).1 (h word hword).2
  cases j with
  | camel =>
    exact words_of_runTogether h hlegible hlowerOne
      (fun word hword _ hc => endsLowerRun_of_getLast_lowerWord (h word hword).2 hc) lowerWord_lowerWord
  | pascal =>
    exact words_of_runTogether h hlegible hcapitalOne
      (fun word hword _ hc => endsLowerRun_of_getLast_capitalWord (h word hword).2 (hlegible word hword) hc)
      lowerWord_capitalWord
  | upperSnake =>
    exact words_of_intercalate (List.cons_ne_nil _ _) (fun _ => not_isAlphanum_of_mem_separator)
      (fun word hword => wordsOf_upperWord (h word hword).1 (h word hword).2 (hlegible word hword)) lowerWord_upperWord
  | capital =>
    exact words_of_intercalate (List.cons_ne_nil _ _) (fun _ => not_isAlphanum_of_mem_separator) hcapitalOne
      lowerWord_capitalWord
  | kebab | snake | path =>
    exact words_of_intercalate (List.cons_ne_nil _ _) (fun _ => not_isAlphanum_of_mem_separator) hlowerOne
      lowerWord_lowerWord

/-- **Converting an identifier is converting the text it was made of**, whenever its convention keeps the words of that
text apart. -/
theorem convert_convert (k j : Convention) (text : String) (h : j.Legible (wordsOf text.toList)) :
    k.convert (j.convert text) = k.convert text := by
  have hwords := words_of_join (proper_wordsOf text.toList) h
  calc k.convert (j.convert text)
      = String.ofList (k.join (wordsOf (j.join (wordsOf text.toList)))) := by
        rw [convert, convert, String.toList_ofList]
    _ = String.ofList (k.join ((wordsOf (j.join (wordsOf text.toList))).map lowerWord)) := by
        rw [join_map_lowerWord]
    _ = String.ofList (k.join ((wordsOf text.toList).map lowerWord)) := by rw [hwords]
    _ = k.convert text := by rw [join_map_lowerWord, convert]

/-- Acronyms, and words that begin with a digit, survive being run together. -/
theorem convert_convert_acronyms :
    camel.Legible (wordsOf "HTTPServer2Go 10x".toList) ∧
      upperSnake.convert (camel.convert "HTTPServer2Go 10x") = upperSnake.convert "HTTPServer2Go 10x" ∧
      upperSnake.convert "HTTPServer2Go 10x" = "HTTP_SERVER2_GO_10X" := by
  have hlegible : camel.Legible (wordsOf "HTTPServer2Go 10x".toList) := by decide
  exact ⟨hlegible, convert_convert upperSnake camel "HTTPServer2Go 10x" hlegible, by decide⟩

/-- Neighbouring single letters do not. -/
example : kebab.convert (camel.convert "plan b c") = "plan-bc" := by decide

end Convention

end AnyCase
