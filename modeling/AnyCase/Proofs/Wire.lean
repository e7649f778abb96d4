import AnyCase.Json.Reader
import AnyCase.Json.Writer
import AnyCase.Proofs.Numerals
import Mathlib.Data.List.Basic
import Mathlib.Order.Lattice

/-!
# `Proofs.Wire` — what is written is read back

Messages are JSON values that are written without spaces. They are read in two folds, one over characters and
one over tokens, and so is the proof that nothing is lost (`Json.read?_compact`):

* a text becomes the tokens of its value (`Json.tokensOf`): a string is unescaped to what it was
  (`Lexer.quoted`), and a number or a word such as `null` is complete only when a delimiter or the end follows,
  which is what `Lexer.Completed` says;
* the tokens of a value, where a value is expected, become that value (`Reader.value`).

This is for values without floats (`Json.Plain`): whole numbers have 64 bits, and every string stands for a text.
-/

namespace AnyCase.Json

/-! ## Values and tokens -/

mutual

/-- Whether a value has neither floats nor strings that stand for no text, and its whole numbers have 64 bits. -/
def Plain : Json → Prop
  | null | bool _ | str _ => True
  | int i => FitsWord i
  | real _ | torn => False
  | arr items => PlainItems items
  | obj members => PlainMembers members

/-- Whether all values of a list are plain. -/
def PlainItems : List Json → Prop
  | [] => True
  | v :: rest => Plain v ∧ PlainItems rest

/-- Whether the values of all members are plain. -/
def PlainMembers : List (String × Json) → Prop
  | [] => True
  | (_, v) :: rest => Plain v ∧ PlainMembers rest

end

mutual

/-- The tokens of a value. -/
def tokensOf : Json → List Token
  | null => [.null]
  | bool b => [.bool b]
  | int i => [.int i]
  | real spelling => [.real spelling false]
  | str text => [.str text]
  | torn => [.torn]
  | arr items => .openArr :: tokensOfItems items ++ [.closeArr]
  | obj members => .openObj :: tokensOfMembers members ++ [.closeObj]

/-- The tokens of the items of an array, with the commas between them. -/
def tokensOfItems : List Json → List Token
  | [] => []
  | [v] => tokensOf v
  | v :: w :: rest => tokensOf v ++ .comma :: tokensOfItems (w :: rest)

/-- The tokens of the members of an object, with the colons and commas. -/
def tokensOfMembers : List (String × Json) → List Token
  | [] => []
  | [(k, v)] => .str k :: .colon :: tokensOf v
  | (k, v) :: m :: rest => .str k :: .colon :: tokensOf v ++ .comma :: tokensOfMembers (m :: rest)

end

/-! ## Strings -/

theorem hexDigit?_hexChar {n : Nat} (h : n < 16) : hexDigit? (hexChar n) = some n := by
  have hall : ∀ n < 16, hexDigit? (hexChar n) = some n := by decide
  exact hall n h

/-- Characters are code points, and none of them is half of a surrogate pair. -/
theorem unitsText?_toNat (text : List Char) : unitsText? (text.map Char.toNat) = some text := by
  induction text with
  | nil => rfl
  | cons c rest ih =>
    have hvalid : c.toNat < 0xD800 ∨ (0xDFFF < c.toNat ∧ c.toNat < 0x110000) := c.valid
    have hhigh : isHighSurrogate c.toNat = false := by
      rw [isHighSurrogate, Bool.and_eq_false_iff, decide_eq_false_iff_not, decide_eq_false_iff_not]
      omega
    have hlow : isLowSurrogate c.toNat = false := by
      rw [isLowSurrogate, Bool.and_eq_false_iff, decide_eq_false_iff_not, decide_eq_false_iff_not]
      omega
    rw [List.map_cons]
    unfold unitsText?
    rw [hhigh, hlow, ih, if_neg Bool.false_ne_true, if_neg Bool.false_ne_true, Char.ofNat_toNat]
    rfl

theorem stringToken_toNat (text : String) : stringToken (text.toList.map Char.toNat) = .str text := by
  unfold stringToken
  rw [unitsText?_toNat]
  exact congrArg Token.str String.ofList_toList

namespace Lexer

variable {s : Lexer} {done tokens : List Token} {c : Char}

/-- A character of a string is read as itself. -/
theorem foldlM_escapeChar (done : List Token) (units : List Nat) (c : Char) :
    (escapeChar c).foldlM step ⟨done, .text units⟩ = some ⟨done, .text (c.toNat :: units)⟩ := by
  unfold escapeChar
  -- seven characters have escapes of their own
  iterate 7
    split
    · rename_i hc
      rw [hc]
      rfl
  split
  · rename_i hlt
    -- two zeros and two more digits, which make the code point again
    have hhigh := hexDigit?_hexChar (n := c.toNat / 16) (by omega)
    have hdigit := hexDigit?_hexChar (n := c.toNat % 16) (by omega)
    have hvalue : 16 * (c.toNat / 16) + c.toNat % 16 = c.toNat := Nat.div_add_mod _ _
    have hzero : hexDigit? '0' = some 0 := by decide
    simp [step, hhigh, hdigit, hzero, hvalue]
  · rename_i hquote hslash _ _ _ _ _ hge
    simp [step, hquote, hslash, hge]

/-- Characters of a string are read as themselves, the last one coming first. -/
theorem foldlM_escaped (done : List Token) (units : List Nat) (text : List Char) :
    (text.flatMap escapeChar).foldlM step ⟨done, .text units⟩
      = some ⟨done, .text ((text.map Char.toNat).reverse ++ units)⟩ := by
  induction text generalizing units with
  | nil => rfl
  | cons c rest ih =>
    rw [List.flatMap_cons, List.foldlM_append, foldlM_escapeChar, Option.bind_eq_bind, Option.bind_some, ih,
      List.map_cons, List.reverse_cons, List.append_assoc]
    rfl

/-- **A string is read as its text.** -/
theorem foldlM_quoted (done : List Token) (text : String) :
    (quoted text).foldlM step ⟨done, .between⟩ = some ⟨.str text :: done, .between⟩ := by
  have hopen : step ⟨done, .between⟩ '"' = some ⟨done, .text []⟩ := rfl
  have hclose : step ⟨done, .text (text.toList.map Char.toNat).reverse⟩ '"'
      = some ⟨.str text :: done, .between⟩ := by
    show some (Lexer.mk (stringToken _ :: done) .between) = _
    rw [List.reverse_reverse, stringToken_toNat]
  unfold quoted
  rw [List.cons_append, List.foldlM_cons, hopen, Option.bind_eq_bind, Option.bind_some, List.foldlM_append,
    foldlM_escaped, Option.bind_eq_bind, Option.bind_some, List.append_nil, List.foldlM_cons, hclose]
  rfl

/-! ## From characters to tokens -/

/-- A character that ends a word, a number or a value. -/
def isDelimiter (c : Char) : Bool := [',', ':', ']', '}', '\n'].contains c

/-- Whether a reading has completed some tokens, the last one first, as soon as a delimiter or the end
follows. -/
structure Completed (s : Lexer) (done : List Token) : Prop where
  delimiter : ∀ c, isDelimiter c = true → s.step c = stepBetween done c
  last : s.finish = some done.reverse

theorem completed_between (done : List Token) : Completed ⟨done, .between⟩ done := ⟨fun _ _ => rfl, rfl⟩

/-- A word is read as its token. -/
theorem completed_word {letters : List Char} {t : Token} (h : wordToken? letters.reverse = some t)
    (done : List Token) : Completed ⟨done, .word letters⟩ (t :: done) where
  delimiter := by
    intro c hc
    have hall : [',', ':', ']', '}', '\n'].all (fun c => !c.isLower) = true := rfl
    have hlower : c.isLower = false :=
      Bool.not_eq_true' _ ▸ List.all_eq_true.mp hall c (List.contains_iff_mem.mp hc)
    show (if c.isLower = true then _ else _) = _
    rw [hlower, if_neg Bool.false_ne_true, h]
    rfl
  last := by
    show (wordToken? letters.reverse).map _ = _
    rw [h]
    rfl

/-- A number is read as its token. -/
theorem completed_number {characters : List Char} {t : Token} (h : numberToken? characters.reverse = some t)
    (done : List Token) : Completed ⟨done, .number characters⟩ (t :: done) where
  delimiter := by
    intro c hc
    have hall : [',', ':', ']', '}', '\n'].all (fun c => !isNumberChar c) = true := rfl
    have hnumber : isNumberChar c = false :=
      Bool.not_eq_true' _ ▸ List.all_eq_true.mp hall c (List.contains_iff_mem.mp hc)
    show (if isNumberChar c = true then _ else _) = _
    rw [hnumber, if_neg Bool.false_ne_true, h]
    rfl
  last := by
    show (numberToken? characters.reverse).map _ = _
    rw [h]
    rfl

/-- A digit or a dash begins a number. -/
theorem stepBetween_number (done : List Token) (h : c.isDigit = true ∨ c = '-') :
    stepBetween done c = some ⟨done, .number [c]⟩ := by
  have hblank : isBlank c = false := by
    rw [Bool.eq_false_iff]
    intro hblank
    simp only [isBlank, Bool.or_eq_true, decide_eq_true_eq] at hblank
    rcases hblank with ((rfl | rfl) | rfl) | rfl <;> exact absurd h (by decide)
  have hquote : c ≠ '"' := by
    rintro rfl
    exact absurd h (by decide)
  have hbegin : (c.isDigit || decide (c = '-')) = true := by
    rw [Bool.or_eq_true, decide_eq_true_eq]
    exact h
  simp only [stepBetween, hblank, Bool.false_eq_true, if_false, if_neg hquote, if_pos hbegin]

/-- The digits of a number are collected, the last one coming first. -/
theorem foldlM_digits {digits : List Char} (h : ∀ d ∈ digits, d.isDigit = true) (done : List Token)
    (characters : List Char) :
    digits.foldlM step ⟨done, .number characters⟩ = some ⟨done, .number (digits.reverse ++ characters)⟩ := by
  induction digits generalizing characters with
  | nil => rfl
  | cons d rest ih =>
    have hstep : step ⟨done, .number characters⟩ d = some ⟨done, .number (d :: characters)⟩ := by
      simp [step, isNumberChar, h d List.mem_cons_self]
    rw [List.foldlM_cons, hstep, Option.bind_eq_bind, Option.bind_some,
      ih fun e he => h e (List.mem_cons_of_mem _ he), List.reverse_cons, List.append_assoc]
    rfl

/-- A whole number is a digit or a dash, and digits. -/
theorem exists_intChars (i : Int) : ∃ c rest, intChars i = c :: rest ∧ (c.isDigit = true ∨ c = '-') ∧
    ∀ d ∈ rest, d.isDigit = true := by
  cases i with
  | ofNat n =>
    have hdigits : ∀ d ∈ Decimal.numeral n, d.isDigit = true := fun d hd => Decimal.isDigit_of_mem_numeral hd
    have hne : Decimal.numeral n ≠ [] := Nat.toDigits_ne_nil
    obtain ⟨c, rest, heq⟩ := List.exists_cons_of_ne_nil hne
    rw [heq] at hdigits
    exact ⟨c, rest, heq, Or.inl (hdigits c List.mem_cons_self), fun d hd => hdigits d (List.mem_cons_of_mem _ hd)⟩
  | negSucc n => exact ⟨'-', _, rfl, Or.inr rfl, fun d hd => Decimal.isDigit_of_mem_numeral hd⟩

/-- Whether a text is read as some tokens, wherever it stands between tokens. -/
def Reads (text : List Char) (tokens : List Token) : Prop :=
  ∀ done, ∃ s, text.foldlM step ⟨done, .between⟩ = some s ∧ s.Completed (tokens.reverse ++ done)

theorem reads_nil : Reads [] [] := fun done => ⟨_, rfl, completed_between done⟩

theorem reads_quoted (text : String) : Reads (quoted text) [.str text] :=
  fun done => ⟨_, foldlM_quoted done text, completed_between _⟩

theorem reads_intChars {i : Int} (h : FitsWord i) : Reads (intChars i) [.int i] := by
  intro done
  obtain ⟨c, rest, heq, hc, hrest⟩ := exists_intChars i
  have htoken : numberToken? (rest.reverse ++ [c]).reverse = some (.int i) := by
    rw [List.reverse_append, List.reverse_reverse, List.reverse_singleton, List.singleton_append, ← heq]
    exact numberToken?_intChars h
  refine ⟨_, ?_, completed_number htoken done⟩
  have hstep : step ⟨done, .between⟩ c = some ⟨done, .number [c]⟩ := stepBetween_number done hc
  rw [heq, List.foldlM_cons, hstep, Option.bind_eq_bind, Option.bind_some, foldlM_digits hrest]

/-- Texts are read one after the other, with a delimiter between them. -/
theorem Reads.append {text text' : List Char} {tokens tokens' : List Token} (h : Reads text tokens)
    (h' : Reads text' tokens') {c : Char} {t : Token} (hc : isDelimiter c = true)
    (ht : ∀ done, stepBetween done c = some ⟨t :: done, .between⟩) :
    Reads (text ++ c :: text') (tokens ++ t :: tokens') := by
  intro done
  obtain ⟨s, hs, hcompleted⟩ := h done
  obtain ⟨s', hs', hcompleted'⟩ := h' (t :: (tokens.reverse ++ done))
  refine ⟨s', ?_, ?_⟩
  · rw [List.foldlM_append, hs, Option.bind_eq_bind, Option.bind_some, List.foldlM_cons,
      hcompleted.delimiter c hc, ht, Option.bind_eq_bind, Option.bind_some]
    exact hs'
  · rw [List.reverse_append, List.reverse_cons, List.append_assoc, List.append_assoc]
    exact hcompleted'

/-- An opening bracket before a text is a token before its tokens. -/
theorem Reads.cons {text : List Char} {tokens : List Token} (h : Reads text tokens) {c : Char} {t : Token}
    (ht : ∀ done, stepBetween done c = some ⟨t :: done, .between⟩) : Reads (c :: text) (t :: tokens) := by
  intro done
  obtain ⟨s, hs, hcompleted⟩ := h (t :: done)
  refine ⟨s, ?_, ?_⟩
  · have hstep : step ⟨done, .between⟩ c = some ⟨t :: done, .between⟩ := ht done
    rw [List.foldlM_cons, hstep, Option.bind_eq_bind, Option.bind_some]
    exact hs
  · rw [List.reverse_cons, List.append_assoc]
    exact hcompleted

mutual

/-- **A value is written as its tokens.** -/
theorem reads_compactChars : ∀ v : Json, Plain v → Reads (compactChars v) (tokensOf v)
  | null, _ => fun done => ⟨⟨done, .word "llun".toList⟩, rfl, completed_word rfl done⟩
  | bool true, _ => fun done => ⟨⟨done, .word "eurt".toList⟩, rfl, completed_word rfl done⟩
  | bool false, _ => fun done => ⟨⟨done, .word "eslaf".toList⟩, rfl, completed_word rfl done⟩
  | int i, h => by
    rw [compactChars, tokensOf]
    rw [Plain] at h
    exact reads_intChars h
  | str text, _ => by
    rw [compactChars, tokensOf]
    exact reads_quoted text
  | arr items, h => by
    rw [compactChars, tokensOf]
    rw [Plain] at h
    exact ((reads_compactItems items h).cons fun _ => rfl).append reads_nil (by decide) fun _ => rfl
  | obj members, h => by
    rw [compactChars, tokensOf]
    rw [Plain] at h
    exact ((reads_compactMembers members h).cons fun _ => rfl).append reads_nil (by decide) fun _ => rfl

theorem reads_compactItems : ∀ items : List Json, PlainItems items →
    Reads (compactItems items) (tokensOfItems items)
  | [], _ => by
    rw [compactItems, tokensOfItems]
    exact reads_nil
  | [v], h => by
    rw [compactItems, tokensOfItems]
    rw [PlainItems] at h
    exact reads_compactChars v h.1
  | v :: w :: rest, h => by
    rw [compactItems, tokensOfItems]
    rw [PlainItems] at h
    exact (reads_compactChars v h.1).append (reads_compactItems (w :: rest) h.2) (by decide) fun _ => rfl

theorem reads_compactMembers : ∀ members : List (String × Json), PlainMembers members →
    Reads (compactMembers members) (tokensOfMembers members)
  | [], _ => by
    rw [compactMembers, tokensOfMembers]
    exact reads_nil
  | [(k, v)], h => by
    rw [compactMembers, tokensOfMembers]
    rw [PlainMembers] at h
    exact (reads_quoted k).append (reads_compactChars v h.1) (by decide) fun _ => rfl
  | (k, v) :: m :: rest, h => by
    rw [compactMembers, tokensOfMembers]
    rw [PlainMembers] at h
    have hmember := (reads_quoted k).append (reads_compactChars v h.1) (c := ':') (by decide) fun _ => rfl
    exact hmember.append (reads_compactMembers (m :: rest) h.2) (by decide) fun _ => rfl

end

end Lexer

/-- The tokens of a whole text. -/
theorem tokens?_of_reads {text : List Char} {tokens : List Token} (h : Lexer.Reads text tokens) :
    tokens? text = some tokens := by
  obtain ⟨s, hs, hcompleted⟩ := h []
  rw [tokens?, Lexer.start, hs, Option.bind_some, hcompleted.last, List.append_nil, List.reverse_reverse]

/-! ## From tokens to values -/

/-- A value does not begin with the end of an array. -/
theorem exists_tokensOf (v : Json) : ∃ t rest, tokensOf v = t :: rest ∧ t ≠ .closeArr := by
  cases v with
  | arr items => exact ⟨_, _, by rw [tokensOf]; rfl, by decide⟩
  | obj members => exact ⟨_, _, by rw [tokensOf]; rfl, by decide⟩
  | _ => exact ⟨_, [], by rw [tokensOf], by simp⟩

/-- Items begin with the first one. -/
theorem exists_tokensOfItems (v : Json) (rest : List Json) :
    ∃ tokens, tokensOfItems (v :: rest) = tokensOf v ++ tokens := by
  cases rest with
  | nil => exact ⟨[], by rw [tokensOfItems, List.append_nil]⟩
  | cons w rest => exact ⟨_, by rw [tokensOfItems]⟩

/-- Members begin with the first key. -/
theorem exists_tokensOfMembers (k : String) (v : Json) (rest : List (String × Json)) :
    ∃ tokens, tokensOfMembers ((k, v) :: rest) = .str k :: tokens := by
  cases rest with
  | nil => exact ⟨_, by rw [tokensOfMembers]⟩
  | cons m rest => exact ⟨_, by rw [tokensOfMembers]; rfl⟩

namespace Reader

/-- Where the first item of an array may stand, a value is read as that item. -/
theorem foldlM_firstItem (v : Json) (rest : List Token) (stack : List Frame) :
    (tokensOf v ++ rest).foldlM step (firstItem stack) = (tokensOf v ++ rest).foldlM step (value (.arr [] :: stack)) := by
  obtain ⟨t, tokens, heq, hne⟩ := exists_tokensOf v
  have hstep : step (firstItem stack) t = step (value (.arr [] :: stack)) t := by
    cases t with
    | closeArr => exact absurd rfl hne
    | _ => rfl
  rw [heq, List.cons_append, List.foldlM_cons, List.foldlM_cons, hstep]

mutual

/-- **Where a value may stand, its tokens are read as it.** -/
theorem foldlM_tokensOf : ∀ (v : Json) (stack : List Frame),
    (tokensOf v).foldlM step (value stack) = some (after v stack)
  | null, _ | bool _, _ | int _, _ | real _, _ | str _, _ | torn, _ => by
    rw [tokensOf]
    rfl
  | arr [], _ => by
    rw [tokensOf, tokensOfItems]
    rfl
  | arr (v :: rest), stack => by
    have hitems := foldlM_tokensOfItems (v :: rest) (List.cons_ne_nil _ _) [] stack
    obtain ⟨tokens, htokens⟩ := exists_tokensOfItems v rest
    rw [tokensOf, List.cons_append, List.foldlM_cons]
    show (tokensOfItems (v :: rest) ++ [Token.closeArr]).foldlM step (firstItem stack) = _
    rw [htokens, List.append_assoc] at hitems ⊢
    rw [foldlM_firstItem, hitems]
    rfl
  | obj [], _ => by
    rw [tokensOf, tokensOfMembers]
    rfl
  | obj ((k, v) :: rest), stack => by
    have hmembers := foldlM_tokensOfMembers ((k, v) :: rest) (List.cons_ne_nil _ _) [] stack
    obtain ⟨tokens, htokens⟩ := exists_tokensOfMembers k v rest
    rw [tokensOf, List.cons_append, List.foldlM_cons]
    show (tokensOfMembers ((k, v) :: rest) ++ [Token.closeObj]).foldlM step (firstKey stack) = _
    -- the first key is read as any other
    rw [htokens] at hmembers ⊢
    exact hmembers

theorem foldlM_tokensOfItems : ∀ (items : List Json), items ≠ [] → ∀ (acc : List Json) (stack : List Frame),
    (tokensOfItems items ++ [Token.closeArr]).foldlM step (value (.arr acc :: stack))
      = some (after (.arr (acc.reverse ++ items)) stack)
  | [], hne, _, _ => absurd rfl hne
  | [v], _, acc, stack => by
    rw [tokensOfItems, List.foldlM_append, foldlM_tokensOf v, ← List.reverse_cons]
    rfl
  | v :: w :: rest, _, acc, stack => by
    have hrest := foldlM_tokensOfItems (w :: rest) (List.cons_ne_nil _ _) (v :: acc) stack
    rw [List.reverse_cons, List.append_assoc] at hrest
    rw [tokensOfItems, List.append_assoc, List.foldlM_append, foldlM_tokensOf v]
    exact hrest

theorem foldlM_tokensOfMembers : ∀ (members : List (String × Json)), members ≠ [] →
    ∀ (acc : List (String × Json)) (stack : List Frame),
    (tokensOfMembers members ++ [Token.closeObj]).foldlM step (key acc stack)
      = some (after (.obj (acc.reverse ++ members)) stack)
  | [], hne, _, _ => absurd rfl hne
  | [(k, v)], _, acc, stack => by
    rw [tokensOfMembers, ← List.reverse_cons]
    show (tokensOf v ++ [Token.closeObj]).foldlM step (value (.obj acc k :: stack)) = _
    rw [List.foldlM_append, foldlM_tokensOf v]
    rfl
  | (k, v) :: m :: rest, _, acc, stack => by
    have hrest := foldlM_tokensOfMembers (m :: rest) (List.cons_ne_nil _ _) ((k, v) :: acc) stack
    rw [List.reverse_cons, List.append_assoc] at hrest
    rw [tokensOfMembers]
    show ((tokensOf v ++ Token.comma :: tokensOfMembers (m :: rest)) ++ [Token.closeObj]).foldlM step
      (value (.obj acc k :: stack)) = _
    rw [List.append_assoc, List.foldlM_append, foldlM_tokensOf v]
    exact hrest

end

end Reader

/-- The tokens of a value are read as the value. -/
theorem ofTokens?_tokensOf (v : Json) : ofTokens? (tokensOf v) = some v := by
  rw [ofTokens?, Reader.start, Reader.foldlM_tokensOf]
  rfl

/-! ## The whole text -/

mutual

/-- All tokens of a plain value have values. -/
theorem isSound_of_mem_tokensOf : ∀ v : Json, Plain v → ∀ t ∈ tokensOf v, t.isSound = true
  | null, _, _, ht | bool _, _, _, ht | int _, _, _, ht | str _, _, _, ht => by
    rw [tokensOf] at ht
    rw [List.mem_singleton.mp ht]
    rfl
  | arr items, h, t, ht => by
    rw [tokensOf, List.mem_append, List.mem_cons, List.mem_singleton] at ht
    rw [Plain] at h
    rcases ht with (rfl | ht) | rfl
    · rfl
    · exact isSound_of_mem_tokensOfItems items h t ht
    · rfl
  | obj members, h, t, ht => by
    rw [tokensOf, List.mem_append, List.mem_cons, List.mem_singleton] at ht
    rw [Plain] at h
    rcases ht with (rfl | ht) | rfl
    · rfl
    · exact isSound_of_mem_tokensOfMembers members h t ht
    · rfl

theorem isSound_of_mem_tokensOfItems : ∀ items : List Json, PlainItems items →
    ∀ t ∈ tokensOfItems items, t.isSound = true
  | [], _, t, ht => by
    rw [tokensOfItems] at ht
    exact absurd ht List.not_mem_nil
  | [v], h, t, ht => by
    rw [tokensOfItems] at ht
    rw [PlainItems] at h
    exact isSound_of_mem_tokensOf v h.1 t ht
  | v :: w :: rest, h, t, ht => by
    rw [tokensOfItems, List.mem_append, List.mem_cons] at ht
    rw [PlainItems] at h
    rcases ht with ht | rfl | ht
    · exact isSound_of_mem_tokensOf v h.1 t ht
    · rfl
    · exact isSound_of_mem_tokensOfItems (w :: rest) h.2 t ht

theorem isSound_of_mem_tokensOfMembers : ∀ members : List (String × Json), PlainMembers members →
    ∀ t ∈ tokensOfMembers members, t.isSound = true
  | [], _, t, ht => by
    rw [tokensOfMembers] at ht
    exact absurd ht List.not_mem_nil
  | [(k, v)], h, t, ht => by
    rw [tokensOfMembers, List.mem_cons, List.mem_cons] at ht
    rw [PlainMembers] at h
    rcases ht with rfl | rfl | ht
    · rfl
    · rfl
    · exact isSound_of_mem_tokensOf v h.1 t ht
  | (k, v) :: m :: rest, h, t, ht => by
    rw [tokensOfMembers, List.mem_append, List.mem_cons, List.mem_cons, List.mem_cons] at ht
    rw [PlainMembers] at h
    rcases ht with (rfl | rfl | ht) | rfl | ht
    · rfl
    · rfl
    · exact isSound_of_mem_tokensOf v h.1 t ht
    · rfl
    · exact isSound_of_mem_tokensOfMembers (m :: rest) h.2 t ht

end

/-- A plain value is read from any text that is read as its tokens, if it is not nested too deep. -/
theorem read?_of_reads {text : List Char} {v : Json} (htext : Lexer.Reads text (tokensOf v)) (h : Plain v)
    (hdepth : v.depth ≤ maxDepth) : read? (String.ofList text) = some v := by
  have hsound : (tokensOf v).all Token.isSound = true := List.all_eq_true.mpr (isSound_of_mem_tokensOf v h)
  unfold read?
  rw [String.toList_ofList, tokens?_of_reads htext, Option.bind_eq_bind, Option.bind_some, if_pos hsound,
    ofTokens?_tokensOf]
  exact Option.filter_some_pos (decide_eq_true hdepth)

/-- **A plain value that is written without spaces is read back**, if it is not nested too deep. -/
theorem read?_compact {v : Json} (h : Plain v) (hdepth : v.depth ≤ maxDepth) : read? v.compact = some v :=
  read?_of_reads (Lexer.reads_compactChars v h) h hdepth

/-! ## Values as messages are built -/

/-- Whether a value is plain and nested at most so deep. -/
def Within (d : Nat) (v : Json) : Prop := Plain v ∧ v.depth ≤ d

variable {d : Nat}

theorem Within.mono {v : Json} {d' : Nat} (h : Within d v) (hd : d ≤ d') : Within d' v :=
  ⟨h.1, Nat.le_trans h.2 hd⟩

theorem within_str (d : Nat) (text : String) : Within d (str text) :=
  ⟨by rw [Plain]; trivial, Nat.zero_le d⟩

theorem within_bool (d : Nat) (b : Bool) : Within d (bool b) :=
  ⟨by rw [Plain]; trivial, Nat.zero_le d⟩

theorem within_arr {items : List Json} (h : ∀ v ∈ items, Within d v) : Within (d + 1) (arr items) := by
  have hitems : PlainItems items ∧ depthOfItems items ≤ d := by
    induction items with
    | nil => exact ⟨by rw [PlainItems]; trivial, by rw [depthOfItems]; exact Nat.zero_le d⟩
    | cons v rest ih =>
      obtain ⟨hplain, hdepth⟩ := h v List.mem_cons_self
      obtain ⟨hplain', hdepth'⟩ := ih fun w hw => h w (List.mem_cons_of_mem v hw)
      refine ⟨?_, ?_⟩
      · rw [PlainItems]
        exact ⟨hplain, hplain'⟩
      · rw [depthOfItems]
        exact Nat.max_le.mpr ⟨hdepth, hdepth'⟩
  refine ⟨?_, ?_⟩
  · rw [Plain]
    exact hitems.1
  · rw [depth]
    exact Nat.succ_le_succ hitems.2

theorem within_obj {members : List (String × Json)} (h : ∀ m ∈ members, Within d m.2) :
    Within (d + 1) (obj members) := by
  have hmembers : PlainMembers members ∧ depthOfMembers members ≤ d := by
    induction members with
    | nil => exact ⟨by rw [PlainMembers]; trivial, by rw [depthOfMembers]; exact Nat.zero_le d⟩
    | cons m rest ih =>
      obtain ⟨hplain, hdepth⟩ := h m List.mem_cons_self
      obtain ⟨hplain', hdepth'⟩ := ih fun w hw => h w (List.mem_cons_of_mem m hw)
      refine ⟨?_, ?_⟩
      · rw [PlainMembers]
        exact ⟨hplain, hplain'⟩
      · rw [depthOfMembers]
        exact Nat.max_le.mpr ⟨hdepth, hdepth'⟩
  refine ⟨?_, ?_⟩
  · rw [Plain]
    exact hmembers.1
  · rw [depth]
    exact Nat.succ_le_succ hmembers.2

/-- A member that is written only if it has a value. -/
theorem within_optionalMember {α : Type} {write : α → Json} (h : ∀ a, Within d (write a)) {key : String}
    {value : Option α} {m : String × Json} (hm : m ∈ optionalMember key (value.map write)) : Within d m.2 := by
  obtain ⟨v, hv, rfl⟩ := List.mem_map.mp hm
  obtain ⟨a, -, rfl⟩ := Option.map_eq_some_iff.mp (Option.mem_toList.mp hv)
  exact h a

/-- An array of values that are made from others. -/
theorem within_map {α : Type} {write : α → Json} (l : List α) (h : ∀ a, Within d (write a)) :
    Within (d + 1) (arr (l.map write)) := by
  refine within_arr fun v hv => ?_
  obtain ⟨a, -, rfl⟩ := List.mem_map.mp hv
  exact h a

end AnyCase.Json
