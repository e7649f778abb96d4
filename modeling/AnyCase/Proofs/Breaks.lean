import AnyCase.Proofs.Words

/-!
# `Proofs.Breaks` — where one word ends and the next begins

The three passes that put marks into a text work one after the other: each reads what the one before it wrote, and
each skips what it has just matched. What they find together can be said of the text as it stands, character by
character (`cutsBetween`), and that is how `cutWords` finds the words: it cuts the text wherever two neighbours do not
belong together and keeps the pieces made of letters and digits. `wordsOf_eq_cutWords` says that this is the same.

The words of a text are then computed from its front (`wordsOf_cons_of_other`, `wordsOf_cons_of_ends`,
`wordsOf_cons_cons_of_follows`), and everything else goes by these: no letter and no digit is lost
(`flatten_wordsOf`), and a text that is cut in two between two words has the words of both parts (`wordsOf_append`).
-/

namespace AnyCase

/-! ## Words, cut from a text -/

/-- Whether a text is cut between the neighbours `c` and `d`; `after` is what follows `d`. -/
def cutsBetween (c d : Char) (after : Option Char) : Bool :=
  (endsLowerRun c && d.isUpper) || (c.isUpper && d.isUpper && after.any Char.isLower)

/-- Whether `d` continues the word that its neighbour `c` belongs to. -/
def follows (c d : Char) (after : Option Char) : Bool :=
  c.isAlphanum && d.isAlphanum && !cutsBetween c d after

/-- Each character of a text with the one after it. -/
def withNext : List Char → List (Char × Option Char)
  | [] => []
  | c :: rest => (c, rest.head?) :: withNext rest

/-- The longest pieces of a text in which every character continues the word of the one before it. A character that
is no letter and no digit is a piece of its own. -/
def runsOf (text : List Char) : List (List Char) :=
  ((withNext text).splitBy fun x y => follows x.1 y.1 y.2).map fun run => run.map Prod.fst

/-- The pieces that are made of letters and digits. -/
def cutWords (text : List Char) : List (List Char) :=
  (runsOf text).filter fun run => run.all Char.isAlphanum

/-- Whether no word that `c` belongs to goes on in `rest`. -/
def endsBefore (c : Char) : List Char → Bool
  | [] => true
  | d :: rest => !follows c d rest.head?

/-! ## Characters -/

section Characters

variable {c d : Char} {after : Option Char}

theorem isAlpha_of_isUpper (h : c.isUpper = true) : c.isAlpha = true := by rw [Char.isAlpha, h, Bool.true_or]

theorem isAlpha_of_isLower (h : c.isLower = true) : c.isAlpha = true := by rw [Char.isAlpha, h, Bool.or_true]

theorem isAlphanum_of_isAlpha (h : c.isAlpha = true) : c.isAlphanum = true := by rw [Char.isAlphanum, h, Bool.true_or]

/-- No letter is a digit. -/
theorem not_isDigit_of_isAlpha (h : c.isAlpha = true) : c.isDigit = false := by
  refine Bool.eq_false_iff.mpr fun hdigit => ?_
  simp only [Char.isAlpha, Char.isUpper, Char.isLower, Char.isDigit, UInt32.le_iff_toNat_le, ge_iff_le,
    Bool.or_eq_true, Bool.and_eq_true, decide_eq_true_eq] at h hdigit
  have hA : 'A'.val.toNat = 65 := rfl
  have ha : 'a'.val.toNat = 97 := rfl
  have h9 : '9'.val.toNat = 57 := rfl
  omega

/-- Upper case is apart from lower case and digits. -/
theorem not_endsLowerRun_of_isUpper (h : c.isUpper = true) : endsLowerRun c = false := by
  have hlower : c.isLower = false := Bool.eq_false_iff.mpr (Char.not_isLower_of_isUpper h)
  rw [endsLowerRun, hlower, not_isDigit_of_isAlpha (isAlpha_of_isUpper h), Bool.or_self]

/-- A cut is before an upper-case letter. -/
theorem cutsBetween_of_not_isUpper (h : d.isUpper = false) : cutsBetween c d after = false := by
  simp [cutsBetween, h]

end Characters

/-! ## The marks of all passes at once -/

section Marks

variable {a b : Char} {l : List Char}

/-- A mark at every cut. -/
def markCuts : List Char → List Char
  | c :: d :: rest =>
    if cutsBetween c d rest.head? then c :: wordMark :: markCuts (d :: rest) else c :: markCuts (d :: rest)
  | rest => rest

/-- What the first pass skips after a match could not have begun another one. -/
theorem markLowerUpper_cons_of_not (h : endsLowerRun a = false) :
    markLowerUpper (a :: l) = a :: markLowerUpper l := by
  cases l with
  | nil => rfl
  | cons b rest => rw [markLowerUpper, h, Bool.false_and, if_neg Bool.false_ne_true]

theorem markLowerUpper_cons_cons :
    markLowerUpper (a :: b :: l) =
      if endsLowerRun a && b.isUpper then a :: wordMark :: markLowerUpper (b :: l)
      else a :: markLowerUpper (b :: l) := by
  rw [markLowerUpper]
  split
  · rename_i h
    rw [Bool.and_eq_true] at h
    rw [markLowerUpper_cons_of_not (not_endsLowerRun_of_isUpper h.2)]
  · rfl

theorem head?_markLowerUpper (l : List Char) : (markLowerUpper l).head? = l.head? := by
  unfold markLowerUpper
  split
  · split <;> rfl
  · rfl

theorem markAcronym_cons_of_not (h : a.isUpper = false) : markAcronym (a :: l) = a :: markAcronym l := by
  match l with
  | [] => rfl
  | [_] => rfl
  | _ :: _ :: _ => rw [markAcronym, h, Bool.false_and, Bool.false_and, if_neg Bool.false_ne_true]

theorem markAcronym_cons_cons_of_not (h : b.isUpper = false) :
    markAcronym (a :: b :: l) = a :: markAcronym (b :: l) := by
  match l with
  | [] => rfl
  | _ :: _ => rw [markAcronym, h, Bool.and_false, Bool.false_and, if_neg Bool.false_ne_true]

theorem markAcronym_cons_cons :
    markAcronym (a :: b :: l) =
      if a.isUpper && b.isUpper && l.head?.any Char.isLower then a :: wordMark :: markAcronym (b :: l)
      else a :: markAcronym (b :: l) := by
  match l with
  | [] => simp [markAcronym]
  | c :: rest =>
    rw [markAcronym]
    split
    · rename_i h
      rw [Bool.and_eq_true] at h
      -- the three letters of the match: no match begins at the second or at the third one
      have hc : c.isUpper = false := Bool.eq_false_iff.mpr (Char.not_isUpper_of_isLower h.2)
      rw [markAcronym_cons_cons_of_not hc, markAcronym_cons_of_not hc]
      simp [h.1, h.2]
    · rename_i h
      simp [h]

/-- **The passes for letters put a mark at every cut and nowhere else.** The second pass sees the marks of the first
one; they are no letters, so they hide no boundary, and they stand where no capital follows another one. -/
theorem markAcronym_markLowerUpper (l : List Char) : markAcronym (markLowerUpper l) = markCuts l := by
  induction l with
  | nil => rfl
  | cons a l ih =>
    cases l with
    | nil => rfl
    | cons b rest =>
      rw [markCuts, markLowerUpper_cons_cons, ← ih]
      by_cases hfirst : (endsLowerRun a && b.isUpper) = true
      · have ha : a.isUpper = false := by
          rw [Bool.and_eq_true] at hfirst
          refine Bool.eq_false_iff.mpr fun hupper => ?_
          rw [not_endsLowerRun_of_isUpper hupper] at hfirst
          exact absurd hfirst.1 Bool.false_ne_true
        rw [if_pos hfirst, markAcronym_cons_of_not ha, markAcronym_cons_of_not (by decide)]
        simp [cutsBetween, hfirst]
      · rw [if_neg hfirst]
        by_cases hb : b.isUpper = true
        · rw [markLowerUpper_cons_of_not (not_endsLowerRun_of_isUpper hb), markAcronym_cons_cons,
            head?_markLowerUpper]
          simp [cutsBetween, hfirst]
        · rw [Bool.not_eq_true] at hb
          rw [cutsBetween_of_not_isUpper hb, if_neg Bool.false_ne_true]
          obtain ⟨tail, htail⟩ : ∃ tail, markLowerUpper (b :: rest) = b :: tail := by
            refine List.head?_eq_some_iff.mp ?_
            rw [head?_markLowerUpper, List.head?_cons]
          rw [htail, markAcronym_cons_cons_of_not hb]

end Marks

/-! ## The pieces between marks -/

section KeptPieces

variable {c d : Char} {l : List Char}

/-- The pieces that are left of a text with marks. -/
def keptPieces (l : List Char) : List (List Char) :=
  (piecesBetween wordMark (markOther false l)).filter fun piece => !piece.isEmpty

theorem wordsOf_eq_keptPieces (text : List Char) : wordsOf text = keptPieces (markCuts text) := by
  rw [wordsOf, markAcronym_markLowerUpper, keptPieces]

theorem piecesBetween_ne_nil (mark : Char) (l : List Char) : piecesBetween mark l ≠ [] := by
  unfold piecesBetween
  split
  · exact List.cons_ne_nil _ _
  · split
    · exact List.cons_ne_nil _ _
    · split <;> exact List.cons_ne_nil _ _

theorem piecesBetween_cons_of_ne {mark : Char} (h : c ≠ mark) :
    piecesBetween mark (c :: l) = (piecesBetween mark l).modifyHead (c :: ·) := by
  obtain ⟨piece, pieces, hpieces⟩ := List.exists_cons_of_ne_nil (piecesBetween_ne_nil mark l)
  rw [piecesBetween, if_neg h, hpieces, List.modifyHead_cons]

theorem ne_wordMark (h : c.isAlphanum = true) : c ≠ wordMark := by
  rintro rfl
  exact absurd h (by decide)

/-- A run of other characters leaves no piece, however it begins. -/
theorem keptPieces_cons_of_other (h : c.isAlphanum = false) : keptPieces (c :: l) = keptPieces l := by
  have hmark : keptPieces (c :: l) = (piecesBetween wordMark (markOther true l)).filter fun piece => !piece.isEmpty := by
    rw [keptPieces, markOther, h, if_neg Bool.false_ne_true, if_neg Bool.false_ne_true, piecesBetween, if_pos rfl]
    rfl
  rw [hmark]
  cases l with
  | nil => rfl
  | cons d rest =>
    by_cases hd : d.isAlphanum = true
    · rw [keptPieces, markOther, markOther, if_pos hd, if_pos hd]
    · rw [keptPieces, markOther, markOther, if_neg hd, if_neg hd, if_pos rfl, if_neg Bool.false_ne_true, piecesBetween,
        if_pos rfl]
      rfl

/-- A letter or digit with nothing of the kind after it is a piece. -/
theorem keptPieces_cons_of_ends (h : c.isAlphanum = true) (hl : ∀ d ∈ l.head?, d.isAlphanum = false) :
    keptPieces (c :: l) = [c] :: keptPieces l := by
  cases l with
  | nil => simp [keptPieces, markOther, piecesBetween, h, ne_wordMark h]
  | cons d rest =>
    have hd : d.isAlphanum = false := hl d rfl
    simp [keptPieces, markOther, piecesBetween, h, hd, ne_wordMark h]

/-- A letter or digit before another one belongs to the same piece. -/
theorem keptPieces_cons_of_goesOn (h : c.isAlphanum = true) (hl : ∃ d ∈ l.head?, d.isAlphanum = true) :
    keptPieces (c :: l) = (keptPieces l).modifyHead (c :: ·) := by
  obtain ⟨d, hhead, hd⟩ := hl
  obtain ⟨rest, rfl⟩ := List.head?_eq_some_iff.mp hhead
  obtain ⟨piece, pieces, hpieces⟩ :=
    List.exists_cons_of_ne_nil (piecesBetween_ne_nil wordMark (markOther false rest))
  simp only [keptPieces]
  rw [markOther, markOther, if_pos h, if_pos hd, piecesBetween_cons_of_ne (ne_wordMark h),
    piecesBetween_cons_of_ne (ne_wordMark hd), hpieces]
  rfl

end KeptPieces

/-! ## Words from the front of a text -/

section Front

variable {c d : Char} {l text : List Char}

theorem head?_markCuts (l : List Char) : (markCuts l).head? = l.head? := by
  unfold markCuts
  split
  · split <;> rfl
  · rfl

theorem wordsOf_cons_of_other (h : c.isAlphanum = false) : wordsOf (c :: l) = wordsOf l := by
  simp only [wordsOf_eq_keptPieces]
  cases l with
  | nil => exact keptPieces_cons_of_other h
  | cons d rest =>
    rw [markCuts]
    split
    · rw [keptPieces_cons_of_other h, keptPieces_cons_of_other (by decide)]
    · exact keptPieces_cons_of_other h

theorem wordsOf_cons_of_ends (h : c.isAlphanum = true) (hl : endsBefore c l = true) :
    wordsOf (c :: l) = [c] :: wordsOf l := by
  simp only [wordsOf_eq_keptPieces]
  cases l with
  | nil => exact keptPieces_cons_of_ends h fun d hd => absurd hd (Option.not_mem_none d)
  | cons d rest =>
    rw [markCuts]
    split
    · -- a cut: the mark ends the word
      rw [keptPieces_cons_of_ends h fun m hm => by rw [← Option.mem_some_iff.mp hm]; decide,
        keptPieces_cons_of_other (by decide)]
    · rename_i hcut
      -- no cut: the next character is no letter and no digit
      have hd : d.isAlphanum = false := by
        simpa [endsBefore, follows, h, hcut] using hl
      refine keptPieces_cons_of_ends h fun e he => ?_
      rw [head?_markCuts, List.head?_cons, Option.mem_some_iff] at he
      exact he ▸ hd

theorem wordsOf_cons_cons_of_follows (h : follows c d l.head? = true) :
    wordsOf (c :: d :: l) = (wordsOf (d :: l)).modifyHead (c :: ·) := by
  simp only [follows, Bool.and_eq_true, Bool.not_eq_true'] at h
  obtain ⟨⟨hc, hd⟩, hcut⟩ := h
  simp only [wordsOf_eq_keptPieces]
  rw [markCuts, hcut, if_neg Bool.false_ne_true]
  refine keptPieces_cons_of_goesOn hc ⟨d, ?_, hd⟩
  rw [head?_markCuts, List.head?_cons, Option.mem_some_iff]

/-- Texts are taken apart by what their first character is to the word at their front. -/
theorem front_induction {motive : List Char → Prop} (nil : motive [])
    (other : ∀ c l, c.isAlphanum = false → motive l → motive (c :: l))
    (ends : ∀ c l, c.isAlphanum = true → endsBefore c l = true → motive l → motive (c :: l))
    (goesOn : ∀ c d l, follows c d l.head? = true → motive (d :: l) → motive (c :: d :: l)) (text : List Char) :
    motive text := by
  induction text with
  | nil => exact nil
  | cons c l ih =>
    by_cases hc : c.isAlphanum = true
    · by_cases hl : endsBefore c l = true
      · exact ends c l hc hl ih
      · cases l with
        | nil => exact absurd rfl hl
        | cons d rest => exact goesOn c d rest (by simpa [endsBefore] using hl) ih
    · exact other c l (Bool.eq_false_iff.mpr hc) ih

end Front

/-! ## The runs of a text -/

section Runs

/-- Where two neighbours belong together, the first one is put before the run of the second one. -/
theorem splitBy_cons_cons_of_rel {α : Type} {r : α → α → Bool} {a b : α} {l : List α} (h : r a b = true) :
    (a :: b :: l).splitBy r = ((b :: l).splitBy r).modifyHead (a :: ·) := by
  obtain ⟨run, runs, heq⟩ := List.exists_cons_of_ne_nil (List.splitBy_ne_nil.mpr (List.cons_ne_nil b l))
  obtain ⟨hflatten, hnil, hruns, hborders⟩ := List.splitBy_eq_iff.mp heq
  rw [List.mem_cons, not_or] at hnil
  obtain ⟨first, tail, rfl⟩ := List.exists_cons_of_ne_nil fun hempty => hnil.1 hempty.symm
  obtain rfl : b = first := (List.cons.inj hflatten).1
  rw [heq, List.modifyHead_cons, List.splitBy_eq_iff]
  refine ⟨?_, ?_, ?_, ?_⟩
  · rw [List.flatten_cons, List.cons_append, ← List.flatten_cons, ← hflatten]
  · rw [List.mem_cons, not_or]
    exact ⟨(List.cons_ne_nil _ _).symm, hnil.2⟩
  · intro m hm
    rcases List.mem_cons.mp hm with rfl | hm
    · exact List.isChain_cons_cons.mpr ⟨h, hruns _ List.mem_cons_self⟩
    · exact hruns m (List.mem_cons_of_mem _ hm)
  · cases runs with
    | nil => exact List.isChain_singleton _
    | cons next runs =>
      obtain ⟨⟨_, hnext, hborder⟩, hrest⟩ := List.isChain_cons_cons.mp hborders
      refine List.isChain_cons_cons.mpr ⟨⟨List.cons_ne_nil _ _, hnext, ?_⟩, hrest⟩
      rw [List.getLast_cons (List.cons_ne_nil b tail)]
      exact hborder

variable {c d : Char} {l : List Char}

theorem runsOf_cons_of_ends (h : endsBefore c l = true) : runsOf (c :: l) = [c] :: runsOf l := by
  cases l with
  | nil => rfl
  | cons d rest =>
    have hborder : follows c d rest.head? = false := by simpa [endsBefore] using h
    have hsplit := List.splitBy_append_cons (r := fun x y : Char × Option Char => follows x.1 y.1 y.2)
      (l := [(c, some d)]) (a := (d, rest.head?)) (withNext rest) (by simpa using hborder)
    rw [runsOf, runsOf]
    exact congrArg (List.map fun run => run.map Prod.fst) hsplit

theorem runsOf_cons_cons_of_follows (h : follows c d l.head? = true) :
    runsOf (c :: d :: l) = (runsOf (d :: l)).modifyHead (c :: ·) := by
  have hsplit := splitBy_cons_cons_of_rel (r := fun x y : Char × Option Char => follows x.1 y.1 y.2)
    (a := (c, some d)) (b := (d, l.head?)) (l := withNext l) h
  rw [runsOf, runsOf, withNext, withNext, List.head?_cons, hsplit]
  cases List.splitBy (fun x y : Char × Option Char => follows x.1 y.1 y.2) ((d, l.head?) :: withNext l) with
  | nil => rfl
  | cons run runs => rfl

/-- A run that begins with a letter or digit has nothing else. -/
theorem runsOf_cons (d : Char) (l : List Char) :
    ∃ run runs, runsOf (d :: l) = (d :: run) :: runs ∧ (d.isAlphanum = true → run.all Char.isAlphanum = true) := by
  induction l generalizing d with
  | nil => exact ⟨[], [], rfl, fun _ => rfl⟩
  | cons e rest ih =>
    by_cases hfollows : follows d e rest.head? = true
    · obtain ⟨run, runs, heq, hrun⟩ := ih e
      refine ⟨e :: run, runs, ?_, fun _ => ?_⟩
      · rw [runsOf_cons_cons_of_follows hfollows, heq, List.modifyHead_cons]
      · have he : e.isAlphanum = true := by
          simp only [follows, Bool.and_eq_true] at hfollows
          exact hfollows.1.2
        rw [List.all_cons, he, hrun he, Bool.and_self]
    · have hends : endsBefore d (e :: rest) = true := by simpa [endsBefore] using hfollows
      exact ⟨[], runsOf (e :: rest), runsOf_cons_of_ends hends, fun _ => rfl⟩

theorem endsBefore_of_other (h : c.isAlphanum = false) : endsBefore c l = true := by
  cases l with
  | nil => rfl
  | cons d rest => simp [endsBefore, follows, h]

end Runs

/-! ## What the words are -/

/-- The words are the pieces of the text, cut where neighbours do not belong together. -/
theorem wordsOf_eq_cutWords (text : List Char) : wordsOf text = cutWords text := by
  induction text using front_induction with
  | nil => rfl
  | other c l hc ih =>
    rw [wordsOf_cons_of_other hc, ih, cutWords, cutWords, runsOf_cons_of_ends (endsBefore_of_other hc)]
    simp [hc]
  | ends c l hc hl ih =>
    rw [wordsOf_cons_of_ends hc hl, ih, cutWords, cutWords, runsOf_cons_of_ends hl]
    simp [hc]
  | goesOn c d l h ih =>
    rw [wordsOf_cons_cons_of_follows h, ih, cutWords, cutWords, runsOf_cons_cons_of_follows h]
    simp only [follows, Bool.and_eq_true] at h
    obtain ⟨run, runs, heq, hrun⟩ := runsOf_cons d l
    rw [heq]
    simp [h.1.1, h.1.2, hrun h.1.2]

/-- A text that begins with a letter or digit has a first word. -/
theorem wordsOf_cons_ne_nil {c : Char} {l : List Char} (h : c.isAlphanum = true) : wordsOf (c :: l) ≠ [] :=
  wordsOf_ne_nil List.mem_cons_self h

/-- No letter and no digit is lost, and nothing is added. -/
theorem flatten_wordsOf (text : List Char) : (wordsOf text).flatten = text.filter Char.isAlphanum := by
  induction text using front_induction with
  | nil => rfl
  | other c l hc ih =>
    rw [wordsOf_cons_of_other hc, ih, List.filter_cons_of_neg (Bool.eq_false_iff.mp hc)]
  | ends c l hc hl ih =>
    rw [wordsOf_cons_of_ends hc hl, List.flatten_cons, ih, List.filter_cons_of_pos hc, List.singleton_append]
  | goesOn c d l h ih =>
    have halpha := h
    simp only [follows, Bool.and_eq_true] at halpha
    obtain ⟨word, words, heq⟩ := List.exists_cons_of_ne_nil (wordsOf_cons_ne_nil (l := l) halpha.1.2)
    rw [wordsOf_cons_cons_of_follows h, List.filter_cons_of_pos halpha.1.1, ← ih, heq]
    rfl

/-- **Words are found exactly.** What a convention writes are the pieces of the text between characters that are no
ASCII letters or digits, cut further between a lower-case letter or digit and an upper-case letter, and before the
last of several upper-case letters that a lower-case one follows; put together they are the letters and digits of the
text. -/
theorem convert_writes_cutWords (text : String) :
    (∀ k : Convention, k.convert text = String.ofList (k.join (cutWords text.toList))) ∧
      wordsOf text.toList = cutWords text.toList ∧
      (cutWords text.toList).flatten = text.toList.filter Char.isAlphanum := by
  have hwords := wordsOf_eq_cutWords text.toList
  refine ⟨fun k => ?_, hwords, ?_⟩
  · rw [Convention.convert, hwords]
  · rw [← hwords]
    exact flatten_wordsOf text.toList

example :
    (cutWords "parseHTTPRequest2: x".toList).map String.ofList = ["parse", "HTTP", "Request2", "x"] := by decide

/-! ## Texts in parts -/

section Parts

variable {c d : Char} {after : Option Char} {l m word separator : List Char}

/-- A following character can add a cut, but takes none away. -/
theorem follows_eq_false_of_none (h : follows c d none = false) : follows c d after = false := by
  simp only [follows, Bool.and_eq_false_iff, Bool.not_eq_false'] at h ⊢
  refine h.imp_right fun hcut => ?_
  simp only [cutsBetween, Option.any_none, Bool.and_false, Bool.or_false] at hcut
  rw [cutsBetween, hcut, Bool.true_or]

/-- The last of several capitals starts a word only if a lower-case letter goes on with it. -/
theorem follows_of_endsBefore (h : follows c d none = true) (hm : endsBefore d m = true) :
    follows c d m.head? = true := by
  cases m with
  | nil => exact h
  | cons e rest =>
    simp only [follows, Bool.and_eq_true, Bool.not_eq_true'] at h ⊢
    refine ⟨h.1, Bool.eq_false_iff.mpr fun hcut => ?_⟩
    have hacronym : d.isUpper = true ∧ e.isLower = true := by
      have hnone := h.2
      simp only [cutsBetween, Option.any_none, Bool.and_false, Bool.or_false] at hnone
      simp only [cutsBetween, hnone, Bool.false_or, List.head?_cons, Option.any_some, Bool.and_eq_true] at hcut
      exact ⟨hcut.1.2, hcut.2⟩
    -- then `e` continues the word of `d`
    have he : e.isUpper = false := Bool.eq_false_iff.mpr (Char.not_isUpper_of_isLower hacronym.2)
    have halnum : e.isAlphanum = true := isAlphanum_of_isAlpha (isAlpha_of_isLower hacronym.2)
    simp [endsBefore, follows, h.1.2, halnum, cutsBetween_of_not_isUpper he] at hm

/-- **A text that is cut between two parts has the words of both.** -/
theorem wordsOf_append (h : ∀ c ∈ l.getLast?, endsBefore c m = true) : wordsOf (l ++ m) = wordsOf l ++ wordsOf m := by
  induction l using front_induction with
  | nil => rfl
  | other c l hc ih =>
    have hrest : ∀ e ∈ l.getLast?, endsBefore e m = true := fun e he => h e (List.mem_getLast?_cons he)
    rw [List.cons_append, wordsOf_cons_of_other hc, wordsOf_cons_of_other hc, ih hrest]
  | ends c l hc hl ih =>
    have hrest : ∀ e ∈ l.getLast?, endsBefore e m = true := fun e he => h e (List.mem_getLast?_cons he)
    have hends : endsBefore c (l ++ m) = true := by
      match l with
      | [] => exact h c rfl
      | [d] =>
        simp only [endsBefore, List.head?_nil, Bool.not_eq_true'] at hl
        simp only [List.cons_append, List.nil_append, endsBefore, Bool.not_eq_true']
        exact follows_eq_false_of_none hl
      | _ :: _ :: _ => exact hl
    rw [List.cons_append, wordsOf_cons_of_ends hc hends, wordsOf_cons_of_ends hc hl, ih hrest, List.cons_append]
  | goesOn c d l hfollows ih =>
    have hrest : ∀ e ∈ (d :: l).getLast?, endsBefore e m = true := fun e he => h e (List.mem_getLast?_cons he)
    have hgoesOn : follows c d (l ++ m).head? = true := by
      cases l with
      | nil => exact follows_of_endsBefore hfollows (h d rfl)
      | cons e rest => exact hfollows
    have hd : d.isAlphanum = true := by
      simp only [follows, Bool.and_eq_true] at hfollows
      exact hfollows.1.2
    obtain ⟨first, others, heq⟩ := List.exists_cons_of_ne_nil (wordsOf_cons_ne_nil (l := l) hd)
    rw [List.cons_append, List.cons_append, wordsOf_cons_cons_of_follows hgoesOn, wordsOf_cons_cons_of_follows hfollows,
      ← List.cons_append, ih hrest, heq]
    rfl

/-- Other characters at the front of a text belong to no word. -/
theorem wordsOf_append_of_others (h : ∀ c ∈ separator, c.isAlphanum = false) :
    wordsOf (separator ++ m) = wordsOf m := by
  induction separator with
  | nil => rfl
  | cons c rest ih =>
    rw [List.cons_append, wordsOf_cons_of_other (h c List.mem_cons_self),
      ih fun d hd => h d (List.mem_cons_of_mem c hd)]

/-- Letters and digits between which there is no cut are one word. -/
theorem wordsOf_eq_singleton (hne : word ≠ []) (halnum : ∀ c ∈ word, c.isAlphanum = true)
    (huncut : ∀ c d rest, c :: d :: rest <:+ word → cutsBetween c d rest.head? = false) : wordsOf word = [word] := by
  induction word with
  | nil => exact absurd rfl hne
  | cons c l ih =>
    cases l with
    | nil => exact wordsOf_cons_of_ends (halnum c List.mem_cons_self) rfl
    | cons d rest =>
      have hfollows : follows c d rest.head? = true := by
        rw [follows, halnum c List.mem_cons_self, halnum d (List.mem_cons_of_mem c List.mem_cons_self),
          huncut c d rest List.suffix_rfl]
        rfl
      have hrest : wordsOf (d :: rest) = [d :: rest] :=
        ih (List.cons_ne_nil _ _) (fun e he => halnum e (List.mem_cons_of_mem c he))
          fun e f l hsuffix => huncut e f l (hsuffix.trans (List.suffix_cons c _))
      rw [wordsOf_cons_cons_of_follows hfollows, hrest, List.modifyHead_cons]

end Parts

end AnyCase
