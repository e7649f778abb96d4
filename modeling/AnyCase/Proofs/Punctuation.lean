import AnyCase.Json.Token
import Mathlib.Data.List.Induction

/-!
# `Proofs.Punctuation` — a text is cut where its tokens are

Brackets, commas and colons are characters of their own: whatever is being read is complete when one of them
comes, and reading begins anew after it. So the tokens of a text can be taken apart at punctuation exactly where
the text can (`Json.tokens?_eq_append_iff`): what stands before the character has the tokens before it, and what
stands behind it has the others.

What a step of the lexer can do is said once (`Lexer.step_cases`). A character that is punctuation completes the
tokens so far and adds its own; any other one adds tokens that are no punctuation, and a bracket inside a string is of
this second kind (`Lexer.punctuation_of_step`). A text without tokens is white space (`Json.tokens?_eq_nil_iff`).
-/

namespace AnyCase.Json

/-- Whether a token is written as one character, whatever stands beside it. -/
def Token.isPunctuation : Token → Bool
  | openArr | closeArr | openObj | closeObj | comma | colon => true
  | _ => false

namespace Lexer

variable {s s' : Lexer} {c : Char} {p : Token} {text : List Char} {tokens below done new : List Token}

/-! ## Tokens that are completed before -/

/-- A reading with other tokens completed before its own. -/
def onto (s : Lexer) (below : List Token) : Lexer := ⟨s.done ++ below, s.mode⟩

theorem stepBetween_onto (done below : List Token) (c : Char) :
    stepBetween (done ++ below) c = (stepBetween done c).map (·.onto below) := by
  unfold stepBetween
  split
  · rfl
  split
  · rfl
  split
  · rfl
  split
  · rfl
  cases punctuation? c <;> rfl

/-- What is read next does not depend on the tokens that are completed. -/
theorem step_onto (s : Lexer) (below : List Token) (c : Char) :
    (s.onto below).step c = (s.step c).map (·.onto below) := by
  obtain ⟨done, mode⟩ := s
  cases mode with
  | between => exact stepBetween_onto done below c
  | word letters =>
    simp only [onto, step]
    split
    · rfl
    · cases wordToken? letters.reverse with
      | none => rfl
      | some t => exact stepBetween_onto (t :: done) below c
  | number characters =>
    simp only [onto, step]
    split
    · rfl
    · cases numberToken? characters.reverse with
      | none => rfl
      | some t => exact stepBetween_onto (t :: done) below c
  | text units =>
    simp only [onto, step]
    split
    · rfl
    split
    · rfl
    split <;> rfl
  | escape units =>
    simp only [onto, step]
    split
    · rfl
    · cases shortEscape? c <;> rfl
  | unit units missing value =>
    simp only [onto, step]
    cases hexDigit? c with
    | none => rfl
    | some d =>
      simp only [Option.map_some]
      split <;> rfl

theorem foldlM_onto (text : List Char) (s : Lexer) (below : List Token) :
    text.foldlM step (s.onto below) = (text.foldlM step s).map (·.onto below) := by
  induction text generalizing s with
  | nil => rfl
  | cons c rest ih =>
    rw [List.foldlM_cons, List.foldlM_cons, step_onto]
    cases s.step c with
    | none => rfl
    | some s' => exact ih s'

theorem finish_onto (s : Lexer) (below : List Token) :
    (s.onto below).finish = s.finish.map (below.reverse ++ ·) := by
  obtain ⟨done, mode⟩ := s
  cases mode with
  | between => simp [onto, finish]
  | word letters => cases h : wordToken? letters.reverse <;> simp [onto, finish, h]
  | number characters => cases h : numberToken? characters.reverse <;> simp [onto, finish, h]
  | _ => rfl

theorem foldlM_singleton : [c].foldlM step s = s.step c := by
  rw [List.foldlM_cons]
  exact bind_pure (s.step c)

/-! ## One character -/

/-- Each punctuation mark has one character. -/
theorem punctuation?_inj {c' : Char} (h : punctuation? c = some p) (h' : punctuation? c' = some p) : c = c' := by
  unfold punctuation? at h
  split at h <;> cases h <;> unfold punctuation? at h' <;> split at h' <;> first | rfl | cases h'

/-- A punctuation mark does not begin or continue any other token. -/
theorem kind_of_punctuation? (h : punctuation? c = some p) :
    c.isLower = false ∧ isNumberChar c = false ∧ ∀ done, stepBetween done c = some ⟨p :: done, .between⟩ := by
  unfold punctuation? at h
  split at h <;> cases h <;> exact ⟨by decide, by decide, fun _ => rfl⟩

/-- **Punctuation completes what is being read.** -/
theorem step_of_punctuation? (h : s.finish = some tokens) (hc : punctuation? c = some p) :
    s.step c = some ⟨p :: tokens.reverse, .between⟩ := by
  obtain ⟨hlower, hnumber, hstep⟩ := kind_of_punctuation? hc
  obtain ⟨done, mode⟩ := s
  cases mode with
  | between =>
    obtain rfl := Option.some.inj h
    rw [List.reverse_reverse]
    exact hstep done
  | word letters =>
    obtain ⟨t, ht, rfl⟩ := Option.map_eq_some_iff.mp h
    simp only [step, hlower, Bool.false_eq_true, if_false, ht, Option.bind_some, List.reverse_reverse]
    exact hstep (t :: done)
  | number characters =>
    obtain ⟨t, ht, rfl⟩ := Option.map_eq_some_iff.mp h
    simp only [step, hnumber, Bool.false_eq_true, if_false, ht, Option.bind_some, List.reverse_reverse]
    exact hstep (t :: done)
  | _ => exact absurd h (by simp [finish])

theorem isPunctuation_stringToken (units : List Nat) : (stringToken units).isPunctuation = false := by
  unfold stringToken
  split <;> rfl

theorem isPunctuation_of_wordToken? {word : List Char} {t : Token} (h : wordToken? word = some t) :
    t.isPunctuation = false := by
  unfold wordToken? at h
  split at h
  · cases h; rfl
  split at h
  · cases h; rfl
  split at h <;> cases h
  rfl

theorem isPunctuation_of_numberToken? {spelling : List Char} {t : Token} (h : numberToken? spelling = some t) :
    t.isPunctuation = false := by
  obtain ⟨n, -, rfl⟩ := Option.map_eq_some_iff.mp h
  split <;> rfl

/-- What is complete at the end of a text are the tokens so far, and perhaps one more, which is no punctuation. -/
theorem done_of_finish (h : s.finish = some tokens) :
    ∃ new, tokens.reverse = new ++ s.done ∧ ∀ t ∈ new, t.isPunctuation = false := by
  obtain ⟨done, mode⟩ := s
  cases mode with
  | between =>
    obtain rfl := Option.some.inj h
    exact ⟨[], List.reverse_reverse done, by simp⟩
  | word letters =>
    obtain ⟨t, ht, rfl⟩ := Option.map_eq_some_iff.mp h
    exact ⟨[t], List.reverse_reverse _, by simpa using isPunctuation_of_wordToken? ht⟩
  | number characters =>
    obtain ⟨t, ht, rfl⟩ := Option.map_eq_some_iff.mp h
    exact ⟨[t], List.reverse_reverse _, by simpa using isPunctuation_of_numberToken? ht⟩
  | _ => exact absurd h (by simp [finish])

/-- A character between two tokens is white space, the first one of another token, or punctuation. -/
theorem stepBetween_cases (h : stepBetween done c = some s') :
    (isBlank c = true ∧ s' = ⟨done, .between⟩) ∨ (s'.done = done ∧ s'.mode ≠ .between) ∨
    ∃ p, punctuation? c = some p ∧ s' = ⟨p :: done, .between⟩ := by
  unfold stepBetween at h
  split at h
  · rename_i hblank
    exact .inl ⟨hblank, (Option.some.inj h).symm⟩
  split at h
  · cases h
    exact .inr (.inl ⟨rfl, by simp⟩)
  split at h
  · cases h
    exact .inr (.inl ⟨rfl, by simp⟩)
  split at h
  · cases h
    exact .inr (.inl ⟨rfl, by simp⟩)
  obtain ⟨p, hp, rfl⟩ := Option.map_eq_some_iff.mp h
  exact .inr (.inr ⟨p, hp, rfl⟩)

/-- **What one character does.** It stands behind a text that is complete, or it belongs to a token that is not
complete yet, or it closes a string. -/
theorem step_cases (h : s.step c = some s') :
    (∃ tokens, s.finish = some tokens ∧ stepBetween tokens.reverse c = some s') ∨
    (s'.done = s.done ∧ s'.mode ≠ .between) ∨
    ∃ units, s' = ⟨stringToken units :: s.done, .between⟩ := by
  obtain ⟨done, mode⟩ := s
  cases mode with
  | between => exact .inl ⟨done.reverse, rfl, by rw [List.reverse_reverse]; exact h⟩
  | word letters =>
    simp only [step] at h
    split at h
    · cases h
      exact .inr (.inl ⟨rfl, by simp⟩)
    · obtain ⟨t, ht, hstep⟩ := Option.bind_eq_some_iff.mp h
      exact .inl ⟨(t :: done).reverse, by simp [finish, ht], by rw [List.reverse_reverse]; exact hstep⟩
  | number characters =>
    simp only [step] at h
    split at h
    · cases h
      exact .inr (.inl ⟨rfl, by simp⟩)
    · obtain ⟨t, ht, hstep⟩ := Option.bind_eq_some_iff.mp h
      exact .inl ⟨(t :: done).reverse, by simp [finish, ht], by rw [List.reverse_reverse]; exact hstep⟩
  | text units =>
    simp only [step] at h
    split at h
    · cases h
      exact .inr (.inr ⟨units.reverse, rfl⟩)
    split at h
    · cases h
      exact .inr (.inl ⟨rfl, by simp⟩)
    split at h <;> cases h
    exact .inr (.inl ⟨rfl, by simp⟩)
  | escape units =>
    simp only [step] at h
    split at h
    · cases h
      exact .inr (.inl ⟨rfl, by simp⟩)
    · obtain ⟨u, -, rfl⟩ := Option.map_eq_some_iff.mp h
      exact .inr (.inl ⟨rfl, by simp⟩)
  | unit units missing value =>
    obtain ⟨d, -, rfl⟩ := Option.map_eq_some_iff.mp h
    exact .inr (.inl (by split <;> exact ⟨rfl, by simp⟩))

/-- Either a character is punctuation and stands behind a text that is complete, or the tokens that it completes are
no punctuation. -/
theorem punctuation_of_step (h : s.step c = some s') :
    (∃ tokens p, s.finish = some tokens ∧ punctuation? c = some p ∧ s' = ⟨p :: tokens.reverse, .between⟩) ∨
    ∃ new, s'.done = new ++ s.done ∧ ∀ t ∈ new, t.isPunctuation = false := by
  rcases step_cases h with ⟨tokens, hfinish, hstep⟩ | ⟨hdone, -⟩ | ⟨units, rfl⟩
  · rcases stepBetween_cases hstep with ⟨-, rfl⟩ | ⟨hdone, -⟩ | ⟨p, hp, rfl⟩
    · exact .inr (done_of_finish hfinish)
    · rw [hdone]
      exact .inr (done_of_finish hfinish)
    · exact .inl ⟨tokens, p, hfinish, hp, rfl⟩
  · exact .inr ⟨[], hdone, by simp⟩
  · exact .inr ⟨[_], rfl, by simpa using isPunctuation_stringToken units⟩

/-! ## White space -/

/-- White space between tokens is skipped. -/
theorem foldlM_blanks {blanks : List Char} (h : ∀ c ∈ blanks, isBlank c = true) (done : List Token) :
    blanks.foldlM step ⟨done, .between⟩ = some ⟨done, .between⟩ := by
  induction blanks with
  | nil => rfl
  | cons c rest ih =>
    have hstep : step ⟨done, .between⟩ c = some ⟨done, .between⟩ := if_pos (h c List.mem_cons_self)
    rw [List.foldlM_cons, hstep, Option.bind_eq_bind, Option.bind_some]
    exact ih fun d hd => h d (List.mem_cons_of_mem c hd)

theorem eq_start_of_finish (h : s.finish = some []) : s = start := by
  obtain ⟨done, mode⟩ := s
  cases mode with
  | between =>
    obtain rfl : done = [] := List.reverse_eq_nil_iff.mp (Option.some.inj h)
    rfl
  | word letters => cases hw : wordToken? letters.reverse <;> simp [finish, hw] at h
  | number characters => cases hn : numberToken? characters.reverse <;> simp [finish, hn] at h
  | _ => cases h

/-- Reading does not come back to where it began, except over white space. -/
theorem eq_start_of_step (h : s.step c = some start) : s = start ∧ isBlank c = true := by
  rcases step_cases h with ⟨tokens, hfinish, hstep⟩ | ⟨-, hmode⟩ | ⟨units, hstring⟩
  · rcases stepBetween_cases hstep with ⟨hblank, heq⟩ | ⟨-, hmode⟩ | ⟨p, -, heq⟩
    · have htokens : tokens = [] := List.reverse_eq_nil_iff.mp (congrArg Lexer.done heq).symm
      exact ⟨eq_start_of_finish (htokens ▸ hfinish), hblank⟩
    · exact absurd rfl hmode
    · cases heq
  · exact absurd rfl hmode
  · cases hstring

/-! ## Cutting a text -/

/-- A token that is not among those in front stands among the others, with the same ones behind it. -/
theorem exists_eq_append_cons {l later earlier : List Token} (h : new ++ l = later ++ p :: earlier)
    (hp : p ∉ new) : ∃ later', l = later' ++ p :: earlier := by
  rcases List.append_eq_append_iff.mp h with ⟨later', -, hl⟩ | ⟨between, hnew, hl⟩
  · exact ⟨later', hl⟩
  · cases between with
    | nil => exact ⟨[], hl.symm⟩
    | cons t rest =>
      obtain ⟨rfl, -⟩ := List.cons.inj hl
      exact absurd (hnew ▸ List.mem_append_right later List.mem_cons_self) hp

/-- **A punctuation mark that was read stands in the text**: before it the text is complete, and behind it the
reading goes on. -/
theorem exists_cut (h : text.foldlM step start = some s) {later earlier : List Token}
    (hdone : s.done = later ++ p :: earlier) (hp : p.isPunctuation = true) :
    ∃ a c b s₁, text = a ++ c :: b ∧ punctuation? c = some p ∧ a.foldlM step start = some s₁ ∧
      s₁.finish = some earlier.reverse ∧ b.foldlM step ⟨p :: earlier, .between⟩ = some s := by
  -- by the last character: it is the mark, or the mark was read before
  induction text using List.reverseRecOn generalizing s later with
  | nil =>
    obtain rfl := Option.some.inj h
    exact absurd hdone (by simp [start])
  | append_singleton text c ih =>
    rw [List.foldlM_append] at h
    obtain ⟨s₀, htext, hlast⟩ := Option.bind_eq_some_iff.mp h
    have hstep : s₀.step c = some s := foldlM_singleton ▸ hlast
    have hbefore : ∀ later', s₀.done = later' ++ p :: earlier →
        ∃ a d b s₁, text ++ [c] = a ++ d :: b ∧ punctuation? d = some p ∧ a.foldlM step start = some s₁ ∧
          s₁.finish = some earlier.reverse ∧ b.foldlM step ⟨p :: earlier, .between⟩ = some s := by
      intro later' hdone'
      obtain ⟨a, d, b, s₁, rfl, hd, ha, hfinish, hb⟩ := ih htext hdone'
      refine ⟨a, d, b ++ [c], s₁, by simp, hd, ha, hfinish, ?_⟩
      rw [List.foldlM_append, hb]
      exact hlast
    have hother : ∀ {new : List Token}, (∀ t ∈ new, t.isPunctuation = false) → p ∉ new := by
      intro new hnew hmem
      rw [hnew p hmem] at hp
      exact absurd hp Bool.false_ne_true
    rcases punctuation_of_step hstep with ⟨tokens, q, hfinish, hq, rfl⟩ | ⟨new, hnew, hnone⟩
    · cases later with
      | nil =>
        obtain ⟨rfl, rfl⟩ := List.cons.inj hdone
        exact ⟨text, c, [], s₀, rfl, hq, htext, by rw [List.reverse_reverse]; exact hfinish, rfl⟩
      | cons r later =>
        obtain ⟨-, htokens⟩ := List.cons.inj hdone
        obtain ⟨new, hnew, hnone⟩ := done_of_finish hfinish
        obtain ⟨later', hdone'⟩ := exists_eq_append_cons (hnew ▸ htokens) (hother hnone)
        exact hbefore later' hdone'
    · obtain ⟨later', hdone'⟩ := exists_eq_append_cons (hnew ▸ hdone) (hother hnone)
      exact hbefore later' hdone'

end Lexer

open Lexer

/-- **Tokens are taken apart at punctuation as texts are.** -/
theorem tokens?_eq_append_iff {text : List Char} {before behind : List Token} {p : Token}
    (hp : p.isPunctuation = true) :
    tokens? text = some (before ++ p :: behind) ↔
      ∃ a c b, text = a ++ c :: b ∧ punctuation? c = some p ∧ tokens? a = some before ∧ tokens? b = some behind := by
  have honto : ∀ b : List Char, b.foldlM step ⟨p :: before.reverse, .between⟩
      = (b.foldlM step start).map (·.onto (p :: before.reverse)) := fun b => foldlM_onto b start _
  constructor
  · intro h
    obtain ⟨s, hs, hfinish⟩ := Option.bind_eq_some_iff.mp h
    obtain ⟨new, hnew, hnone⟩ := done_of_finish hfinish
    rw [List.reverse_append, List.reverse_cons, List.append_assoc, List.singleton_append] at hnew
    have hother : p ∉ new := fun hmem => by simp [hnone p hmem] at hp
    obtain ⟨later, hdone⟩ := exists_eq_append_cons hnew.symm hother
    obtain ⟨a, c, b, s₁, rfl, hc, ha, hcomplete, hb⟩ := exists_cut hs hdone hp
    rw [List.reverse_reverse] at hcomplete
    refine ⟨a, c, b, rfl, hc, ?_, ?_⟩
    · rw [tokens?, ha]
      exact hcomplete
    · rw [honto] at hb
      obtain ⟨s₂, hs₂, rfl⟩ := Option.map_eq_some_iff.mp hb
      rw [finish_onto] at hfinish
      obtain ⟨tokens, htokens, heq⟩ := Option.map_eq_some_iff.mp hfinish
      rw [tokens?, hs₂, Option.bind_some, htokens]
      simpa using heq
  · rintro ⟨a, c, b, rfl, hc, ha, hb⟩
    obtain ⟨s₁, hs₁, hcomplete⟩ := Option.bind_eq_some_iff.mp ha
    obtain ⟨s₂, hs₂, hfinish⟩ := Option.bind_eq_some_iff.mp hb
    rw [tokens?, List.foldlM_append, hs₁, Option.bind_eq_bind, Option.bind_some, List.foldlM_cons,
      step_of_punctuation? hcomplete hc, Option.bind_eq_bind, Option.bind_some, honto, hs₂, Option.map_some,
      Option.bind_some, finish_onto, hfinish]
    simp

/-- **A text without tokens is white space.** -/
theorem tokens?_eq_nil_iff {text : List Char} : tokens? text = some [] ↔ ∀ c ∈ text, isBlank c = true := by
  constructor
  · intro h
    obtain ⟨s, hs, hfinish⟩ := Option.bind_eq_some_iff.mp h
    obtain rfl := eq_start_of_finish hfinish
    clear h hfinish
    induction text using List.reverseRecOn with
    | nil => exact fun c hc => absurd hc List.not_mem_nil
    | append_singleton text c ih =>
      rw [List.foldlM_append] at hs
      obtain ⟨s₀, htext, hlast⟩ := Option.bind_eq_some_iff.mp hs
      obtain ⟨rfl, hblank⟩ := eq_start_of_step (foldlM_singleton ▸ hlast)
      intro d hd
      rcases List.mem_append.mp hd with hd | hd
      · exact ih htext d hd
      · exact List.mem_singleton.mp hd ▸ hblank
  · intro h
    rw [tokens?, start, foldlM_blanks h]
    rfl

theorem tokens?_blank_append {blanks : List Char} (h : ∀ c ∈ blanks, isBlank c = true) (text : List Char) :
    tokens? (blanks ++ text) = tokens? text := by
  rw [tokens?, List.foldlM_append, start, foldlM_blanks h]
  rfl

end AnyCase.Json
