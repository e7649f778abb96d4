import AnyCase.Proofs.Spelling

/-!
# `Proofs.ObjectText` — the text of an object, member by member

The text of an object is an opening bracket, the texts of its members with commas between them and a closing
bracket, with white space around and inside (`Margins.write`). A member is the text of a key, a colon and a value
(`Member`); since reading can be cut at punctuation, every object that follows the grammar is written like this
(`Json.exists_write`).

Whether such a text is accepted is settled member by member (`Json.read?_write`): each of them has to have values
for all of its tokens, and to be nested not too deep. If one of them fails, it does so wherever it stands.
-/

namespace AnyCase.Json

open Lexer

/-! ## Members -/

/-- A member of an object as it is written. The value is the one that the tokens spell, though some of them may
have no value of their own. -/
structure Member where
  text : List Char
  key : String
  value : Json
  tokens : List Token
  lexed : tokens? text = some tokens
  spelled : Spelled tokens (memberTokens (key, value))

namespace Member

/-- A member all of whose tokens have values. -/
def ofLexed (text : List Char) (key : String) (value : Json) (h : tokens? text = some (memberTokens (key, value))) :
    Member := ⟨text, key, value, _, h, List.forall₂_same.mpr fun t _ => .same t⟩

/-- The key and the value. -/
def entry (m : Member) : String × Json := (m.key, m.value)

/-- Whether a member can stand in a document that is read. -/
def Accepted (m : Member) : Prop := m.tokens.all Token.isSound = true ∧ m.value.depth < maxDepth

instance : DecidablePred Accepted := fun m =>
  inferInstanceAs (Decidable (m.tokens.all Token.isSound = true ∧ m.value.depth < maxDepth))

theorem tokens_of_isSound {m : Member} (h : m.tokens.all Token.isSound = true) : m.tokens = memberTokens m.entry :=
  eq_of_spelled m.spelled h

end Member

/-! ## Objects -/

/-- The white space before an object, behind its opening bracket and after it. -/
structure Margins where
  before : List Char
  inside : List Char
  after : List Char
  blank : (before ++ inside ++ after).all isBlank = true

namespace Margins

variable (margins : Margins)

theorem tokens?_before : tokens? margins.before = some [] :=
  tokens?_eq_nil_iff.mpr fun c hc => List.all_eq_true.mp margins.blank c (by simp [hc])

theorem isBlank_of_mem_inside : ∀ c ∈ margins.inside, isBlank c = true :=
  fun c hc => List.all_eq_true.mp margins.blank c (by simp [hc])

theorem tokens?_after : tokens? margins.after = some [] :=
  tokens?_eq_nil_iff.mpr fun c hc => List.all_eq_true.mp margins.blank c (by simp [hc])

/-- The text of the object with the given members. -/
def write (ms : List Member) : String :=
  String.ofList (margins.before ++ '{' ::
    (margins.inside ++ [','].intercalate (ms.map Member.text) ++ '}' :: margins.after))

end Margins

variable {ms ms' : List Member} {text : String} {members : List (String × Json)}

theorem tokens?_intercalate (ms : List Member) :
    tokens? ([','].intercalate (ms.map Member.text)) = some ([Token.comma].intercalate (ms.map Member.tokens)) := by
  induction ms with
  | nil => rfl
  | cons m rest ih =>
    cases rest with
    | nil =>
      rw [List.map_singleton, List.map_singleton, List.intercalate_singleton, List.intercalate_singleton]
      exact m.lexed
    | cons m' rest =>
      rw [List.map_cons, List.map_cons, List.intercalate_cons_cons, List.map_cons, List.map_cons,
        List.intercalate_cons_cons, List.append_assoc, List.append_assoc]
      exact (tokens?_eq_append_iff rfl).mpr ⟨m.text, ',', _, rfl, rfl, m.lexed, ih⟩

/-- The tokens of an object are those of its members, with commas between them. -/
theorem tokens?_write (margins : Margins) (ms : List Member) :
    tokens? (margins.write ms).toList
      = some (.openObj :: ([Token.comma].intercalate (ms.map Member.tokens) ++ [.closeObj])) := by
  have hinside : tokens? (margins.inside ++ [','].intercalate (ms.map Member.text))
      = some ([Token.comma].intercalate (ms.map Member.tokens)) := by
    rw [tokens?_blank_append margins.isBlank_of_mem_inside, tokens?_intercalate]
  have hrest := (tokens?_eq_append_iff rfl).mpr ⟨_, '}', _, rfl, rfl, hinside, margins.tokens?_after⟩
  rw [Margins.write, String.toList_ofList]
  show tokens? _ = some ([] ++ Token.openObj :: _)
  exact (tokens?_eq_append_iff rfl).mpr ⟨_, '{', _, rfl, rfl, margins.tokens?_before, hrest⟩

/-! ## Reading an object -/

theorem all_intercalate_comma (parts : List (List Token)) :
    ([Token.comma].intercalate parts).all Token.isSound = parts.all (·.all Token.isSound) := by
  induction parts with
  | nil => rfl
  | cons part rest ih =>
    cases rest with
    | nil => rw [List.intercalate_singleton, List.all_cons, List.all_nil, Bool.and_true]
    | cons part' rest =>
      have hcomma : [Token.comma].all Token.isSound = true := rfl
      rw [List.intercalate_cons_cons, List.all_append, List.all_append, hcomma, Bool.and_true, ih]
      rfl

theorem depthOfMembers_le_iff {d : Nat} : depthOfMembers members ≤ d ↔ ∀ e ∈ members, e.2.depth ≤ d := by
  induction members with
  | nil => simp [depthOfMembers]
  | cons e rest ih =>
    rw [depthOfMembers, Nat.max_le, ih, List.forall_mem_cons]

/-- **An object is read exactly if each of its members is accepted.** -/
theorem read?_write (margins : Margins) (ms : List Member) :
    read? (margins.write ms) = if ∀ m ∈ ms, m.Accepted then some (.obj (ms.map Member.entry)) else none := by
  have hall : (Token.openObj :: ([Token.comma].intercalate (ms.map Member.tokens) ++ [.closeObj])).all Token.isSound
      = ms.all (·.tokens.all Token.isSound) := by
    rw [List.all_cons, List.all_append, all_intercalate_comma, List.all_map]
    simp [Token.isSound, Function.comp_def]
  unfold read?
  rw [tokens?_write, Option.bind_eq_bind, Option.bind_some, hall]
  by_cases hsound : ms.all (·.tokens.all Token.isSound) = true
  · have htokens : ms.map Member.tokens = (ms.map Member.entry).map memberTokens := by
      rw [List.map_map]
      exact List.map_congr_left fun m hm => Member.tokens_of_isSound (List.all_eq_true.mp hsound m hm)
    have hvalue : ofTokens? (.openObj :: ([Token.comma].intercalate (ms.map Member.tokens) ++ [.closeObj]))
        = some (.obj (ms.map Member.entry)) := by
      rw [htokens, ← tokensOfMembers_eq, ← ofTokens?_tokensOf, tokensOf]
      rfl
    have hdepth : (Json.obj (ms.map Member.entry)).depth ≤ maxDepth ↔ ∀ m ∈ ms, m.Accepted := by
      rw [depth, Nat.add_one_le_iff, Nat.lt_iff_le_pred (by decide), depthOfMembers_le_iff, List.forall_mem_map]
      refine forall₂_congr fun m hm => ?_
      rw [Member.Accepted, and_iff_right (List.all_eq_true.mp hsound m hm), Nat.lt_iff_le_pred (by decide)]
      rfl
    rw [if_pos hsound, hvalue, Option.filter_some]
    simp only [hdepth, decide_eq_true_eq]
  · have hnot : ¬∀ m ∈ ms, m.Accepted := fun h => hsound (List.all_eq_true.mpr fun m hm => (h m hm).1)
    rw [if_neg hsound, if_neg hnot]

/-! ## Every object has members -/

/-- The texts of members are found where their tokens are. -/
theorem exists_members {inner : List Char} {tokens : List Token} (hinner : tokens? inner = some tokens)
    (hspelled : Spelled tokens ([Token.comma].intercalate (members.map memberTokens))) (hne : members ≠ []) :
    ∃ ms : List Member, [','].intercalate (ms.map Member.text) = inner ∧ ms.map Member.entry = members := by
  induction members generalizing inner tokens with
  | nil => exact absurd rfl hne
  | cons e rest ih =>
    cases rest with
    | nil =>
      rw [List.map_singleton, List.intercalate_singleton] at hspelled
      exact ⟨[⟨inner, e.1, e.2, tokens, hinner, hspelled⟩], by simp, rfl⟩
    | cons e' rest =>
      rw [List.map_cons, List.map_cons, List.intercalate_cons_cons, List.append_assoc] at hspelled
      obtain ⟨first, others, rfl, hfirst, hothers⟩ := exists_of_spelled_append hspelled rfl
      obtain ⟨a, c, b, rfl, hc, ha, hb⟩ := (tokens?_eq_append_iff rfl).mp hinner
      obtain rfl : c = ',' := punctuation?_inj hc rfl
      obtain ⟨ms, htext, hentries⟩ := ih hb hothers (List.cons_ne_nil _ _)
      refine ⟨⟨a, e.1, e.2, first, ha, hfirst⟩ :: ms, ?_, congrArg (e :: ·) hentries⟩
      have hms : ms ≠ [] := fun h => by simp [h] at hentries
      obtain ⟨m, ms', rfl⟩ := List.exists_cons_of_ne_nil hms
      rw [List.map_cons, List.map_cons, List.intercalate_cons_cons, ← List.map_cons, htext, List.append_assoc]
      rfl

/-- **Every object is written as its members.** -/
theorem exists_write (h : skim? text = some (.obj members)) :
    ∃ (margins : Margins) (ms : List Member), margins.write ms = text ∧ ms.map Member.entry = members := by
  obtain ⟨tokens, htokens, hvalue⟩ := Option.bind_eq_some_iff.mp h
  have hspelled := spelled_of_ofTokens? hvalue
  rw [tokensOf, tokensOfMembers_eq, List.cons_append, ← List.nil_append (Token.openObj :: _)] at hspelled
  -- first the brackets
  obtain ⟨front, rest, rfl, hfront, hrest⟩ := exists_of_spelled_append hspelled rfl
  obtain ⟨inner, back, rfl, hinner, hback⟩ := exists_of_spelled_append hrest rfl
  obtain rfl := List.forall₂_nil_right_iff.mp hfront
  obtain rfl := List.forall₂_nil_right_iff.mp hback
  obtain ⟨before, c, rest, heq, hc, hbefore, hrest⟩ := (tokens?_eq_append_iff rfl).mp htokens
  obtain ⟨inside, d, after, rfl, hd, hinside, hafter⟩ := (tokens?_eq_append_iff rfl).mp hrest
  obtain rfl : c = '{' := punctuation?_inj hc rfl
  obtain rfl : d = '}' := punctuation?_inj hd rfl
  have hblank : ∀ inside : List Char, tokens? inside = some [] → (before ++ inside ++ after).all isBlank = true := by
    intro inside hinside
    refine List.all_eq_true.mpr fun e he => ?_
    rw [List.mem_append, List.mem_append] at he
    rcases he with (he | he) | he
    · exact tokens?_eq_nil_iff.mp hbefore e he
    · exact tokens?_eq_nil_iff.mp hinside e he
    · exact tokens?_eq_nil_iff.mp hafter e he
  have htext : String.ofList (before ++ '{' :: (inside ++ '}' :: after)) = text := heq ▸ String.ofList_toList
  -- then what is between them
  by_cases hne : members = []
  · subst hne
    obtain rfl := List.forall₂_nil_right_iff.mp hinner
    refine ⟨⟨before, inside, after, hblank inside hinside⟩, [], ?_, rfl⟩
    rw [Margins.write, List.map_nil, List.intercalate_nil, List.append_nil, htext]
  · obtain ⟨ms, hms, hentries⟩ := exists_members hinside hinner hne
    refine ⟨⟨before, [], after, hblank [] rfl⟩, ms, ?_, hentries⟩
    rw [Margins.write, List.nil_append, hms, htext]

end AnyCase.Json
