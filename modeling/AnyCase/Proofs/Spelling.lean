import AnyCase.Proofs.Punctuation
import AnyCase.Proofs.Wire
import Mathlib.Data.List.Forall2

/-!
# `Proofs.Spelling` — what is read is spelled by its tokens

Tokens are read as a value only if they are the tokens of that value (`Json.spelled_of_ofTokens?`). The two lists
differ in tokens that have no value of their own (`Token.Shows`): a number out of range is read by its spelling, and
a key that names half of a surrogate pair as a replacement character. If all tokens are sound, they are equal
(`Json.eq_of_spelled`).

The reader is a machine with a stack. What it has consumed can be told from its state at any time
(`Reader.consumed`), and each step adds one token to it (`Reader.consumed_step`).
-/

namespace AnyCase.Json

/-! ## Tokens without a value -/

/-- Whether a token is read as another one would be. -/
inductive Token.Shows : Token → Token → Prop
  | same (t : Token) : Shows t t
  | real (spelling : String) (huge : Bool) : Shows (.real spelling huge) (.real spelling false)
  | torn : Shows .torn (.str "\uFFFD")

/-- Whether tokens are read as others would be, one by one. -/
def Spelled (tokens shown : List Token) : Prop := List.Forall₂ Token.Shows tokens shown

variable {t p : Token} {tokens shown before behind : List Token} {v : Json}

theorem Token.Shows.eq_of_isSound {t' : Token} (h : t.Shows t') (hsound : t.isSound = true) : t = t' := by
  cases h with
  | same => rfl
  | real spelling huge =>
    cases huge with
    | false => rfl
    | true => exact absurd hsound Bool.false_ne_true
  | torn => exact absurd hsound Bool.false_ne_true

theorem Token.Shows.eq_of_isPunctuation (h : t.Shows p) (hp : p.isPunctuation = true) : t = p := by
  cases h with
  | same => rfl
  | _ => exact absurd hp Bool.false_ne_true

/-- Sound tokens are read as themselves. -/
theorem eq_of_spelled (h : Spelled tokens shown) (hsound : tokens.all Token.isSound = true) : tokens = shown := by
  induction h with
  | nil => rfl
  | cons hhead _ ih =>
    rw [List.all_cons, Bool.and_eq_true] at hsound
    rw [hhead.eq_of_isSound hsound.1, ih hsound.2]

/-- Tokens are taken apart at punctuation as what they show. -/
theorem exists_of_spelled_append (h : Spelled tokens (before ++ p :: behind)) (hp : p.isPunctuation = true) :
    ∃ a b, tokens = a ++ p :: b ∧ Spelled a before ∧ Spelled b behind := by
  have hbefore := List.forall₂_take_append tokens before (p :: behind) h
  have hbehind := List.forall₂_drop_append tokens before (p :: behind) h
  obtain ⟨q, b, hq, hb, hdrop⟩ := List.forall₂_cons_right_iff.mp hbehind
  refine ⟨tokens.take before.length, b, ?_, hbefore, hb⟩
  rw [← hq.eq_of_isPunctuation hp, ← hdrop, List.take_append_drop]

/-! ## Members and items -/

/-- The tokens of a member. -/
def memberTokens (e : String × Json) : List Token := .str e.1 :: .colon :: tokensOf e.2

theorem tokensOfItems_eq (items : List Json) :
    tokensOfItems items = [Token.comma].intercalate (items.map tokensOf) := by
  induction items with
  | nil => rw [tokensOfItems, List.map_nil, List.intercalate_nil]
  | cons v rest ih =>
    cases rest with
    | nil => rw [tokensOfItems, List.map_singleton, List.intercalate_singleton]
    | cons w rest =>
      rw [tokensOfItems, ih, List.map_cons, List.map_cons, List.map_cons, List.intercalate_cons_cons]
      simp

theorem tokensOfMembers_eq (members : List (String × Json)) :
    tokensOfMembers members = [Token.comma].intercalate (members.map memberTokens) := by
  induction members with
  | nil => rw [tokensOfMembers, List.map_nil, List.intercalate_nil]
  | cons e rest ih =>
    cases rest with
    | nil => rw [tokensOfMembers, List.map_singleton, List.intercalate_singleton, memberTokens]
    | cons e' rest =>
      rw [tokensOfMembers, ih, List.map_cons, List.map_cons, List.map_cons, List.intercalate_cons_cons]
      simp [memberTokens]

/-- Parts of an array or object, with a comma behind each of them. -/
def followed (parts : List (List Token)) : List Token := parts.flatMap (· ++ [.comma])

@[simp] theorem followed_concat (parts : List (List Token)) (part : List Token) :
    followed (parts ++ [part]) = followed parts ++ part ++ [.comma] := by
  simp [followed]

/-- The last part has no comma behind it. -/
theorem intercalate_concat (parts : List (List Token)) (part : List Token) :
    [Token.comma].intercalate (parts ++ [part]) = followed parts ++ part := by
  induction parts with
  | nil => rw [List.nil_append, List.intercalate_singleton, followed, List.flatMap_nil, List.nil_append]
  | cons first rest ih =>
    have hne : rest ++ [part] ≠ [] := List.append_ne_nil_of_right_ne_nil rest (List.cons_ne_nil part [])
    obtain ⟨next, l, hl⟩ := List.exists_cons_of_ne_nil hne
    rw [List.cons_append, hl, List.intercalate_cons_cons, ← hl, ih, followed, followed, List.flatMap_cons,
      List.append_assoc _ _ part]

/-! ## What the reader has consumed -/

/-- The tokens of an unfinished array or object, up to the part that is being read. -/
def Frame.consumed : Frame → List Token
  | arr items => .openArr :: followed (items.reverse.map tokensOf)
  | obj members key => .openObj :: followed (members.reverse.map memberTokens) ++ [.str key, .colon]

/-- The tokens of all unfinished arrays and objects, the innermost coming first in the stack. -/
def stackTokens (stack : List Frame) : List Token := stack.reverse.flatMap Frame.consumed

theorem stackTokens_cons (frame : Frame) (stack : List Frame) :
    stackTokens (frame :: stack) = stackTokens stack ++ frame.consumed := by
  simp [stackTokens]

namespace Reader

variable {s s' : Reader} {stack : List Frame} {members : List (String × Json)}

/-- The tokens that lead to a state, up to those that show others. -/
def consumed : Reader → List Token
  | value stack => stackTokens stack
  | firstItem stack => stackTokens stack ++ [.openArr]
  | firstKey stack => stackTokens stack ++ [.openObj]
  | key members stack => stackTokens stack ++ .openObj :: followed (members.reverse.map memberTokens)
  | colon members k stack => stackTokens stack ++ .openObj :: followed (members.reverse.map memberTokens) ++ [.str k]
  | after v stack => stackTokens stack ++ tokensOf v

theorem consumed_begin (h : begin stack t = some s') :
    ∃ t', t.Shows t' ∧ s'.consumed = stackTokens stack ++ [t'] := by
  cases t with
  | real spelling huge =>
    cases h
    exact ⟨_, .real spelling huge, by rw [consumed, tokensOf]⟩
  | openArr | openObj =>
    cases h
    exact ⟨_, .same _, rfl⟩
  | null | bool | int | str | torn =>
    cases h
    exact ⟨_, .same _, by rw [consumed, tokensOf]⟩
  | _ => cases h

theorem consumed_readKey (h : readKey members stack t = some s') :
    ∃ t', t.Shows t' ∧ s'.consumed = (key members stack).consumed ++ [t'] := by
  cases t with
  | str text =>
    cases h
    exact ⟨_, .same _, rfl⟩
  | torn =>
    rw [readKey] at h
    split at h
    · cases h
    · cases h
      exact ⟨_, .torn, rfl⟩
  | _ => cases h

/-- **A step consumes one token.** -/
theorem consumed_step (h : s.step t = some s') : ∃ t', t.Shows t' ∧ s'.consumed = s.consumed ++ [t'] := by
  cases s with
  | value stack => exact consumed_begin h
  | firstItem stack =>
    have hopen : (firstItem stack).consumed = stackTokens (.arr [] :: stack) := by
      rw [stackTokens_cons]
      rfl
    have hitem : ∀ {t}, begin (.arr [] :: stack) t = some s' →
        ∃ t', t.Shows t' ∧ s'.consumed = (firstItem stack).consumed ++ [t'] := fun h => by
      rw [hopen]
      exact consumed_begin h
    cases t with
    | closeArr =>
      cases h
      exact ⟨_, .same _, by simp [consumed, tokensOf, tokensOfItems]⟩
    | _ => exact hitem h
  | firstKey stack =>
    have hkey : ∀ {t}, readKey [] stack t = some s' →
        ∃ t', t.Shows t' ∧ s'.consumed = (firstKey stack).consumed ++ [t'] := fun h => consumed_readKey h
    cases t with
    | closeObj =>
      cases h
      exact ⟨_, .same _, by simp [consumed, tokensOf, tokensOfMembers]⟩
    | _ => exact hkey h
  | key members stack => exact consumed_readKey h
  | colon members k stack =>
    cases t with
    | colon =>
      cases h
      exact ⟨_, .same _, by simp [consumed, stackTokens_cons, Frame.consumed]⟩
    | _ => cases h
  | after v stack =>
    cases stack with
    | nil => cases h
    | cons frame stack =>
      cases frame with
      | arr items =>
        cases t with
        | comma =>
          cases h
          exact ⟨_, .same _, by simp [consumed, stackTokens_cons, Frame.consumed]⟩
        | closeArr =>
          cases h
          exact ⟨_, .same _, by
            simp [consumed, stackTokens_cons, Frame.consumed, tokensOf, tokensOfItems_eq, intercalate_concat]⟩
        | _ => cases h
      | obj members k =>
        cases t with
        | comma =>
          cases h
          exact ⟨_, .same _, by simp [consumed, stackTokens_cons, Frame.consumed, memberTokens]⟩
        | closeObj =>
          cases h
          exact ⟨_, .same _, by
            simp [consumed, stackTokens_cons, Frame.consumed, tokensOf, tokensOfMembers_eq, intercalate_concat,
              memberTokens]⟩
        | _ => cases h

theorem consumed_foldlM (h : tokens.foldlM step s = some s') :
    ∃ shown, Spelled tokens shown ∧ s'.consumed = s.consumed ++ shown := by
  induction tokens generalizing s with
  | nil =>
    obtain rfl := Option.some.inj h
    exact ⟨[], .nil, (List.append_nil _).symm⟩
  | cons t rest ih =>
    rw [List.foldlM_cons] at h
    obtain ⟨s₁, hs₁, hrest⟩ := Option.bind_eq_some_iff.mp h
    obtain ⟨t', ht', hconsumed⟩ := consumed_step hs₁
    obtain ⟨shown, hshown, hconsumed'⟩ := ih hrest
    refine ⟨t' :: shown, .cons ht' hshown, ?_⟩
    rw [hconsumed', hconsumed, List.append_assoc, List.singleton_append]

end Reader

/-- **Tokens that are read as a value are the tokens of the value.** -/
theorem spelled_of_ofTokens? (h : ofTokens? tokens = some v) : Spelled tokens (tokensOf v) := by
  obtain ⟨s, hs, hfinish⟩ := Option.bind_eq_some_iff.mp h
  obtain ⟨shown, hshown, hconsumed⟩ := Reader.consumed_foldlM hs
  cases s with
  | after w stack =>
    cases stack with
    | nil =>
      obtain rfl := Option.some.inj hfinish
      have heq : tokensOf w = shown := hconsumed
      rw [heq]
      exact hshown
    | cons frame stack => cases hfinish
  | _ => cases hfinish

end AnyCase.Json
