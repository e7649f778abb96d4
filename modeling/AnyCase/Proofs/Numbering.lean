import AnyCase.Form.Numbering
import Mathlib.Data.List.MinMax

/-!
# `Proofs.Numbering` — the numbers of elements are read back from their ids

An id of an element is its group, a dash and a canonical numeral, so the group and the number are read
back from it (`numberOf?_eq_some_iff`, `idOf_group_inj`). A new number is not below the next one
(`issue_spec`), and after it the numbering goes on with the number behind it, unless it was the last one
(`next_ofNat_succ`). A numbering made from ids is above all of theirs, unless they have the last number
(`lt_next_after`).
-/

namespace AnyCase

/-- How many dashes a text has. No other character tells ids, the keys of labels and all other names
apart. -/
def dashes (s : String) : Nat := s.toList.count '-'

theorem dashes_append (s t : String) : dashes (s ++ t) = dashes s + dashes t := by
  simp [dashes, String.toList_append]

namespace Decimal

theorem value_numeral (n : Nat) : value (numeral n) = n := Nat.ofDigitChars_ten_toDigits

theorem numeral_inj {m n : Nat} (h : numeral m = numeral n) : m = n := by
  rw [← value_numeral m, h, value_numeral]

theorem isDigit_of_mem_numeral {n : Nat} {c : Char} (h : c ∈ numeral n) : c.isDigit = true :=
  Nat.isDigit_of_mem_toDigits (by decide) (by decide) h

theorem ofDigits?_numeral (n : Nat) : ofDigits? (numeral n) = some n := by
  have hne : numeral n ≠ [] := Nat.toDigits_ne_nil
  have hall : (numeral n).all Char.isDigit = true := by
    rw [List.all_eq_true]
    exact fun c hc => isDigit_of_mem_numeral hc
  rw [ofDigits?, hall, value_numeral]
  simp [hne]

/-- A canonical numeral is the numeral of its number. -/
theorem ofNumeral?_eq_some_iff {text : List Char} {n : Nat} :
    ofNumeral? text = some n ↔ text = numeral n := by
  rw [ofNumeral?, Option.filter_eq_some_iff]
  constructor
  · rintro ⟨-, h⟩
    exact (of_decide_eq_true h).symm
  · rintro rfl
    exact ⟨ofDigits?_numeral n, decide_eq_true rfl⟩

end Decimal

namespace Numbering

open Decimal

theorem toList_idOf (group : String) (n : Nat) :
    (idOf group n).toList = group.toList ++ '-' :: numeral n := by
  simp [idOf, String.toList_append]

theorem next_ofNat_succ {n : Nat} (h : n + 1 < limit) : (ofNat (n + 1)).next = n + 1 := Nat.mod_eq_of_lt h

theorem dashes_idOf (group : String) (n : Nat) : dashes (idOf group n) = dashes group + 1 := by
  have hnone : (numeral n).count '-' = 0 := by
    rw [List.count_eq_zero]
    exact fun h => absurd (isDigit_of_mem_numeral h) (by decide)
  rw [dashes, toList_idOf, List.count_append, List.count_cons_self, hnone]
  rfl

/-- An id is read back as the number it was made of, as long as that is a 64-bit word. -/
theorem numberOf?_eq_some_iff {group id : String} {n : Nat} :
    numberOf? group id = some n ↔ n < limit ∧ id = idOf group n := by
  rw [numberOf?, Option.filter_eq_some_iff, Option.bind_eq_some_iff]
  constructor
  · rintro ⟨⟨digits, hid, hn⟩, hlt⟩
    refine ⟨of_decide_eq_true hlt, String.toList_inj.mp ?_⟩
    rw [List.isPrefixOf?_eq_some_iff_append_eq] at hid
    rw [toList_idOf, ← hid, ofNumeral?_eq_some_iff.mp hn, List.append_assoc]
    rfl
  · rintro ⟨hlt, rfl⟩
    refine ⟨⟨numeral n, ?_, ofNumeral?_eq_some_iff.mpr rfl⟩, decide_eq_true hlt⟩
    rw [List.isPrefixOf?_eq_some_iff_append_eq, toList_idOf, List.append_assoc]
    rfl

/-- Within a group an id has one number. -/
theorem idOf_number_inj {group : String} {m n : Nat} (h : idOf group m = idOf group n) : m = n := by
  have hl : group.toList ++ '-' :: numeral m = group.toList ++ '-' :: numeral n := by
    rw [← toList_idOf, ← toList_idOf, h]
  exact numeral_inj (List.cons.inj (List.append_cancel_left hl)).2

/-- Groups without a dash in their names have no id in common. -/
theorem idOf_group_inj {group group' : String} {m n : Nat} (hg : dashes group = 0)
    (hg' : dashes group' = 0) (h : idOf group m = idOf group' n) : group = group' := by
  have hnot : ∀ {s : String}, dashes s = 0 → ∀ c ∈ s.toList, (c != '-') = true := by
    intro s hs c hc
    have hnone : '-' ∉ s.toList := List.count_eq_zero.mp hs
    exact bne_iff_ne.mpr fun he => hnone (he ▸ hc)
  -- the group is what stands before the first dash
  have htake : ∀ {s : String} (k : Nat), dashes s = 0 →
      (idOf s k).toList.takeWhile (· != '-') = s.toList := by
    intro s k hs
    rw [toList_idOf, List.takeWhile_append_of_pos (hnot hs)]
    simp
  exact String.toList_inj.mp (by rw [← htake m hg, h, htake n hg'])

/-! ## Handing out numbers -/

/-- A proposed id is taken if it is one of the group and its number is still free. -/
theorem take?_eq_some_iff {s s' : Numbering} {group proposed id : String} :
    s.take? group proposed = some (id, s') ↔
      ∃ n, n < limit ∧ s.next ≤ n ∧ proposed = idOf group n ∧ id = proposed ∧ s' = ofNat (n + 1) := by
  unfold take?
  constructor
  · intro h
    cases hn : numberOf? group proposed with
    | none => simp [hn] at h
    | some n =>
      obtain ⟨hlt, hid⟩ := numberOf?_eq_some_iff.mp hn
      simp only [hn] at h
      split at h
      · exact absurd h (by simp)
      · rename_i hle
        rw [Option.some.injEq, Prod.mk.injEq] at h
        exact ⟨n, hlt, Nat.le_of_not_lt hle, hid, h.1.symm, h.2.symm⟩
  · rintro ⟨n, hlt, hle, hid, rfl, rfl⟩
    have hn : numberOf? group id = some n := numberOf?_eq_some_iff.mpr ⟨hlt, hid⟩
    simp [hn, Nat.not_lt.mpr hle]

/-- A new element has the proposed id if that can be taken, and the next one if it cannot. -/
theorem issue_cases {s s' : Numbering} {group id : String} {proposed : Option String}
    (h : s.issue group proposed = (id, s')) :
    (∃ n, n < limit ∧ s.next ≤ n ∧ proposed = some id ∧ id = idOf group n ∧ s' = ofNat (n + 1)) ∨
      ((∀ n, n < limit → s.next ≤ n → proposed ≠ some (idOf group n)) ∧ id = idOf group s.next ∧
        s' = ofNat (s.next + 1)) := by
  unfold issue at h
  cases htake : proposed.bind (s.take? group) with
  | none =>
    rw [htake, Option.getD_none, fresh, Prod.mk.injEq] at h
    refine Or.inr ⟨fun n hlt hle hproposed => ?_, h.1.symm, h.2.symm⟩
    have htaken : s.take? group (idOf group n) = some (idOf group n, ofNat (n + 1)) :=
      take?_eq_some_iff.mpr ⟨n, hlt, hle, rfl, rfl, rfl⟩
    rw [hproposed, Option.bind_some, htaken] at htake
    exact absurd htake (by simp)
  | some taken =>
    rw [htake, Option.getD_some] at h
    subst h
    obtain ⟨name, hname, htaken⟩ := Option.bind_eq_some_iff.mp htake
    obtain ⟨n, hlt, hle, hid, rfl, hs'⟩ := take?_eq_some_iff.mp htaken
    exact Or.inl ⟨n, hlt, hle, hname, hid, hs'⟩

/-- A new element has a number that is not below the next one, and the numbering goes on after it. -/
theorem issue_spec {s s' : Numbering} {group id : String} {proposed : Option String}
    (h : s.issue group proposed = (id, s')) :
    ∃ n, n < limit ∧ s.next ≤ n ∧ id = idOf group n ∧ s' = ofNat (n + 1) := by
  rcases issue_cases h with ⟨n, hlt, hle, -, hid, hs'⟩ | ⟨-, hid, hs'⟩
  · exact ⟨n, hlt, hle, hid, hs'⟩
  · exact ⟨s.next, s.next_lt, Nat.le_refl _, hid, hs'⟩

/-! ## Numbers in ids -/

section Carried

variable {group id : String} {ids ids' : List String} {n : Nat}

/-- Whether a number is that of one of some ids. Numbers are words of 64 bits; an id with a greater one is
that of no element. -/
def Carried (group : String) (ids : List String) (n : Nat) : Prop := n < limit ∧ idOf group n ∈ ids

theorem carried_iff : Carried group ids n ↔ ∃ id ∈ ids, numberOf? group id = some n := by
  constructor
  · rintro ⟨hlt, hmem⟩
    exact ⟨_, hmem, numberOf?_eq_some_iff.mpr ⟨hlt, rfl⟩⟩
  · rintro ⟨id, hmem, hn⟩
    obtain ⟨hlt, rfl⟩ := numberOf?_eq_some_iff.mp hn
    exact ⟨hlt, hmem⟩

theorem Carried.mono (hsub : ids ⊆ ids') (h : Carried group ids n) : Carried group ids' n :=
  ⟨h.1, hsub h.2⟩

/-- Whether all numbers in some ids have a next one. -/
def InRange (group : String) (ids : List String) : Prop := ∀ n, Carried group ids n → n + 1 < limit

theorem inRange_iff : InRange group ids ↔ ∀ id ∈ ids, ∀ n ∈ numberOf? group id, n + 1 < limit := by
  constructor
  · exact fun h id hid n hn => h n (carried_iff.mpr ⟨id, hid, hn⟩)
  · rintro h n hn
    obtain ⟨id, hid, hnumber⟩ := carried_iff.mp hn
    exact h id hid n hnumber

instance (group : String) (ids : List String) : Decidable (InRange group ids) := decidable_of_iff _ inRange_iff.symm

theorem InRange.mono (h : InRange group ids') (hsub : ids ⊆ ids') : InRange group ids := fun n hn => h n (hn.mono hsub)

theorem foldr_max_mem (l : List Nat) : l.foldr max 0 = 0 ∨ l.foldr max 0 ∈ l := by
  induction l with
  | nil => exact Or.inl rfl
  | cons a rest ih =>
    rw [List.foldr_cons]
    rcases Nat.le_total (rest.foldr max 0) a with hle | hle
    · rw [Nat.max_eq_left hle]
      exact Or.inr List.mem_cons_self
    · rw [Nat.max_eq_right hle]
      exact ih.imp id (List.mem_cons_of_mem a)

/-- The numbers after those in some ids are words as well. -/
theorem next_after (h : InRange group ids) :
    (after group ids).next = ((ids.filterMap (numberOf? group)).map (· + 1)).foldr max 0 := by
  refine Nat.mod_eq_of_lt ?_
  rcases foldr_max_mem ((ids.filterMap (numberOf? group)).map (· + 1)) with hnone | hmem
  · rw [hnone]
    exact limit_pos
  · obtain ⟨n, hn, heq⟩ := List.mem_map.mp hmem
    obtain ⟨id, hid, hnumber⟩ := List.mem_filterMap.mp hn
    rw [← heq]
    exact h n (carried_iff.mpr ⟨id, hid, hnumber⟩)

/-- A numbering made from ids goes on with a number that is above all of theirs. -/
theorem lt_next_after (hrange : InRange group ids) (h : Carried group ids n) : n < (after group ids).next := by
  have hmem : n + 1 ∈ (ids.filterMap (numberOf? group)).map (· + 1) := by
    obtain ⟨id, hid, hn⟩ := carried_iff.mp h
    exact List.mem_map.mpr ⟨n, List.mem_filterMap.mpr ⟨id, hid, hn⟩, rfl⟩
  rw [next_after hrange]
  exact List.le_max_of_le' 0 hmem (Nat.le_refl _)

end Carried

end Numbering

end AnyCase
