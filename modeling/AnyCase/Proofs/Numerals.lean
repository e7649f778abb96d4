import AnyCase.Json.Token
import AnyCase.Json.Writer
import AnyCase.Proofs.Numbering
import Mathlib.Data.List.TakeWhile

/-!
# `Proofs.Numerals` — whole numbers are read back

A whole number is written in decimal, after a dash if it is negative. It is read back if it has 64 bits
(`Json.numberToken?_intChars`): a numeral has no leading zeros (`Decimal.head?_numeral`), so it follows the grammar,
and its digits fit into a word as long as its number does (`Json.Numeral.fill_eq`).
-/

namespace AnyCase

/-- A numeral has no leading zeros. -/
theorem Decimal.head?_numeral {n : Nat} (h : 0 < n) : (numeral n).head? ≠ some '0' := by
  induction n using Nat.strongRecOn with
  | ind n ih =>
    unfold numeral
    by_cases hlt : n < 10
    · have hall : ∀ n < 10, 0 < n → (Nat.toDigits 10 n).head? ≠ some '0' := by decide
      exact hall n hlt h
    · -- the first digit is that of the number without its last one
      have hpos : 0 < n / 10 := Nat.div_pos (Nat.le_of_not_lt hlt) (by decide)
      have hhead := ih (n / 10) (Nat.div_lt_self h (by decide)) hpos
      rw [Nat.toDigits_of_base_le (by decide) (Nat.le_of_not_lt hlt), List.head?_append_of_ne_nil _ Nat.toDigits_ne_nil]
      exact hhead

namespace Json

/-- Whether a whole number has 64 bits, with a sign or without. -/
def FitsWord (i : Int) : Prop := -Int.pow 2 63 ≤ i ∧ i < Int.pow 2 64

instance (i : Int) : Decidable (FitsWord i) := inferInstanceAs (Decidable (_ ∧ _))

namespace Numeral

open Decimal

theorem le_ofDigitChars (ds : List Char) (word : Nat) : word ≤ Nat.ofDigitChars 10 ds word := by
  induction ds generalizing word with
  | nil => rw [Nat.ofDigitChars_nil]
  | cons d ds ih =>
    rw [Nat.ofDigitChars_cons]
    exact Nat.le_trans (by omega) (ih _)

/-- Digits have room in a word if their number has. -/
theorem fill_eq {word : Nat} {ds : List Char} (h : Nat.ofDigitChars 10 ds word < Nat.pow 2 64) :
    fill word ds = (Nat.ofDigitChars 10 ds word, []) := by
  induction ds generalizing word with
  | nil => rfl
  | cons d ds ih =>
    have hcons : Nat.ofDigitChars 10 (d :: ds) word = Nat.ofDigitChars 10 ds (Nat.ofDigitChars 10 [d] word) := by
      rw [← Nat.ofDigitChars_append, List.singleton_append]
    rw [hcons] at h ⊢
    rw [fill, if_pos (Nat.lt_of_le_of_lt (le_ofDigitChars ds _) h), ih h]

/-- The word of a numeral is its number. -/
theorem fill_numeral {n : Nat} (h : n < Nat.pow 2 64) : fill 0 (numeral n) = (n, []) := by
  have hvalue : Nat.ofDigitChars 10 (numeral n) 0 = n := value_numeral n
  rw [fill_eq (by rwa [hvalue]), hvalue]

/-- A numeral follows the grammar of numbers. -/
theorem unsigned?_numeral (negative : Bool) (n : Nat) :
    unsigned? negative (numeral n) = some ⟨negative, numeral n, none, none⟩ := by
  have hdigits : ∀ c ∈ numeral n, c.isDigit = true := fun c hc => isDigit_of_mem_numeral hc
  have hrun : digitRun? (numeral n) = some (numeral n, []) := by
    have htake : (numeral n).takeWhile Char.isDigit = numeral n := List.takeWhile_eq_self_iff.mpr hdigits
    have hdrop : (numeral n).dropWhile Char.isDigit = [] := List.dropWhile_eq_nil_iff.mpr hdigits
    have hne : (numeral n).isEmpty = false := List.isEmpty_eq_false_iff.mpr Nat.toDigits_ne_nil
    simp only [digitRun?, htake, hdrop, hne, Bool.false_eq_true, if_false]
  have hzero : (decide (1 < (numeral n).length) && decide ((numeral n).head? = some '0')) = false := by
    rcases Nat.eq_zero_or_pos n with rfl | hpos
    · rfl
    · rw [decide_eq_false (head?_numeral hpos), Bool.and_false]
  rw [unsigned?, hrun]
  show (if (decide (1 < (numeral n).length) && decide ((numeral n).head? = some '0')) = true then none else _) = _
  rw [hzero, if_neg Bool.false_ne_true]
  rfl

/-- A numeral does not begin with a sign. -/
theorem read?_numeral (n : Nat) : read? (numeral n) = some ⟨false, numeral n, none, none⟩ := by
  rw [← unsigned?_numeral false n]
  unfold read?
  split
  · rename_i rest heq
    have hmem : '-' ∈ numeral n := heq ▸ List.mem_cons_self
    exact absurd (isDigit_of_mem_numeral hmem) (by decide)
  · rfl

end Numeral

/-- **A whole number of 64 bits is read back.** -/
theorem numberToken?_intChars {i : Int} (h : FitsWord i) : numberToken? (intChars i) = some (.int i) := by
  obtain ⟨hlow, hhigh⟩ := h
  unfold numberToken?
  cases i with
  | ofNat n =>
    have hn : n < Nat.pow 2 64 := Int.ofNat_lt.mp hhigh
    have hint : Numeral.int? ⟨false, Decimal.numeral n, none, none⟩ = some (Int.ofNat n) := by
      simp [Numeral.int?, Numeral.fill_numeral hn]
    show ((Numeral.read? (Decimal.numeral n)).map _) = _
    rw [Numeral.read?_numeral, Option.map_some, hint]
  | negSucc n =>
    have hn : n + 1 ≤ Nat.pow 2 63 := Int.ofNat_le.mp (Int.neg_le_neg_iff.mp hlow)
    have hword : n + 1 < Nat.pow 2 64 := Nat.lt_of_le_of_lt hn (by decide)
    have hint : Numeral.int? ⟨true, Decimal.numeral (n + 1), none, none⟩ = some (Int.negSucc n) := by
      have hrange : 1 ≤ n + 1 ∧ n + 1 ≤ Nat.pow 2 63 := ⟨Nat.succ_pos n, hn⟩
      simp only [Numeral.int?, Numeral.fill_numeral hword]
      exact if_pos hrange
    show ((Numeral.unsigned? true (Decimal.numeral (n + 1))).map _) = _
    rw [Numeral.unsigned?_numeral, Option.map_some, hint]

end Json

end AnyCase
