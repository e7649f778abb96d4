import Mathlib.Data.List.Induction
import Mathlib.Data.List.Nodup

/-!
# `Proofs.Occurrences` — lists without their repetitions

Of each element only the first occurrence stays. `FirstOccurrences` says so without telling how the list is found, and
it is met by the list that repetitions were erased from.
-/

namespace AnyCase

variable {α β : Type} [BEq α] [LawfulBEq α] [BEq β] [LawfulBEq β] {l l₁ l₂ : List α} {x : α}

/-- The elements of a list, each once, in the order in which they come first. -/
structure FirstOccurrences (l distinct : List α) : Prop where
  mem : ∀ x, x ∈ distinct ↔ x ∈ l
  nodup : distinct.Nodup
  ordered : distinct.Pairwise fun x y => l.idxOf x < l.idxOf y

/-- A last element stays if it is the first of its kind. -/
theorem eraseDups_concat (l : List α) (x : α) :
    (l ++ [x]).eraseDups = if x ∈ l then l.eraseDups else l.eraseDups ++ [x] := by
  rw [List.eraseDups_append, List.cons_removeAll]
  by_cases hx : x ∈ l
  · simp [hx]
  · simp [hx, List.eraseDups_cons]

theorem firstOccurrences_eraseDups (l : List α) : FirstOccurrences l l.eraseDups := by
  induction l using List.reverseRecOn with
  | nil => exact ⟨by simp, by simp, by simp⟩
  | append_singleton l x ih =>
    have hkept : ∀ y ∈ l.eraseDups, (l ++ [x]).idxOf y = l.idxOf y := fun y hy =>
      List.idxOf_append_of_mem ((ih.mem y).mp hy)
    have hordered : l.eraseDups.Pairwise fun y z => (l ++ [x]).idxOf y < (l ++ [x]).idxOf z := by
      refine ih.ordered.imp_of_mem fun hy hz hlt => ?_
      rwa [hkept _ hy, hkept _ hz]
    rw [eraseDups_concat]
    split
    · rename_i hx
      refine ⟨fun y => ?_, ih.nodup, hordered⟩
      rw [ih.mem, List.mem_append, List.mem_singleton]
      exact ⟨Or.inl, fun hy => hy.elim id fun heq => heq ▸ hx⟩
    · rename_i hx
      have hnew : ∀ y ∈ l.eraseDups, y ≠ x := fun y hy heq => hx (heq ▸ (ih.mem y).mp hy)
      refine ⟨fun y => by rw [List.mem_append, List.mem_append, ih.mem], ?_, ?_⟩
      · refine List.nodup_append'.mpr ⟨ih.nodup, List.nodup_singleton x, fun y hy hy' => ?_⟩
        exact hnew y hy (List.mem_singleton.mp hy')
      · refine List.pairwise_append.mpr ⟨hordered, List.pairwise_singleton _ x, fun y hy z hz => ?_⟩
        obtain rfl := List.mem_singleton.mp hz
        rw [hkept y hy, List.idxOf_append_of_notMem hx]
        exact Nat.lt_add_right _ (List.idxOf_lt_length_iff.mpr ((ih.mem y).mp hy))

theorem eraseDups_of_nodup (h : l.Nodup) : l.eraseDups = l := by
  induction l with
  | nil => rfl
  | cons y rest ih =>
    obtain ⟨hy, hrest⟩ := List.nodup_cons.mp h
    have hkept : rest.filter (fun z => !z == y) = rest := by
      rw [List.filter_eq_self]
      intro z hz
      have hne : z ≠ y := fun heq => hy (heq ▸ hz)
      simpa using hne
    rw [List.eraseDups_cons, hkept, ih hrest]

/-- An element that came before makes no difference. -/
theorem eraseDups_append_cons_of_mem (h : x ∈ l₁) : (l₁ ++ x :: l₂).eraseDups = (l₁ ++ l₂).eraseDups := by
  rw [List.eraseDups_append, List.eraseDups_append, List.cons_removeAll]
  simp [h]

/-- Repetitions of what is left out make no difference. -/
theorem eraseDups_filter (keep : α → Bool) (l : List α) : (l.filter keep).eraseDups = l.eraseDups.filter keep := by
  induction l using List.reverseRecOn with
  | nil => rfl
  | append_singleton l x ih =>
    rw [List.filter_append, eraseDups_concat]
    cases hkeep : keep x with
    | false =>
      rw [List.filter_cons_of_neg (by simp [hkeep]), List.filter_nil, List.append_nil, ih]
      split
      · rfl
      · rw [List.filter_append, List.filter_cons_of_neg (by simp [hkeep]), List.filter_nil, List.append_nil]
    | true =>
      have hmem : x ∈ l.filter keep ↔ x ∈ l := by simp [hkeep]
      rw [List.filter_cons_of_pos hkeep, List.filter_nil, eraseDups_concat, ih]
      simp only [hmem]
      split
      · rfl
      · rw [List.filter_append, List.filter_cons_of_pos hkeep, List.filter_nil]

/-- Nor do repetitions make a difference to images. -/
theorem eraseDups_map_eraseDups (f : α → β) (l : List α) : (l.eraseDups.map f).eraseDups = (l.map f).eraseDups := by
  induction l using List.reverseRecOn with
  | nil => rfl
  | append_singleton l x ih =>
    rw [eraseDups_concat, List.map_append, List.map_singleton, eraseDups_concat]
    split
    · rename_i hx
      rw [ih, if_pos (List.mem_map_of_mem hx)]
    · have hmem : f x ∈ l.eraseDups.map f ↔ f x ∈ l.map f := by simp
      rw [List.map_append, List.map_singleton, eraseDups_concat, ih]
      simp only [hmem]

end AnyCase
