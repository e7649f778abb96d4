import AnyCase.Form.Group
import AnyCase.History
import AnyCase.Store
import Mathlib.Data.List.Nodup

/-!
# `Proofs.Store` — what is stored is read back

A store answers by `raw?`, and everything that is read from it goes through that. This module says how each
way of changing a store changes the answers, and that the three kinds of values that a panel stores, which
are texts, flags and lists of texts, are read as what they were.

A history is cut and freed of repetitions when it is read; doing so twice makes no difference
(`History.ofList_ofList`).
-/

namespace AnyCase

/-! ## Maps and lists -/

namespace Dict

variable {α : Type} {d : Dict α} {l : List (String × α)} {k : String} {v : α}

theorem get?_insertAll_of_not_mem (h : k ∉ l.map (·.1)) : (d.insertAll l).get? k = d.get? k := by
  induction l generalizing d with
  | nil => rfl
  | cons e rest ih =>
    rw [List.map_cons, List.mem_cons, not_or] at h
    show ((d.insert e.1 e.2).insertAll rest).get? k = d.get? k
    rw [ih h.2, get?_insert, if_neg h.1]

/-- Every answer of a map made from a list is an entry of the list. -/
theorem mem_of_get?_insertAll (h : (d.insertAll l).get? k = some v) : (k, v) ∈ l ∨ d.get? k = some v := by
  induction l generalizing d with
  | nil => exact Or.inr h
  | cons e rest ih =>
    rcases ih (show ((d.insert e.1 e.2).insertAll rest).get? k = some v from h) with hrest | hold
    · exact Or.inl (List.mem_cons_of_mem _ hrest)
    · rw [get?_insert] at hold
      split at hold
      · rename_i hk
        rw [hk, ← Option.some.inj hold]
        exact Or.inl List.mem_cons_self
      · exact Or.inr hold

theorem mem_of_get?_ofList (h : (ofList l).get? k = some v) : (k, v) ∈ l :=
  (mem_of_get?_insertAll h).resolve_right (by simp)

/-- Where keys are distinct, every entry of the list is an answer. -/
theorem get?_insertAll_of_mem (hd : (l.map (·.1)).Nodup) (h : (k, v) ∈ l) :
    (d.insertAll l).get? k = some v := by
  induction l generalizing d with
  | nil => exact absurd h List.not_mem_nil
  | cons e rest ih =>
    rw [List.map_cons, List.nodup_cons] at hd
    rcases List.mem_cons.mp h with rfl | hrest
    · show ((d.insert k v).insertAll rest).get? k = some v
      rw [get?_insertAll_of_not_mem hd.1, get?_insert, if_pos rfl]
    · exact ih hd.2 hrest

theorem get?_ofList_of_mem (hd : (l.map (·.1)).Nodup) (h : (k, v) ∈ l) : (ofList l).get? k = some v :=
  get?_insertAll_of_mem hd h

/-- Where keys are distinct, a map does not depend on the order in which it is listed. -/
theorem ofList_perm {l' : List (String × α)} (h : l'.Perm l) (hd : (l.map (·.1)).Nodup) : ofList l' = ofList l := by
  have hd' : (l'.map (·.1)).Nodup := (h.map (·.1)).nodup_iff.mpr hd
  refine ext fun k => Option.ext fun v => ⟨fun hv => ?_, fun hv => ?_⟩
  · exact get?_ofList_of_mem hd (h.mem_iff.mp (mem_of_get?_ofList hv))
  · exact get?_ofList_of_mem hd' (h.mem_iff.mpr (mem_of_get?_ofList hv))

theorem contains_insertAll_iff : (d.insertAll l).contains k = true ↔ k ∈ l.map (·.1) ∨ d.contains k = true := by
  induction l generalizing d with
  | nil => simp [insertAll]
  | cons e rest ih =>
    show ((d.insert e.1 e.2).insertAll rest).contains k = true ↔ _
    rw [ih, List.map_cons, List.mem_cons, contains, get?_insert, contains]
    by_cases hk : k = e.1
    · simp [hk]
    · simp [hk]

/-- A map that is made from a list has the keys that are listed. -/
theorem contains_ofList_iff : (ofList l).contains k = true ↔ k ∈ l.map (·.1) := by
  unfold ofList
  rw [contains_insertAll_iff]
  simp [contains]

/-- The keys of a map are distinct. -/
theorem keys_nodup (d : Dict α) : (d.toList.map (·.1)).Nodup := by
  rw [List.Nodup, List.pairwise_map]
  refine d.increasing.imp fun {e e'} (hlt : e.1 < e'.1) (heq : e.1 = e'.1) => ?_
  rw [heq] at hlt
  exact String.lt_irrefl _ hlt

theorem find?_of_mem {l : List (String × α)} {k : String} {v : α} (hd : (l.map (·.1)).Nodup)
    (h : (k, v) ∈ l) : find? k l = some v := by
  induction l with
  | nil => exact absurd h List.not_mem_nil
  | cons e rest ih =>
    rw [List.map_cons, List.nodup_cons] at hd
    rcases List.mem_cons.mp h with rfl | hrest
    · rw [find?, if_pos rfl]
    · have hne : k ≠ e.1 := fun heq => hd.1 (heq ▸ List.mem_map_of_mem hrest)
      rw [find?, if_neg hne, ih hd.2 hrest]

theorem mem_of_find? {l : List (String × α)} {k : String} {v : α} (h : find? k l = some v) :
    (k, v) ∈ l := by
  induction l with
  | nil => exact absurd h (by simp [find?])
  | cons e rest ih =>
    rw [find?] at h
    split at h
    · rename_i hk
      rw [hk, ← Option.some.inj h]
      exact List.mem_cons_self
    · exact List.mem_cons_of_mem _ (ih h)

/-- An entry of a map is what it answers. -/
theorem get?_of_mem_toList {d : Dict α} {k : String} {v : α} (h : (k, v) ∈ d.toList) :
    d.get? k = some v :=
  find?_of_mem d.keys_nodup h

theorem mem_of_mem_toList_ofList {e : String × α} (h : e ∈ (ofList l).toList) : e ∈ l :=
  mem_of_get?_ofList (get?_of_mem_toList h)

/-- A map is made of its own entries. -/
theorem ofList_toList (d : Dict α) : ofList d.toList = d := by
  refine ext fun k => ?_
  cases hk : d.get? k with
  | some v => exact get?_ofList_of_mem d.keys_nodup (mem_of_find? hk)
  | none =>
    rw [Option.eq_none_iff_forall_ne_some]
    intro v hv
    rw [get?_of_mem_toList (mem_of_get?_ofList hv)] at hk
    exact absurd hk (by simp)

end Dict

/-! ## Lists of texts -/

namespace Json

@[simp] theorem texts?_ofTexts (texts : List String) : (ofTexts texts).texts? = some texts := by
  unfold ofTexts texts?
  induction texts with
  | nil => rfl
  | cons t rest ih =>
    simp only [List.map_cons, List.mapM_cons] at ih ⊢
    rw [ih]
    rfl

theorem settledItems_eq_self {items : List Json} (h : ∀ v ∈ items, v.settled = v) : settledItems items = items := by
  induction items with
  | nil => rfl
  | cons v rest ih =>
    obtain ⟨hv, hrest⟩ := List.forall_mem_cons.mp h
    rw [settledItems, hv, ih hrest]

@[simp] theorem settled_ofTexts (texts : List String) : (ofTexts texts).settled = ofTexts texts := by
  rw [ofTexts, settled, settledItems_eq_self (List.forall_mem_map.mpr fun _ _ => rfl)]

end Json

/-! ## Stores -/

namespace Store

variable {s s' : Store} {key k : String} {v : Json}

theorem raw?_set (s : Store) (key : String) (v : Json) (k : String) :
    (s.set key v).raw? k = if k = key then some v.settled else s.raw? k :=
  Dict.get?_insert s.values key k v.settled

theorem raw?_delete (s : Store) (key k : String) :
    (s.delete key).raw? k = if k = key then none else s.raw? k :=
  Dict.get?_erase s.values key k

theorem raw?_set_of_ne (h : k ≠ key) : (s.set key v).raw? k = s.raw? k := by
  rw [raw?_set, if_neg h]

theorem raw?_delete_of_ne (h : k ≠ key) : (s.delete key).raw? k = s.raw? k := by
  rw [raw?_delete, if_neg h]

/-- What is read at a key depends on the answer at that key only. -/
theorem get_congr {α : Type} (h : s'.raw? k = s.raw? k) (read : Json → Option α) (default : α) :
    s'.get k read default = s.get k read default := by
  rw [get, get, h]

theorem contains_congr (h : s'.raw? k = s.raw? k) : s'.contains k = s.contains k := by
  rw [contains, contains, h]

theorem get_of_raw? {α : Type} (h : s.raw? k = some v) (read : Json → Option α) (default : α) :
    s.get k read default = (read v).getD default := by
  rw [get, h, Option.bind_some]

theorem get_of_raw?_eq_none {α : Type} (h : s.raw? k = none) (read : Json → Option α) (default : α) :
    s.get k read default = default := by
  rw [get, h]
  rfl

/-- A store with the values of checkboxes set. -/
def setValues (s : Store) (members : List Checkbox) : Store :=
  members.foldl (fun s c => s.set c.id (.bool c.selected)) s

theorem raw?_setValues_of_not_mem {members : List Checkbox} (h : k ∉ members.map (·.id)) :
    (s.setValues members).raw? k = s.raw? k := by
  induction members generalizing s with
  | nil => rfl
  | cons c rest ih =>
    rw [List.map_cons, List.mem_cons, not_or] at h
    show ((s.set c.id (.bool c.selected)).setValues rest).raw? k = s.raw? k
    rw [ih h.2, raw?_set_of_ne h.1]

/-- Setting the values of checkboxes sets that of each, if it is the same wherever its id stands. -/
theorem raw?_setValues {members : List Checkbox} {c : Checkbox}
    (hagree : ∀ d ∈ members, d.id = c.id → d.selected = c.selected)
    (h : c ∈ members ∨ s.raw? c.id = some (.bool c.selected)) :
    (s.setValues members).raw? c.id = some (.bool c.selected) := by
  induction members generalizing s with
  | nil => exact h.resolve_left List.not_mem_nil
  | cons d rest ih =>
    refine ih (fun e he => hagree e (List.mem_cons_of_mem _ he)) ?_
    rw [raw?_set]
    by_cases hid : c.id = d.id
    · right
      rw [if_pos hid, hagree d List.mem_cons_self hid.symm]
      rfl
    · rw [if_neg hid]
      refine h.imp_left fun hmem => ?_
      exact (List.mem_cons.mp hmem).resolve_left fun heq => hid (congrArg Checkbox.id heq)

theorem raw?_setValues_of_mem {members : List Checkbox} (hd : (members.map (·.id)).Nodup)
    {c : Checkbox} (h : c ∈ members) :
    (s.setValues members).raw? c.id = some (.bool c.selected) := by
  refine raw?_setValues (fun d hdm hid => ?_) (Or.inl h)
  rw [List.inj_on_of_nodup_map hd hdm h hid]

end Store

/-! ## Histories -/

namespace History

/-- What pushing keeps: no text is empty, none stands twice, and there are not too many. -/
def Clean (capacity : Nat) (h : History) : Prop :=
  "" ∉ h.entries ∧ h.entries.Nodup ∧ h.entries.length ≤ capacity

theorem clean_push {capacity : Nat} {h : History} (hclean : h.Clean capacity) (text : String) :
    (h.push capacity text).Clean capacity := by
  unfold push
  split
  · exact hclean
  · rename_i hne
    obtain ⟨hempty, hnodup, -⟩ := hclean
    have hsub : (text :: h.entries.filter (fun e => e ≠ text)).Nodup := by
      refine List.nodup_cons.mpr ⟨?_, hnodup.sublist List.filter_sublist⟩
      intro hmem
      simp at hmem
    refine ⟨?_, hsub.sublist (List.take_sublist _ _), List.length_take_le _ _⟩
    intro hmem
    rcases List.mem_cons.mp (List.mem_of_mem_take hmem) with heq | hmem
    · exact hne heq.symm
    · exact hempty (List.mem_filter.mp hmem).1

theorem clean_ofList (capacity : Nat) (texts : List String) : (ofList capacity texts).Clean capacity := by
  unfold ofList
  induction texts with
  | nil => exact ⟨List.not_mem_nil, List.nodup_nil, Nat.zero_le _⟩
  | cons text rest ih => exact clean_push ih text

/-- A clean history is rebuilt from its own texts. -/
theorem Clean.ofList_entries {capacity : Nat} {texts : List String}
    (h : Clean capacity ⟨texts⟩) : ofList capacity texts = ⟨texts⟩ := by
  induction texts with
  | nil => rfl
  -- pushing the first text finds no repetition in the rest and cuts nothing off
  | cons text rest ih =>
    obtain ⟨hempty, hnodup, hlength⟩ := h
    rw [List.mem_cons, not_or] at hempty
    rw [List.nodup_cons] at hnodup
    have hrest : ofList capacity rest = ⟨rest⟩ :=
      ih ⟨hempty.2, hnodup.2, Nat.le_of_succ_le hlength⟩
    have hfilter : rest.filter (fun e => e ≠ text) = rest := by
      rw [List.filter_eq_self]
      intro e he
      exact decide_eq_true fun hc => hnodup.1 (hc ▸ he)
    show push capacity text (ofList capacity rest) = ⟨text :: rest⟩
    rw [hrest, push, if_neg (Ne.symm hempty.1), hfilter, List.take_of_length_le hlength]

/-- **A history that is stored and read again is the same.** -/
theorem ofList_ofList (capacity : Nat) (texts : List String) :
    ofList capacity (ofList capacity texts).entries = ofList capacity texts :=
  Clean.ofList_entries (clean_ofList capacity texts)

end History

end AnyCase
