/-!
# `Dict` — finite maps from texts, kept in key order

A `Dict α` is a list of entries whose keys increase strictly, so each key occurs once and the list is
determined by what the map answers (`Dict.ext`). Every map of the library is one: the persisted store,
the values of checkboxes in a message, the defaults of the case conventions.

Keys are compared as texts are: character by character, by code point.

## Contents

* `Dict.get?`, `Dict.insert`, `Dict.erase`, `Dict.ofList` — the operations;
* `get?_insert`, `get?_erase`, `get?_empty` — what each does to the answers;
* `Dict.ext` — two maps with the same answers are equal.
-/

namespace AnyCase

/-- A finite map from texts; the keys of its entries increase strictly. -/
structure Dict (α : Type) where
  entries : List (String × α)
  increasing : entries.Pairwise (fun x y => x.1 < y.1)
  deriving DecidableEq

namespace Dict

variable {α : Type}

/-! ## Entry lists -/

/-- The value at `k` of an entry list. -/
def find? (k : String) : List (String × α) → Option α
  | [] => none
  | (k', v) :: rest => if k = k' then some v else find? k rest

/-- The entry list with `k` set to `v`, at the place its key belongs to. -/
def put (k : String) (v : α) : List (String × α) → List (String × α)
  | [] => [(k, v)]
  | (k', v') :: rest =>
    if k < k' then (k, v) :: (k', v') :: rest
    else if k = k' then (k, v) :: rest
    else (k', v') :: put k v rest

/-- Two keys, neither before the other, are the same. -/
theorem eq_of_not_lt {a b : String} (h : ¬a < b) (h' : ¬b < a) : a = b :=
  String.le_antisymm (String.not_lt.mp h') (String.not_lt.mp h)

theorem mem_put {k : String} {v : α} {x : String × α} {l : List (String × α)} (h : x ∈ put k v l) :
    x = (k, v) ∨ x ∈ l := by
  induction l with
  | nil => simpa [put] using h
  | cons e rest ih =>
    obtain ⟨k', v'⟩ := e
    rw [put] at h
    split at h
    · simpa using h
    · split at h
      · rcases List.mem_cons.mp h with h | h
        · exact Or.inl h
        · exact Or.inr (List.mem_cons_of_mem _ h)
      · rcases List.mem_cons.mp h with h | h
        · exact Or.inr (h ▸ List.mem_cons_self)
        · exact (ih h).imp id (List.mem_cons_of_mem _)

theorem put_increasing (k : String) (v : α) {l : List (String × α)}
    (h : l.Pairwise (fun x y => x.1 < y.1)) : (put k v l).Pairwise (fun x y => x.1 < y.1) := by
  induction l with
  | nil => simp [put]
  | cons e rest ih =>
    obtain ⟨k', v'⟩ := e
    rw [List.pairwise_cons] at h
    rw [put]
    split
    · rename_i hlt
      refine List.pairwise_cons.mpr ⟨fun x hx => ?_, List.pairwise_cons.mpr h⟩
      rcases List.mem_cons.mp hx with rfl | hx
      · exact hlt
      · exact String.lt_trans hlt (h.1 x hx)
    · split
      · rename_i heq
        subst heq
        exact List.pairwise_cons.mpr h
      · rename_i hlt hne
        refine List.pairwise_cons.mpr ⟨fun x hx => ?_, ih h.2⟩
        rcases mem_put hx with rfl | hx
        · exact Decidable.byContradiction fun hc => hne (eq_of_not_lt hlt hc)
        · exact h.1 x hx

/-! ## The operations -/

/-- The map without entries. -/
def empty : Dict α := ⟨[], List.Pairwise.nil⟩

instance : EmptyCollection (Dict α) := ⟨empty⟩

instance : Inhabited (Dict α) := ⟨empty⟩

/-- The value at a key. -/
def get? (d : Dict α) (k : String) : Option α := find? k d.entries

/-- Whether a key has a value. -/
def contains (d : Dict α) (k : String) : Bool := (d.get? k).isSome

/-- The map with one key set. -/
def insert (d : Dict α) (k : String) (v : α) : Dict α :=
  ⟨put k v d.entries, put_increasing k v d.increasing⟩

/-- The map with one key removed. -/
def erase (d : Dict α) (k : String) : Dict α :=
  ⟨d.entries.filter (fun e => e.1 ≠ k), d.increasing.filter _⟩

/-- The map with the entries of a list set one after the other: of two entries with one key the later
one stays. -/
def insertAll (d : Dict α) (l : List (String × α)) : Dict α :=
  l.foldl (fun d e => d.insert e.1 e.2) d

/-- The map of a list of entries: of two with one key the later one stays. -/
def ofList (l : List (String × α)) : Dict α := empty.insertAll l

/-- The entries in key order. -/
def toList (d : Dict α) : List (String × α) := d.entries

/-- The keys in order. -/
def keys (d : Dict α) : List String := d.entries.map (·.1)

/-- The map with every value replaced by its image. -/
def map {β : Type} (f : α → β) (d : Dict α) : Dict β :=
  ⟨d.entries.map (fun e => (e.1, f e.2)), by
    simpa [List.pairwise_map] using d.increasing⟩

/-! ## What the operations answer -/

theorem find?_put (k k' : String) (v : α) (l : List (String × α)) :
    find? k' (put k v l) = if k' = k then some v else find? k' l := by
  induction l with
  | nil => by_cases h : k' = k <;> simp [put, find?, h]
  | cons e rest ih =>
    obtain ⟨k₁, v₁⟩ := e
    rw [put]
    split
    · by_cases h : k' = k <;> simp [find?, h]
    · split
      · rename_i heq
        subst heq
        by_cases h : k' = k <;> simp [find?, h]
      · rename_i hlt hne
        by_cases h₁ : k' = k₁
        · subst h₁
          have hk : k' ≠ k := fun hc => hne hc.symm
          simp [find?, hk]
        · simp [find?, h₁, ih]

@[simp] theorem get?_empty (k : String) : (empty : Dict α).get? k = none := rfl

@[simp] theorem get?_insert (d : Dict α) (k k' : String) (v : α) :
    (d.insert k v).get? k' = if k' = k then some v else d.get? k' :=
  find?_put k k' v d.entries

theorem find?_filter_ne (k k' : String) (l : List (String × α)) :
    find? k' (l.filter (fun e => e.1 ≠ k)) = if k' = k then none else find? k' l := by
  induction l with
  | nil => simp [find?]
  | cons e rest ih =>
    obtain ⟨k₁, v₁⟩ := e
    by_cases h₁ : k₁ = k
    · subst h₁
      by_cases h : k' = k₁
      · simpa [find?, h] using ih
      · simpa [find?, h] using ih
    · by_cases h : k' = k₁
      · subst h
        simp [find?, h₁]
      · simpa [find?, h₁, h] using ih

@[simp] theorem get?_erase (d : Dict α) (k k' : String) :
    (d.erase k).get? k' = if k' = k then none else d.get? k' :=
  find?_filter_ne k k' d.entries

/-! ## Extensionality -/

theorem find?_eq_none_of_lt {k : String} {l : List (String × α)} (h : ∀ x ∈ l, k < x.1) :
    find? k l = none := by
  induction l with
  | nil => rfl
  | cons e rest ih =>
    obtain ⟨k', v'⟩ := e
    have hk : k ≠ k' := fun hc => String.lt_irrefl k (by simpa [← hc] using h (k', v') (by simp))
    rw [find?, if_neg hk]
    exact ih fun x hx => h x (List.mem_cons_of_mem _ hx)

theorem entries_ext {l₁ l₂ : List (String × α)} (h₁ : l₁.Pairwise (fun x y => x.1 < y.1))
    (h₂ : l₂.Pairwise (fun x y => x.1 < y.1)) (h : ∀ k, find? k l₁ = find? k l₂) : l₁ = l₂ := by
  induction l₁ generalizing l₂ with
  | nil =>
    cases l₂ with
    | nil => rfl
    | cons e rest =>
      have := h e.1
      simp [find?] at this
  | cons e₁ rest₁ ih =>
    cases l₂ with
    | nil =>
      have := h e₁.1
      simp [find?] at this
    | cons e₂ rest₂ =>
      obtain ⟨k₁, v₁⟩ := e₁
      obtain ⟨k₂, v₂⟩ := e₂
      rw [List.pairwise_cons] at h₁ h₂
      have hk : k₁ = k₂ := by
        apply eq_of_not_lt
        · intro hlt
          have := h k₁
          rw [find?_eq_none_of_lt (l := (k₂, v₂) :: rest₂)] at this
          · simp [find?] at this
          · intro x hx
            rcases List.mem_cons.mp hx with rfl | hx
            · exact hlt
            · exact String.lt_trans hlt (h₂.1 x hx)
        · intro hlt
          have := h k₂
          rw [find?_eq_none_of_lt (l := (k₁, v₁) :: rest₁)] at this
          · simp [find?] at this
          · intro x hx
            rcases List.mem_cons.mp hx with rfl | hx
            · exact hlt
            · exact String.lt_trans hlt (h₁.1 x hx)
      subst hk
      have hv : v₁ = v₂ := by simpa [find?] using h k₁
      subst hv
      congr 1
      refine ih h₁.2 h₂.2 fun k => ?_
      by_cases hc : k = k₁
      · subst hc
        rw [find?_eq_none_of_lt h₁.1, find?_eq_none_of_lt h₂.1]
      · simpa [find?, hc] using h k

/-- Two maps that answer alike are equal. -/
theorem ext {d₁ d₂ : Dict α} (h : ∀ k, d₁.get? k = d₂.get? k) : d₁ = d₂ := by
  obtain ⟨l₁, h₁⟩ := d₁
  obtain ⟨l₂, h₂⟩ := d₂
  congr 1
  exact entries_ext h₁ h₂ h

end Dict

end AnyCase
