import AnyCase.Proofs.Indented
import AnyCase.Proofs.Settled

/-!
# `Proofs.Reopened` — a file keeps what memory keeps

A program that keeps its state in a file and is started again and again sees what it would see if it never ended and
kept the state in memory (`Store.file_answers_as_memory`). It can start with no file and with any file that holds one
object (`Store.isSome_open?_iff`). From then on the file of the store is always one that opens as that store
(`Store.Kept`): the values are written as one object that is read back (`Store.readFile?_fileText`), since they are
settled, have no floats and leave room for one more level.
-/

namespace AnyCase.Store

open Json

/-! ## Runs -/

/-- What is done with a store. -/
inductive Use
  | set (key : String) (v : Json)
  | delete (key : String)
  | put (key : String) (v : Option Json)
  /-- The store is left, and its file is opened. -/
  | reopen

/-- The value that is written. -/
def Use.value? : Use → Option Json
  | set _ v => some v
  | put _ v => v
  | delete _ | reopen => none

/-- The store after a use, if opening its file again makes no difference. -/
def change (s : Store) : Use → Store
  | .set key v => s.set key v
  | .delete key => s.delete key
  | .put key v => s.put key v
  | .reopen => s

/-- The store after a use; none if its file has to be opened and is corrupted. -/
def use? (s : Store) : Use → Option Store
  | .reopen => open? s.file?
  | u => some (s.change u)

/-- A store in memory with the values of another one. -/
def inMemory (s : Store) : Store := ⟨s.values, .memory⟩

theorem inMemory_change (s : Store) (u : Use) : (s.change u).inMemory = s.inMemory.change u := by
  cases u with
  | put key v => cases v <;> rfl
  | _ => rfl

/-- Where a store is kept makes no difference to the values that are written. -/
theorem inMemory_foldl_change (s : Store) (uses : List Use) :
    (uses.foldl change s).inMemory = uses.foldl change s.inMemory := by
  induction uses generalizing s with
  | nil => rfl
  | cons u rest ih => rw [List.foldl_cons, List.foldl_cons, ih, inMemory_change]

/-! ## Files that are read back -/

variable {s : Store} {text : Option String} {values : Dict Json} {key : String} {v : Json} {u : Use}

/-- Whether values are read back from a file as they are. The file nests them one level deeper, so they have one level
less than `Json.maxDepth`. -/
def Storable (values : Dict Json) : Prop := ∀ e ∈ values.toList, Within 126 e.2 ∧ e.2.settled = e.2

theorem Storable.insert (h : Storable values) (hv : Within 126 v) (key : String) :
    Storable (values.insert key v.settled) := by
  intro e he
  rcases Dict.mem_put he with rfl | he
  · exact ⟨hv.settled, settled_settled v⟩
  · exact h e he

theorem Storable.erase (h : Storable values) (key : String) : Storable (values.erase key) :=
  fun e he => h e (List.mem_filter.mp he).1

/-- **The text of a file is read as the values that it was written for.** -/
theorem readFile?_fileText (h : Storable values) : readFile? (fileText values) = some values := by
  have hwithin : Within 127 (obj values.toList) := within_obj fun e he => (h e he).1
  have hread : read? (fileText values) = some (obj values.toList) := read?_pretty hwithin.1 hwithin.2
  unfold readFile?
  rw [hread, Option.map_some, settled_toList fun e he => (h e he).2]
  exact congrArg some values.ofList_toList

theorem settled_of_readFile? {text : String} (h : readFile? text = some values) :
    ∀ e ∈ values.toList, e.2.settled = e.2 := by
  unfold readFile? at h
  split at h
  · rename_i members hmembers
    obtain ⟨v, -, hv⟩ := Option.map_eq_some_iff.mp hmembers
    rw [← Option.some.inj h]
    intro e he
    exact settled_of_mem_obj (hv ▸ settled_settled v) e (Dict.mem_of_mem_toList_ofList he)
  · exact absurd h (by simp)

/-- A file opens if it does not exist or holds one object, and otherwise it is corrupted. -/
theorem isSome_open?_iff : (open? text).isSome = true ↔
    ∀ t ∈ text, ∃ members, Json.read? t = some (.obj members) := by
  cases text with
  | none => exact ⟨fun _ _ ht => absurd ht (by simp), fun _ => rfl⟩
  | some t =>
    have hone : (∀ t' ∈ some t, ∃ members, Json.read? t' = some (.obj members)) ↔
        ∃ members, Json.read? t = some (.obj members) := by simp
    rw [hone, open?, Option.isSome_map, readFile?]
    cases Json.read? t with
    | none => simp
    -- settling makes no value an object that was none
    | some v => cases v <;> simp [Json.settled]

theorem medium_of_open? (h : open? text = some s) : s.medium = .file text := by
  cases text with
  | none => rw [← Option.some.inj h]
  | some t =>
    obtain ⟨values, -, rfl⟩ := Option.map_eq_some_iff.mp h
    rfl

theorem settled_of_open? (h : open? text = some s) : ∀ e ∈ s.values.toList, e.2.settled = e.2 := by
  cases text with
  | none =>
    rw [← Option.some.inj h]
    exact fun e he => absurd he List.not_mem_nil
  | some t =>
    obtain ⟨values, hvalues, rfl⟩ := Option.map_eq_some_iff.mp h
    exact settled_of_readFile? hvalues

/-! ## What every use keeps -/

/-- What every use of a store keeps: its values can be written, and its file opens as the store. -/
structure Kept (s : Store) : Prop where
  storable : Storable s.values
  reopens : open? s.file? = some s

theorem kept_of_open? (h : open? text = some s) (hvalues : ∀ key v, s.raw? key = some v → Within 126 v) : s.Kept where
  storable := fun e he => ⟨hvalues e.1 e.2 (Dict.get?_of_mem_toList he), settled_of_open? h e he⟩
  reopens := by
    rw [file?, medium_of_open? h]
    exact h

theorem Kept.withValues (h : s.Kept) (hvalues : Storable values) : (s.withValues values).Kept := by
  have hfile : s.withValues values = ⟨values, .file (some (fileText values))⟩ := by
    rw [Store.withValues, medium_of_open? h.reopens]
    rfl
  rw [hfile]
  refine ⟨hvalues, ?_⟩
  show (readFile? (fileText values)).map _ = _
  rw [readFile?_fileText hvalues]
  rfl

theorem Kept.set (h : s.Kept) (hv : Within 126 v) (key : String) : (s.set key v).Kept :=
  h.withValues (h.storable.insert hv key)

theorem Kept.delete (h : s.Kept) (key : String) : (s.delete key).Kept := h.withValues (h.storable.erase key)

theorem Kept.change (h : s.Kept) (hu : ∀ v ∈ u.value?, Within 126 v) : (s.change u).Kept := by
  cases u with
  | set key v => exact h.set (hu v rfl) key
  | delete key => exact h.delete key
  | put key v =>
    cases v with
    | none => exact h.delete key
    | some v => exact h.set (hu v rfl) key
  | reopen => exact h

/-- Opening the file again makes no difference. -/
theorem Kept.use? (h : s.Kept) (u : Use) : s.use? u = some (s.change u) := by
  cases u with
  | reopen => exact h.reopens
  | _ => rfl

theorem Kept.foldlM_use? (h : s.Kept) {uses : List Use} (huses : ∀ u ∈ uses, ∀ v ∈ u.value?, Within 126 v) :
    uses.foldlM Store.use? s = some (uses.foldl Store.change s) := by
  induction uses generalizing s with
  | nil => rfl
  | cons u rest ih =>
    obtain ⟨hu, hrest⟩ := List.forall_mem_cons.mp huses
    rw [List.foldlM_cons, h.use?, List.foldl_cons, ← ih (h.change hu) hrest]
    rfl

/-- **A store in a file answers as one in memory.** It starts with whatever its file holds and is used in any way, and
the one in memory starts with the same values and never ends. If no value has a float or is nested too deep, then the
file opens each time, and all answers are the same. This holds after each use, since it holds for every run. -/
theorem file_answers_as_memory (hopen : open? text = some s)
    (hvalues : ∀ key v, s.raw? key = some v → Within 126 v) {uses : List Use}
    (huses : ∀ u ∈ uses, ∀ v ∈ u.value?, Within 126 v) :
    ∃ s', uses.foldlM use? s = some s' ∧
      (∀ key, s'.raw? key = (uses.foldl change s.inMemory).raw? key) ∧
      (∀ key, s'.contains key = (uses.foldl change s.inMemory).contains key) ∧
      s'.keys = (uses.foldl change s.inMemory).keys ∧
      ∀ (α : Type) (key : String) (read : Json → Option α) (default : α),
        s'.get key read default = (uses.foldl change s.inMemory).get key read default := by
  refine ⟨_, (kept_of_open? hopen hvalues).foldlM_use? huses, ?_⟩
  rw [← inMemory_foldl_change]
  exact ⟨fun _ => rfl, fun _ => rfl, rfl, fun _ _ _ _ => rfl⟩

/-- A file whose object has a key twice is opened. The store is written with whole numbers at both limits and with
characters that are escaped, and its file is opened twice more. -/
theorem file_answers_as_memory_at_limits :
    let text := "\x7b\"b\": [1], \"a\": null, \"b\": false\x7d"
    let s : Store := ⟨Dict.ofList [("a", .null), ("b", .bool false)], .file (some text)⟩
    let limits := Json.arr
      [.int 18446744073709551615, .int (-9223372036854775808), .obj [("\"\u0007", .str "\\\né")], .arr []]
    let uses : List Use := [.set "limits" limits, .reopen, .delete "gone", .put "a" none, .reopen]
    open? (some text) = some s ∧ ∃ s', uses.foldlM use? s = some s' ∧ s'.keys = ["b", "limits"] ∧
      s'.raw? "limits" = some limits ∧ s'.contains "gone" = false ∧ s'.get "b" flag? true = false := by
  intro text s limits uses
  have htokens : tokens? text.toList = some [.openObj, .str "b", .colon, .openArr, .int 1, .closeArr, .comma, .str "a",
      .colon, .null, .comma, .str "b", .colon, .bool false, .closeObj] := by decide +kernel
  have hread : Json.read? text = some (.obj [("b", .arr [.int 1]), ("a", .null), ("b", .bool false)]) := by
    unfold Json.read?
    rw [htokens]
    rfl
  have hopen : open? (some text) = some s := by
    rw [open?, readFile?, hread]
    rfl
  have hvalues : ∀ key v, s.raw? key = some v → Within 126 v := by
    intro key v hv
    have hmem := Dict.mem_of_get?_ofList hv
    simp only [List.mem_cons, List.not_mem_nil, or_false, Prod.mk.injEq] at hmem
    rcases hmem with ⟨-, rfl⟩ | ⟨-, rfl⟩
    · exact ⟨by rw [Plain]; trivial, by decide⟩
    · exact within_bool 126 false
  have hlimits : Within 126 limits := by
    have hgreatest : FitsWord 18446744073709551615 := by decide
    have hleast : FitsWord (-9223372036854775808) := by decide
    exact ⟨by simp [limits, Plain, PlainItems, PlainMembers, hgreatest, hleast], by decide⟩
  have huses : ∀ u ∈ uses, ∀ v ∈ u.value?, Within 126 v := by simp [uses, Use.value?, hlimits]
  obtain ⟨s', hrun, hraw, hcontains, hkeys, hget⟩ := file_answers_as_memory hopen hvalues huses
  refine ⟨hopen, s', hrun, hkeys.trans ?_, (hraw _).trans ?_, (hcontains _).trans ?_, (hget _ _ _ _).trans ?_⟩
  · rfl
  · rfl
  · rfl
  · rfl

end AnyCase.Store
