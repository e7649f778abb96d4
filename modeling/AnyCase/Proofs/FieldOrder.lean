import AnyCase.Proofs.ObjectText
import AnyCase.Proofs.Requests
import Mathlib.Data.List.Perm.Basic

/-!
# `Proofs.FieldOrder` — the order of the members of a request

A request is read from the members of an object, whatever stands first (`Request.field_order`). The command may
follow the parts that it selects, and the checkboxes of a main form may stand between its other parts.

Two facts carry this. A part is looked up by its name among all members, and what is found does not depend on their
order (`Json.Fields.get?_perm`); so all commands but one depend on the members that have their names
(`Request.ofFields?_congr`), and members of other names change nothing. A main form takes all other members as
checkboxes, and a map of them does not depend on their order if the names are distinct (`Json.flagsOf?_perm`).
-/

namespace AnyCase

open Json

/-! ## Members by name, in any order -/

namespace Json

variable {key : String} {members members' : List (String × Json)}

namespace Fields

theorem valuesOf_perm (h : members'.Perm members) (key : String) :
    (valuesOf key members').Perm (valuesOf key members) := (h.filter _).map _

theorem valuesOf_append (key : String) (members added : List (String × Json)) :
    valuesOf key (members ++ added) = valuesOf key members ++ valuesOf key added := by
  rw [valuesOf, List.filter_append, List.map_append]
  rfl

/-- What is found under a name depends on the values that have it, in any order: two of them are an error. -/
theorem get?_perm {α : Type} (h : (valuesOf key members').Perm (valuesOf key members)) (place : Nat)
    (read : Json → Option α) (absent : Option α) :
    get? (.named members') place key read absent = get? (.named members) place key read absent := by
  simp only [get?]
  generalize valuesOf key members' = values' at h
  generalize valuesOf key members = values at h
  cases values with
  | nil => rw [h.eq_nil]
  | cons v rest =>
    cases rest with
    | nil => rw [List.perm_singleton.mp h]
    | cons w rest =>
      cases values' with
      | nil => exact absurd h.length_eq (by simp)
      | cons v' rest' =>
        cases rest' with
        | nil => exact absurd h.length_eq (by simp)
        | cons w' rest' => rfl

/-- A part that is read is the one value with its name. -/
theorem read_of_need? {α : Type} {v : Json} {a : α} {place : Nat} {read : Json → Option α}
    (h : need? (.named members) place key read = some a) (hmem : (key, v) ∈ members) : read v = some a := by
  have hv : v ∈ valuesOf key members := List.mem_map_of_mem (List.mem_filter.mpr ⟨hmem, decide_eq_true rfl⟩)
  simp only [need?, get?] at h
  split at h
  · cases h
  · rename_i w hw
    rw [hw, List.mem_singleton] at hv
    exact hv ▸ h
  · cases h

end Fields

/-! ## Flags in any order -/

/-- Flags are read if all values are truth values. -/
theorem flagsOf?_eq (members : List (String × Json)) :
    flagsOf? members = if members.all (fun m => (flag? m.2).isSome) then
      some (Dict.ofList (members.filterMap (fun m => (flag? m.2).map (fun b => (m.1, b))))) else none := by
  have hentries : members.mapM (fun m => (flag? m.2).map (fun b => (m.1, b)))
      = if members.all (fun m => (flag? m.2).isSome) then
          some (members.filterMap (fun m => (flag? m.2).map (fun b => (m.1, b)))) else none := by
    induction members with
    | nil => rfl
    | cons m rest ih =>
      rw [List.mapM_cons, ih, List.all_cons, List.filterMap_cons]
      cases flag? m.2 with
      | none => rfl
      | some b =>
        cases hrest : rest.all (fun m => (flag? m.2).isSome) <;> simp
  rw [flagsOf?, hentries]
  split <;> rfl

theorem flagsOf?_perm (h : members'.Perm members) (hd : (members.map (·.1)).Nodup) :
    flagsOf? members' = flagsOf? members := by
  have hkeys : ((members.filterMap (fun m => (flag? m.2).map (fun b => (m.1, b)))).map (·.1)).Nodup := by
    rw [List.Nodup, List.pairwise_map] at hd ⊢
    refine hd.filterMap _ fun m m' hne e he e' he' => ?_
    obtain ⟨b, -, rfl⟩ := Option.map_eq_some_iff.mp he
    obtain ⟨b', -, rfl⟩ := Option.map_eq_some_iff.mp he'
    exact hne
  rw [flagsOf?_eq, flagsOf?_eq, h.all_eq, Dict.ofList_perm (h.filterMap _) hkeys]

end Json

namespace Request

variable {command : String} {members members' added : List (String × Json)}

/-! ## The parts of a request -/

/-- The names of the parts of a command. A main form is left out: its parts have all names that there are. -/
def fieldNames : String → List String
  | "history" => ["fieldId", "history"]
  | "exec" => ["manager", "values"]
  | "add" => ["manager", "label", "selected", "eltIdToAdd"]
  | "mod" => ["manager", "eltId", "label", "selected"]
  | "remove" => ["manager", "eltId"]
  | "list-order" => ["manager", "eltIds"]
  | _ => []

/-- **A command is read from the members with its names.** -/
theorem ofFields?_congr (hmain : command ≠ "main-instant")
    (h : ∀ key ∈ fieldNames command, (Fields.valuesOf key members').Perm (Fields.valuesOf key members)) :
    ofFields? command (.named members') = ofFields? command (.named members) := by
  have hget : ∀ {α : Type} (place : Nat) (key : String) (read : Json → Option α) (absent : Option α),
      key ∈ fieldNames command →
      Fields.get? (.named members') place key read absent = Fields.get? (.named members) place key read absent :=
    fun place key read absent hkey => Fields.get?_perm (h key hkey) place read absent
  have hneed : ∀ {α : Type} (place : Nat) (key : String) (read : Json → Option α), key ∈ fieldNames command →
      Fields.need? (.named members') place key read = Fields.need? (.named members) place key read :=
    fun place key read hkey => hget place key read none hkey
  unfold ofFields?
  split
  case h_5 => exact absurd rfl hmain
  case h_6 =>
    rw [hget 0 "fieldId" _ _ (by decide), hneed 1 "history" _ (by decide)]
    rfl
  case h_7 =>
    -- an edit: each command has its own parts behind the group
    unfold edit?
    split
    · rw [hneed 0 "manager" _ (by decide), hneed 1 "values" _ (by decide)]
      rfl
    · rw [hneed 0 "manager" _ (by decide), hneed 1 "label" _ (by decide), hget 2 "selected" _ _ (by decide),
        hget 3 "eltIdToAdd" _ _ (by decide)]
      rfl
    · rw [hneed 0 "manager" _ (by decide), hneed 1 "eltId" _ (by decide), hneed 2 "label" _ (by decide),
        hneed 3 "selected" _ (by decide)]
      rfl
    · rw [hneed 0 "manager" _ (by decide), hneed 1 "eltId" _ (by decide)]
      rfl
    · rw [hneed 0 "manager" _ (by decide), hneed 1 "eltIds" _ (by decide)]
      rfl
    · simp
  all_goals rfl

/-- A main form is read from members with distinct names in any order. -/
theorem mainForm?_perm (h : members'.Perm members) (hd : (members.map (·.1)).Nodup) :
    mainForm? (.named members') = mainForm? (.named members) := by
  have hchecks : flagsOf? (members'.filter (fun m => m.1 ≠ "text" && m.1 ≠ "sensitiveCase"))
      = flagsOf? (members.filter (fun m => m.1 ≠ "text" && m.1 ≠ "sensitiveCase")) :=
    flagsOf?_perm (h.filter _) (hd.sublist (List.filter_sublist.map _))
  simp only [mainForm?, Fields.need?, hchecks, Fields.get?_perm (Fields.valuesOf_perm h _)]

/-- The members beside the command. -/
def parts (members : List (String × Json)) : List (String × Json) := members.filter (fun m => m.1 ≠ "command")

/-- The command is looked up among all members, and selects what the others are read as. -/
theorem ofJson?_obj (members : List (String × Json)) :
    ofJson? (.obj members) = (Fields.need? (.named members) 0 "command" text?).bind
      (fun command => ofFields? command (.named (parts members))) := by
  simp only [ofJson?, tagged?, Fields.need?, Fields.get?]
  generalize Fields.valuesOf "command" members = values
  cases values with
  | nil => rfl
  | cons kind rest => cases rest <;> rfl

/-- Objects are read alike if their commands are, and their parts under that command. -/
theorem ofJson?_congr (hcommand : (Fields.valuesOf "command" members').Perm (Fields.valuesOf "command" members))
    (hparts : ∀ command, Fields.need? (.named members) 0 "command" text? = some command →
      ofFields? command (.named (parts members')) = ofFields? command (.named (parts members))) :
    ofJson? (.obj members') = ofJson? (.obj members) := by
  have htag : Fields.need? (.named members') 0 "command" text? = Fields.need? (.named members) 0 "command" text? :=
    Fields.get?_perm hcommand 0 text? none
  rw [ofJson?_obj, ofJson?_obj, htag]
  cases h : Fields.need? (.named members) 0 "command" text? with
  | none => rfl
  | some command => exact hparts command h

/-- **The order of members with distinct keys does not matter.** -/
theorem ofJson?_perm (h : members'.Perm members) (hd : (members.map (·.1)).Nodup) :
    ofJson? (.obj members') = ofJson? (.obj members) := by
  refine ofJson?_congr (Fields.valuesOf_perm h "command") fun command _ => ?_
  have hparts : (parts members').Perm (parts members) := h.filter _
  by_cases hmain : command = "main-instant"
  · subst hmain
    show (mainForm? _).map mainInstant = (mainForm? _).map mainInstant
    rw [mainForm?_perm hparts (hd.sublist (List.filter_sublist.map _))]
  · exact ofFields?_congr hmain fun key _ => Fields.valuesOf_perm hparts key

/-- **Members of other names do not matter**, unless they are the checkboxes of a main form. -/
theorem ofJson?_append (h : members'.Perm (members ++ added)) (hcommand : ("command", .str command) ∈ members)
    (hmain : command ≠ "main-instant") (hother : ∀ e ∈ added, e.1 ∉ "command" :: fieldNames command) :
    ofJson? (.obj members') = ofJson? (.obj members) := by
  have hnone : ∀ {l : List (String × Json)} {key : String}, l ⊆ added → key ∈ "command" :: fieldNames command →
      Fields.valuesOf key l = [] := by
    intro l key hl hkey
    refine Fields.valuesOf_of_not_mem fun hmem => ?_
    obtain ⟨e, he, rfl⟩ := List.mem_map.mp hmem
    exact hother e (hl he) hkey
  have htag : (Fields.valuesOf "command" members').Perm (Fields.valuesOf "command" members) := by
    have hvalues := Fields.valuesOf_perm h "command"
    rwa [Fields.valuesOf_append, hnone (List.Subset.refl added) List.mem_cons_self, List.append_nil] at hvalues
  refine ofJson?_congr htag fun command' hcommand' => ?_
  obtain rfl : command = command' := Option.some.inj (Fields.read_of_need? hcommand' hcommand)
  refine ofFields?_congr hmain fun key hkey => ?_
  have hparts : (parts members').Perm (parts members ++ parts added) := by
    rw [parts, parts, parts, ← List.filter_append]
    exact h.filter _
  have hsub : parts added ⊆ added := List.filter_sublist.subset
  have hvalues := Fields.valuesOf_perm hparts key
  rwa [Fields.valuesOf_append, hnone hsub (List.mem_cons_of_mem _ hkey), List.append_nil] at hvalues

/-! ## Texts -/

/-- Whether a member is none of the parts of a command, but a string, a truth value or null under another name. -/
structure Surplus (command : String) (m : Member) : Prop where
  other : m.key ∉ "command" :: fieldNames command
  sound : m.tokens.all Token.isSound = true
  scalar : m.value = .null ∨ (∃ b, m.value = .bool b) ∨ ∃ s, m.value = .str s

theorem Surplus.accepted {m : Member} (h : Surplus command m) : m.Accepted := by
  have hdepth : m.value.depth = 0 := by
    rcases h.scalar with hv | ⟨b, hv⟩ | ⟨s, hv⟩ <;> rw [hv] <;> rfl
  exact ⟨h.sound, hdepth ▸ by decide⟩

/-- An object is read as the request of its members, if they are accepted. -/
theorem read?_write_members (margins : Margins) (ms : List Member) :
    read? (margins.write ms) = if ∀ m ∈ ms, m.Accepted then ofJson? (.obj (ms.map Member.entry)) else none := by
  rw [read?, Json.read?_write]
  split <;> rfl

/-- **The order of the members of a request does not matter, and neither do surplus ones.** Every object that follows
the grammar is written as its members. If their keys are distinct, the text that has them in another order is read as
the same request, or refused as well, be it for a part that is wrong or missing or for a member that has no value. And
if they have a command, other than that of a main form, any number of surplus members may stand anywhere among them;
since the key of the command is taken, none of these has it. -/
theorem field_order :
    (∀ text members, skim? text = some (.obj members) →
      ∃ (margins : Margins) (ms : List Member), margins.write ms = text ∧ ms.map Member.entry = members) ∧
    (∀ (margins : Margins) (ms ms' : List Member), (ms.map Member.key).Nodup → ms'.Perm ms →
      read? (margins.write ms') = read? (margins.write ms)) ∧
    (∀ (margins : Margins) (ms ms' surplus : List Member) (command : String),
      ("command", .str command) ∈ ms.map Member.entry → command ≠ "main-instant" →
      (∀ m ∈ surplus, Surplus command m) → ms'.Perm (ms ++ surplus) →
      read? (margins.write ms') = read? (margins.write ms)) := by
  refine ⟨fun text members => exists_write, fun margins ms ms' hd h => ?_, ?_⟩
  · have hkeys : ((ms.map Member.entry).map (·.1)).Nodup := by
      rw [List.map_map]
      exact hd
    have haccepted : (∀ m ∈ ms', m.Accepted) ↔ ∀ m ∈ ms, m.Accepted :=
      forall_congr' fun m => imp_congr_left h.mem_iff
    rw [read?_write_members, read?_write_members, ofJson?_perm (h.map Member.entry) hkeys]
    simp only [haccepted]
  · intro margins ms ms' surplus command hcommand hmain hsurplus h
    have haccepted : (∀ m ∈ ms', m.Accepted) ↔ ∀ m ∈ ms, m.Accepted := by
      refine ⟨fun hall m hm => hall m (h.mem_iff.mpr (List.mem_append_left _ hm)), fun hall m hm => ?_⟩
      exact (List.mem_append.mp (h.mem_iff.mp hm)).elim (hall m) fun hm => (hsurplus m hm).accepted
    have hentries : (ms'.map Member.entry).Perm (ms.map Member.entry ++ surplus.map Member.entry) := by
      rw [← List.map_append]
      exact h.map Member.entry
    have hother : ∀ e ∈ surplus.map Member.entry, e.1 ∉ "command" :: fieldNames command := by
      intro e he
      obtain ⟨m, hm, rfl⟩ := List.mem_map.mp he
      exact (hsurplus m hm).other
    rw [read?_write_members, read?_write_members, ofJson?_append hentries hcommand hmain hother]
    simp only [haccepted]

/-- The command may come last, and a member whose key has a bracket and a line break may come first. The label has an
escaped letter, a comma and a quotation mark. -/
theorem field_order_of_escaped :
    let margins : Margins := ⟨[' '], ['\t'], ['\n'], rfl⟩
    let tag := Member.ofLexed "\"command\" :\"add\" ".toList "command" (.str "add") (by decide +kernel)
    let group := Member.ofLexed " \"manager\":\"code\"".toList "manager" (.str "code") (by decide +kernel)
    let label := Member.ofLexed "\"label\": \"\\u00e9,\\\"\"".toList "label" (.str "é,\"") (by decide +kernel)
    let other := Member.ofLexed "\"\x7d\\n\":null".toList "\x7d\n" .null (by decide +kernel)
    let entries := [("label", .str "é,\""), ("manager", .str "code"), ("command", .str "add")]
    skim? (margins.write [label, group, tag]) = some (.obj entries) ∧
      (∃ (margins' : Margins) (ms : List Member),
        margins'.write ms = margins.write [label, group, tag] ∧ ms.map Member.entry = entries) ∧
      read? (margins.write [tag, group, label]) = read? (margins.write [label, group, tag]) ∧
      Surplus "add" other ∧
      read? (margins.write [other, tag, group, label]) = read? (margins.write [label, group, tag]) ∧
      read? (margins.write [label, group, tag]) = some (edit "code" (.add "é,\"" false none)) := by
  intro margins tag group label other entries
  obtain ⟨hobject, hperm, hsurplus⟩ := field_order
  have htext : skim? (margins.write [label, group, tag]) = some (.obj entries) := by
    rw [skim?, tokens?_write]
    rfl
  have hother : Surplus "add" other := ⟨by decide, by decide, .inl rfl⟩
  refine ⟨htext, hobject _ _ htext, ?_, hother, ?_, ?_⟩
  · exact hperm margins [label, group, tag] _ (by decide) (List.reverse_perm [label, group, tag])
  · have htag : ("command", .str "add") ∈ [label, group, tag].map Member.entry :=
      List.mem_map.mpr ⟨tag, by simp, rfl⟩
    have hall : ∀ m ∈ [other], Surplus "add" m := fun m hm => List.mem_singleton.mp hm ▸ hother
    exact hsurplus margins [label, group, tag] _ [other] "add" htag (by decide) hall
      (List.reverse_perm [label, group, tag, other])
  · decide +kernel

end Request

end AnyCase
