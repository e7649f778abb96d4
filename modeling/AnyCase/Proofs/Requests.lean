import AnyCase.Message.Request
import AnyCase.Proofs.Replies

/-!
# `Proofs.Requests` — requests survive the wire

The daemon reads back the request that a client wrote, with one exception. A main form spreads its checkboxes among
its own members, so a checkbox with the name of one of those would stand twice. Exactly the requests without such a
checkbox (`Request.Sendable`) are read back, and these are exactly the requests that the daemon can receive
(`received_iff_sendable`): what is read as a checkbox has none of the names that are taken.
-/

namespace AnyCase

open Json

/-! ## Members by name -/

namespace Json

variable {key : String} {members : List (String × Json)} {d : Dict Bool}

namespace Fields

theorem valuesOf_of_not_mem (h : key ∉ members.map (·.1)) : valuesOf key members = [] := by
  have hnone : members.filter (fun m => m.1 = key) = [] := by
    rw [List.filter_eq_nil_iff]
    intro m hm heq
    exact h (of_decide_eq_true heq ▸ List.mem_map_of_mem hm)
  rw [valuesOf, hnone]
  rfl

theorem valuesOf_cons_self (v : Json) : valuesOf key ((key, v) :: members) = v :: valuesOf key members := by
  simp [valuesOf]

theorem valuesOf_cons_of_ne {k : String} (h : k ≠ key) (v : Json) :
    valuesOf key ((k, v) :: members) = valuesOf key members := by
  simp [valuesOf, h]

/-- A part that stands once is read. -/
theorem need?_of_valuesOf {α : Type} {v : Json} (h : valuesOf key members = [v]) (place : Nat)
    (read : Json → Option α) : need? (.named members) place key read = read v := by
  simp only [need?, get?, h]

end Fields

/-- The tag is told from the other members if none of them has its name. -/
theorem tagged?_cons {kind : Json} (h : key ∉ members.map (·.1)) :
    tagged? key (.obj ((key, kind) :: members)) = some (kind, .named members) := by
  have hrest : members.filter (fun m => m.1 ≠ key) = members := by
    rw [List.filter_eq_self]
    intro m hm
    exact decide_eq_true fun heq => h (heq ▸ List.mem_map_of_mem hm)
  have hall : ((key, kind) :: members).filter (fun m => m.1 ≠ key) = members := by
    rw [List.filter_cons_of_neg (by simp), hrest]
  simp only [tagged?, Fields.valuesOf_cons_self, Fields.valuesOf_of_not_mem h, hall]

/-- The other members do not have the name of the tag. -/
theorem key_ne_of_tagged? {v kind : Json} (h : tagged? key v = some (kind, .named members)) :
    key ∉ members.map (·.1) := by
  unfold tagged? at h
  split at h
  · split at h
    · obtain rfl := Fields.named.inj (Prod.mk.inj (Option.some.inj h)).2
      simp
    · exact absurd h (by simp)
  · exact absurd (Prod.mk.inj (Option.some.inj h)).2 (by simp)
  · exact absurd h (by simp)

/-! ## Flags -/

/-- Flags are read back from the members they are written as. -/
theorem flagsOf?_toList (d : Dict Bool) : flagsOf? (d.toList.map (fun e => (e.1, .bool e.2))) = some d := by
  have hentries : ∀ l : List (String × Bool),
      (l.map (fun e => (e.1, Json.bool e.2))).mapM (fun m => (flag? m.2).map (fun b => (m.1, b))) = some l := by
    intro l
    induction l with
    | nil => rfl
    | cons e rest ih =>
      rw [List.map_cons, List.mapM_cons, ih]
      rfl
  rw [flagsOf?, hentries, Option.map_some, Dict.ofList_toList]

@[simp] theorem flags?_ofFlags (d : Dict Bool) : flags? (ofFlags d) = some d := flagsOf?_toList d

/-- Flags that are read have the names of members. -/
theorem mem_keys_of_flagsOf? (h : flagsOf? members = some d) (hkey : d.contains key = true) :
    key ∈ members.map (·.1) := by
  obtain ⟨entries, hentries, rfl⟩ := Option.map_eq_some_iff.mp h
  obtain ⟨b, hb⟩ := Option.isSome_iff_exists.mp hkey
  have hmem := Dict.mem_of_get?_ofList hb
  clear h hkey hb
  induction members generalizing entries with
  | nil =>
    obtain rfl := Option.some.inj hentries
    exact absurd hmem List.not_mem_nil
  | cons m rest ih =>
    rw [List.mapM_cons] at hentries
    obtain ⟨e, he, hrest⟩ := Option.bind_eq_some_iff.mp hentries
    obtain ⟨entries', hentries', heq⟩ := Option.bind_eq_some_iff.mp hrest
    obtain ⟨c, -, rfl⟩ := Option.map_eq_some_iff.mp he
    obtain rfl := Option.some.inj heq
    rcases List.mem_cons.mp hmem with hhead | htail
    · rw [(Prod.mk.inj hhead).1]
      exact List.mem_cons_self
    · exact List.mem_cons_of_mem _ (ih entries' hentries' htail)

theorem within_ofFlags (d : Dict Bool) : Within 1 (ofFlags d) := by
  refine within_obj fun m hm => ?_
  obtain ⟨e, -, rfl⟩ := List.mem_map.mp hm
  exact within_bool 0 e.2

theorem within_ofTexts (texts : List String) : Within 1 (ofTexts texts) := within_map texts (within_str 0)

end Json

namespace Request

/-! ## The main form -/

/-- The names in a main form that no checkbox can have: those of the tag and of its other parts. -/
def takenNames : List String := ["command", "text", "sensitiveCase"]

/-- Whether no checkbox of a main form has a name that is taken. All other requests can be sent as they are. -/
def Sendable : Request → Prop
  | mainInstant form => ∀ name ∈ takenNames, form.checks.contains name = false
  | _ => True

instance : DecidablePred Sendable
  | mainInstant form => inferInstanceAs (Decidable (∀ name ∈ takenNames, form.checks.contains name = false))
  | openPanel | close | snapshot | shutdown | history .. | edit .. => isTrue trivial

/-- The members that a main form writes for its checkboxes. -/
def checkMembers (form : MainForm) : List (String × Json) := form.checks.toList.map (fun e => (e.1, .bool e.2))

variable {r : Request} {form : MainForm}

theorem not_mem_checkMembers (h : (mainInstant form).Sendable) {name : String} (hname : name ∈ takenNames) :
    name ∉ (checkMembers form).map (·.1) := by
  intro hmem
  obtain ⟨m, hm, rfl⟩ := List.mem_map.mp hmem
  obtain ⟨e, he, rfl⟩ := List.mem_map.mp hm
  have hfree : form.checks.contains e.1 = false := h e.1 hname
  rw [Dict.contains, Dict.get?_of_mem_toList he] at hfree
  exact absurd hfree (by simp)

/-- **A main form is read back**, if no checkbox has a name that is taken. -/
theorem mainForm?_members (h : (mainInstant form).Sendable) :
    mainForm? (.named (mainInstant form).members) = some form := by
  have htext : "text" ∉ (checkMembers form).map (·.1) := not_mem_checkMembers h (by decide)
  have hcase : "sensitiveCase" ∉ (checkMembers form).map (·.1) := not_mem_checkMembers h (by decide)
  have hmembers : (mainInstant form).members
      = ("text", .str form.text) :: ("sensitiveCase", .bool form.sensitiveCase) :: checkMembers form := rfl
  have hvalues : Fields.valuesOf "text" (mainInstant form).members = [.str form.text] := by
    rw [hmembers, Fields.valuesOf_cons_self, Fields.valuesOf_cons_of_ne (by decide),
      Fields.valuesOf_of_not_mem htext]
  have hvalues' : Fields.valuesOf "sensitiveCase" (mainInstant form).members = [.bool form.sensitiveCase] := by
    rw [hmembers, Fields.valuesOf_cons_of_ne (by decide), Fields.valuesOf_cons_self,
      Fields.valuesOf_of_not_mem hcase]
  have hchecks : (mainInstant form).members.filter (fun m => m.1 ≠ "text" && m.1 ≠ "sensitiveCase")
      = checkMembers form := by
    rw [hmembers, List.filter_cons_of_neg (by simp), List.filter_cons_of_neg (by simp), List.filter_eq_self]
    intro m hm
    have hmem : m.1 ∈ (checkMembers form).map (·.1) := List.mem_map_of_mem hm
    rw [Bool.and_eq_true, decide_eq_true_eq, decide_eq_true_eq]
    exact ⟨fun heq => htext (heq ▸ hmem), fun heq => hcase (heq ▸ hmem)⟩
  have hflags : flagsOf? (checkMembers form) = some form.checks := flagsOf?_toList form.checks
  simp only [mainForm?, Fields.need?_of_valuesOf hvalues, Fields.need?_of_valuesOf hvalues', hchecks, hflags]
  rfl

/-- A main form that is read has no checkbox with a name that is taken. -/
theorem sendable_of_mainForm? {members : List (String × Json)} (hcommand : "command" ∉ members.map (·.1))
    (h : mainForm? (.named members) = some form) : (mainInstant form).Sendable := by
  intro name hname
  rw [Bool.eq_false_iff]
  intro hcheck
  obtain ⟨text, -, h⟩ := Option.bind_eq_some_iff.mp h
  obtain ⟨sensitiveCase, -, h⟩ := Option.bind_eq_some_iff.mp h
  obtain ⟨checks, hchecks, h⟩ := Option.bind_eq_some_iff.mp h
  obtain rfl := Option.some.inj h
  obtain ⟨m, hm, rfl⟩ := List.mem_map.mp (mem_keys_of_flagsOf? hchecks hcheck)
  obtain ⟨hmem, hother⟩ := List.mem_filter.mp hm
  rw [Bool.and_eq_true, decide_eq_true_eq, decide_eq_true_eq] at hother
  simp only [takenNames, List.mem_cons, List.not_mem_nil, or_false] at hname
  rcases hname with heq | heq | heq
  · exact hcommand (heq ▸ List.mem_map_of_mem hmem)
  · exact hother.1 heq
  · exact hother.2 heq

/-! ## All requests -/

/-- No member has the name of the tag. -/
theorem command_not_mem_members (h : r.Sendable) : "command" ∉ r.members.map (·.1) := by
  cases r with
  | mainInstant form =>
    have hchecks : "command" ∉ (checkMembers form).map (·.1) := not_mem_checkMembers h (by decide)
    show "command" ∉ "text" :: "sensitiveCase" :: (checkMembers form).map (·.1)
    simpa using hchecks
  | history fieldId texts => cases fieldId <;> simp [members, optionalMember]
  | edit group change =>
    cases change with
    | add label selected proposed => cases proposed <;> simp [members, editMembers, optionalMember]
    | _ => simp [members, editMembers]
  | _ => simp [members]

theorem edit?_editMembers (group : String) (change : Edit) :
    edit? (editCommand change) (.named (("manager", .str group) :: editMembers change)) = some change := by
  cases change with
  | add label selected proposed =>
    cases proposed <;>
      simp [edit?, editCommand, editMembers, optionalMember, optional?, Fields.need?, Fields.get?, Fields.valuesOf,
        Fields.fits, text?, flag?]
  | _ =>
    simp [edit?, editCommand, editMembers, Fields.need?, Fields.get?, Fields.valuesOf, Fields.fits, text?, flag?]

theorem within_editMembers (change : Edit) : ∀ m ∈ editMembers change, Within 1 m.2 := by
  intro m hm
  cases change with
  | set values =>
    rw [List.mem_singleton.mp hm]
    exact within_ofFlags values
  | add label selected proposed =>
    rcases List.mem_append.mp hm with hm | hm
    · simp only [List.mem_cons, List.not_mem_nil, or_false] at hm
      rcases hm with rfl | rfl
      · exact within_str 1 _
      · exact within_bool 1 _
    · exact within_optionalMember (fun text => within_str 1 text) hm
  | amend id label selected =>
    simp only [editMembers, List.mem_cons, List.not_mem_nil, or_false] at hm
    rcases hm with rfl | rfl | rfl
    · exact within_str 1 _
    · exact within_str 1 _
    · exact within_bool 1 _
  | remove id =>
    rw [List.mem_singleton.mp hm]
    exact within_str 1 _
  | reorder ids =>
    rw [List.mem_singleton.mp hm]
    exact within_ofTexts ids

/-- The parts of a request are read as what they were. -/
theorem ofFields?_members (h : r.Sendable) : ofFields? r.command (.named r.members) = some r := by
  cases r with
  | mainInstant form =>
    show (mainForm? _).map mainInstant = _
    rw [mainForm?_members h]
    rfl
  | history fieldId texts =>
    cases fieldId <;>
      simp [ofFields?, command, members, optionalMember, optional?, Fields.need?, Fields.get?, Fields.valuesOf,
        Fields.fits, text?]
  | edit group change =>
    have hgroup : Fields.need? (.named (edit group change).members) 0 "manager" text? = some group := by
      cases change with
      | add label selected proposed =>
        cases proposed <;>
          simp [members, editMembers, optionalMember, Fields.need?, Fields.get?, Fields.valuesOf, text?]
      | _ => simp [members, editMembers, Fields.need?, Fields.get?, Fields.valuesOf, text?]
    have hother : ofFields? (editCommand change) (.named (edit group change).members)
        = (Fields.need? (.named (edit group change).members) 0 "manager" text?).bind
          (fun group' => (edit? (editCommand change) (.named (edit group change).members)).bind
            (fun change' => some (edit group' change'))) := by
      cases change <;> rfl
    show ofFields? (editCommand change) _ = _
    rw [hother, hgroup]
    show (edit? (editCommand change) (.named (("manager", .str group) :: editMembers change))).bind _ = _
    rw [edit?_editMembers]
    rfl
  | _ => rfl

theorem ofJson?_toJson (h : r.Sendable) : ofJson? r.toJson = some r := by
  unfold ofJson? toJson
  rw [tagged?_cons (command_not_mem_members h)]
  exact ofFields?_members h

theorem within_toJson (r : Request) : Within 2 r.toJson := by
  refine within_obj fun m hm => ?_
  rcases List.mem_cons.mp hm with rfl | hm
  · exact within_str 1 _
  · cases r with
    | mainInstant form =>
      rcases List.mem_cons.mp hm with rfl | hm
      · exact within_str 1 _
      · rcases List.mem_cons.mp hm with rfl | hm
        · exact within_bool 1 _
        · obtain ⟨e, -, rfl⟩ := List.mem_map.mp hm
          exact within_bool 1 e.2
    | history fieldId texts =>
      rcases List.mem_append.mp hm with hm | hm
      · exact within_optionalMember (fun text => within_str 1 text) hm
      · rw [List.mem_singleton.mp hm]
        exact within_ofTexts texts
    | edit group change =>
      rcases List.mem_cons.mp hm with rfl | hm
      · exact within_str 1 _
      · exact within_editMembers change m hm
    | _ => exact absurd hm List.not_mem_nil

/-- Only a main form is read as one. -/
theorem mainForm?_of_ofFields? {command : String} {fields : Fields}
    (h : ofFields? command fields = some (mainInstant form)) : mainForm? fields = some form := by
  unfold ofFields? at h
  split at h
  case h_5 =>
    obtain ⟨form', hform, heq⟩ := Option.map_eq_some_iff.mp h
    rw [hform, mainInstant.inj heq]
  all_goals simp [bare?, Option.bind_eq_some_iff] at h

/-- What is read has no checkbox with a name that is taken. -/
theorem sendable_of_ofJson? {v : Json} (h : ofJson? v = some r) : r.Sendable := by
  obtain ⟨⟨tag, fields⟩, htagged, h⟩ := Option.bind_eq_some_iff.mp h
  obtain ⟨command, -, h⟩ := Option.bind_eq_some_iff.mp h
  cases r with
  | mainInstant form =>
    have hform := mainForm?_of_ofFields? h
    cases fields with
    | listed items => exact absurd hform (by simp [mainForm?])
    | named members => exact sendable_of_mainForm? (key_ne_of_tagged? htagged) hform
  | _ => trivial

/-! ## The wire -/

/-- A request that can be sent is read back. -/
theorem read?_write (h : r.Sendable) : read? r.write = some r := by
  obtain ⟨hplain, hdepth⟩ := r.within_toJson
  unfold read? write
  rw [read?_compact hplain (Nat.le_trans hdepth (by decide)), Option.bind_some, ofJson?_toJson h]

/-- What the daemon receives can be sent. -/
theorem sendable_of_read? {text : String} (h : read? text = some r) : r.Sendable := by
  obtain ⟨v, -, hv⟩ := Option.bind_eq_some_iff.mp h
  exact sendable_of_ofJson? hv

/-- **Requests survive the wire.** A request is read back from its own text exactly if none of its checkboxes has a
name that is taken, and such requests are all that can be received, whatever the text is. Reading a text, writing
the request and reading it again gives what was read at first, and two requests that were received are one if they
are written alike. -/
theorem received_iff_sendable :
    (∀ r : Request, read? r.write = some r ↔ r.Sendable) ∧
    (∀ r : Request, (∃ text, read? text = some r) ↔ r.Sendable) ∧
    (∀ text, (read? text).bind (fun r => read? r.write) = read? text) ∧
    (∀ text text' r r', read? text = some r → read? text' = some r' → r.write = r'.write → r = r') := by
  refine ⟨fun r => ⟨sendable_of_read?, read?_write⟩, fun r => ?_, fun text => ?_, ?_⟩
  · exact ⟨fun ⟨_, h⟩ => sendable_of_read? h, fun h => ⟨r.write, read?_write h⟩⟩
  · cases h : read? text with
    | none => rfl
    | some r => exact read?_write (sendable_of_read? h)
  · intro text text' r r' h h' hwrite
    have hread := read?_write (sendable_of_read? h)
    rw [hwrite, read?_write (sendable_of_read? h')] at hread
    exact (Option.some.inj hread).symm

/-- A main form whose text has a line break and characters that are escaped, and whose checkboxes have odd names,
survives. One with a checkbox that is named as the text does not, and no text is read as it. -/
theorem received_with_odd_names :
    let odd := mainInstant ⟨"\"a\"\n\\b\u0007é", true, Dict.ofList [("Text", true), ("", false), ("com\tmand", true)]⟩
    let taken := mainInstant ⟨"", false, Dict.ofList [("text", true)]⟩
    odd.Sendable ∧ ¬taken.Sendable ∧ read? odd.write = some odd ∧ (∀ text, read? text ≠ some taken) ∧
      ∀ text r, read? text = some r → r.write = odd.write → r = odd := by
  intro odd taken
  have hodd : odd.Sendable := by decide
  have htaken : ¬taken.Sendable := by decide
  obtain ⟨hown, hany, -, hone⟩ := received_iff_sendable
  have hread : read? odd.write = some odd := (hown odd).mpr hodd
  refine ⟨hodd, htaken, hread, fun text h => htaken ((hany taken).mp ⟨text, h⟩), fun text r h hwrite => ?_⟩
  exact hone text odd.write r odd h hread hwrite

end Request

end AnyCase
