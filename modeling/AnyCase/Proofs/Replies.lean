import AnyCase.Message.Reply
import AnyCase.Proofs.Store
import AnyCase.Proofs.Wire

/-!
# `Proofs.Replies` — replies survive the wire

A client reads back the reply that the daemon wrote (`Reply.read?_write`): the JSON value of a reply has all its
parts under different names, and each part is read as the kind of value that it is.

For each type there are two lemmas, that its value is read back and that the value is plain and nested only so
deep. Those of a type cite those of its parts.
-/

namespace AnyCase

open Json

/-- The values of an array are read back if each of them is. -/
theorem Json.list?_map {α : Type} {read : Json → Option α} {write : α → Json} (h : ∀ a, read (write a) = some a)
    (l : List α) : list? read (arr (l.map write)) = some l := by
  show (l.map write).mapM read = some l
  induction l with
  | nil => rfl
  | cons a rest ih =>
    rw [List.map_cons, List.mapM_cons, h, ih]
    rfl

/-! ## Parts -/

namespace Checkbox

@[simp] theorem ofJson?_toJson (c : Checkbox) : ofJson? c.toJson = some c := by
  simp [ofJson?, toJson, fields?, Fields.need?, Fields.get?, Fields.valuesOf, Fields.fits, text?, flag?]

theorem within_toJson (c : Checkbox) : Within 1 c.toJson := by
  refine within_obj fun m hm => ?_
  simp only [List.mem_cons, List.not_mem_nil, or_false] at hm
  rcases hm with rfl | rfl | rfl | rfl
  · exact within_str 0 _
  · exact within_str 0 _
  · exact within_bool 0 _
  · exact within_bool 0 _

end Checkbox

namespace Main

@[simp] theorem ofJson?_toJson (m : Main) : ofJson? m.toJson = some m := by
  simp [ofJson?, toJson, fields?, Fields.need?, Fields.get?, Fields.valuesOf, Fields.fits, text?, flag?]

theorem within_toJson (m : Main) : Within 1 m.toJson := by
  refine within_obj fun x hx => ?_
  simp only [List.mem_cons, List.not_mem_nil, or_false] at hx
  rcases hx with rfl | rfl
  · exact within_str 0 _
  · exact within_bool 0 _

end Main

namespace Rule

@[simp] theorem ofJson?_toJson (numbered : Bool) (rule : Rule) : ofJson? numbered rule.toJson = some rule := by
  cases rule <;>
    simp [ofJson?, toJson, tagged?, kind?, exclusiveKind, enabledKind, disabledKind, Fields.need?, Fields.get?,
      Fields.valuesOf, Fields.fits, text?]

theorem within_toJson (rule : Rule) : Within 1 rule.toJson := by
  cases rule <;>
  · refine within_obj fun m hm => ?_
    simp only [List.mem_cons, List.not_mem_nil, or_false] at hm
    rcases hm with rfl | rfl | rfl <;> exact within_str 0 _

end Rule

namespace GroupState

@[simp] theorem ofJson?_toJson (s : GroupState) : ofJson? s.toJson = some s := by
  obtain ⟨id, main, enabled, dynamic, firstStart, members⟩ := s
  have hmembers := list?_map Checkbox.ofJson?_toJson members
  cases main with
  | none =>
    simp [ofJson?, toJson, optionalMember, fields?, Fields.need?, Fields.get?, Fields.valuesOf, Fields.fits,
      text?, flag?, hmembers]
  | some m =>
    have hmain : optional? Main.ofJson? m.toJson = some (some m) := by
      show (Main.ofJson? m.toJson).map some = _
      rw [Main.ofJson?_toJson]
      rfl
    simp [ofJson?, toJson, optionalMember, fields?, Fields.need?, Fields.get?, Fields.valuesOf, Fields.fits,
      text?, flag?, hmembers, hmain]

theorem within_toJson (s : GroupState) : Within 3 s.toJson := by
  refine within_obj fun x hx => ?_
  simp only [List.mem_append, List.mem_cons, List.not_mem_nil, or_false] at hx
  rcases hx with (rfl | hmain) | rfl | rfl | rfl | rfl
  · exact within_str 2 _
  · exact within_optionalMember (fun m => m.within_toJson.mono (by decide)) hmain
  · exact within_bool 2 _
  · exact within_bool 2 _
  · exact within_bool 2 _
  · exact within_map s.members Checkbox.within_toJson

end GroupState

/-! ## Replies -/

namespace PanelState

theorem ofFields?_members (s : PanelState) : ofFields? (.named s.members) = some s := by
  have hgroups := list?_map GroupState.ofJson?_toJson s.groups
  have hrules := list?_map (Rule.ofJson?_toJson true) s.rules
  simp [ofFields?, members, Fields.need?, Fields.get?, Fields.valuesOf, Fields.fits, text?, flag?, hgroups, hrules]

theorem within_members (s : PanelState) : ∀ m ∈ s.members, Within 4 m.2 := by
  intro m hm
  simp only [members, List.mem_cons, List.not_mem_nil, or_false] at hm
  rcases hm with rfl | rfl | rfl | rfl
  · exact within_str 4 _
  · exact within_bool 4 _
  · exact within_map s.groups GroupState.within_toJson
  · exact (within_map s.rules Rule.within_toJson).mono (by decide)

end PanelState

namespace Reply

theorem ofJson?_toJson (r : Reply) : ofJson? r.toJson = some r := by
  -- no part has the key of the tag
  have htagged : tagged? "command" r.toJson = some (.str r.command, .named r.members) := by
    cases r <;> simp [toJson, tagged?, Fields.valuesOf, members, PanelState.members]
  unfold ofJson?
  rw [htagged]
  show ofFields? r.command (.named r.members) = some r
  cases r with
  | focus => rfl
  | reveal => rfl
  | history fieldId texts =>
    simp [ofFields?, command, members, Fields.need?, Fields.get?, Fields.valuesOf, Fields.fits, text?]
  | state snapshot =>
    show (PanelState.ofFields? (.named snapshot.members)).map state = _
    rw [PanelState.ofFields?_members]
    rfl
  | rejected reason =>
    simp [ofFields?, command, members, Fields.need?, Fields.get?, Fields.valuesOf, Fields.fits, text?]

theorem within_toJson (r : Reply) : Within 5 r.toJson := by
  refine within_obj fun m hm => ?_
  rcases List.mem_cons.mp hm with rfl | hm
  · exact within_str 4 _
  · cases r with
    | focus => exact absurd hm List.not_mem_nil
    | reveal => exact absurd hm List.not_mem_nil
    | history fieldId texts =>
      rcases List.mem_cons.mp hm with rfl | hm
      · exact within_str 4 _
      · rw [List.mem_singleton.mp hm]
        exact within_map texts (within_str 3)
    | state snapshot => exact snapshot.within_members m hm
    | rejected reason =>
      rw [List.mem_singleton.mp hm]
      exact within_str 4 _

/-- **A client reads back the reply that the daemon wrote.** -/
theorem read?_write (r : Reply) : read? r.write = some r := by
  obtain ⟨hplain, hdepth⟩ := r.within_toJson
  unfold read? write
  rw [read?_compact hplain (Nat.le_trans hdepth (by decide)), Option.bind_some, ofJson?_toJson]

end Reply

end AnyCase
