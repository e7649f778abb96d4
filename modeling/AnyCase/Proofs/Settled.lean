import AnyCase.Proofs.Store
import AnyCase.Proofs.Wire

/-!
# `Proofs.Settled` — objects as maps

What a store keeps is settled: each object has its members in key order, and each key once. Settling a value again
changes nothing (`Json.settled_settled`), and it adds neither a float nor a level (`Json.Within.settled`). For both,
an object that is made a map has no members but those that it had (`Dict.mem_of_mem_toList_ofList`).
-/

namespace AnyCase.Json

/-! ## Settling twice -/

theorem settledMembers_eq_self {members : List (String × Json)} (h : ∀ m ∈ members, m.2.settled = m.2) :
    settledMembers members = members := by
  induction members with
  | nil => rfl
  | cons m rest ih =>
    obtain ⟨hm, hrest⟩ := List.forall_mem_cons.mp h
    rw [settledMembers, hm, ih hrest]

/-- A map of settled values is a settled object. -/
theorem settled_toList {d : Dict Json} (h : ∀ e ∈ d.toList, e.2.settled = e.2) :
    (obj d.toList).settled = obj d.toList := by
  rw [settled, settledMembers_eq_self h, Dict.ofList_toList]

mutual

/-- **Settling a value twice is settling it once.** -/
theorem settled_settled : ∀ v : Json, v.settled.settled = v.settled
  | null | bool _ | int _ | real _ | str _ | torn => rfl
  | arr items => by
    rw [settled, settled, settledItems_eq_self (settled_of_mem_settledItems items)]
  | obj members => by
    rw [settled]
    exact settled_toList fun e he => settled_of_mem_settledMembers members e (Dict.mem_of_mem_toList_ofList he)

theorem settled_of_mem_settledItems : ∀ items : List Json, ∀ v ∈ settledItems items, v.settled = v
  | [], v, hv => by
    rw [settledItems] at hv
    exact absurd hv List.not_mem_nil
  | w :: rest, v, hv => by
    rw [settledItems] at hv
    rcases List.mem_cons.mp hv with rfl | hv
    · exact settled_settled w
    · exact settled_of_mem_settledItems rest v hv

theorem settled_of_mem_settledMembers : ∀ members : List (String × Json), ∀ m ∈ settledMembers members,
    m.2.settled = m.2
  | [], m, hm => by
    rw [settledMembers] at hm
    exact absurd hm List.not_mem_nil
  | (_, w) :: rest, m, hm => by
    rw [settledMembers] at hm
    rcases List.mem_cons.mp hm with rfl | hm
    · exact settled_settled w
    · exact settled_of_mem_settledMembers rest m hm

end

/-- The values in a settled object are settled. -/
theorem settled_of_mem_obj {members : List (String × Json)} (h : (obj members).settled = obj members) :
    ∀ m ∈ members, m.2.settled = m.2 := by
  intro m hm
  rw [settled] at h
  rw [← obj.inj h] at hm
  exact settled_of_mem_settledMembers members m (Dict.mem_of_mem_toList_ofList hm)

/-! ## What is within bounds -/

mutual

theorem within_settled : ∀ v : Json, Plain v → Within v.depth v.settled
  | null, h | bool _, h | int _, h | str _, h => ⟨h, Nat.le_refl _⟩
  | arr items, h => by
    rw [Plain] at h
    rw [settled, depth]
    exact within_arr (within_of_mem_settledItems items h)
  | obj members, h => by
    rw [Plain] at h
    rw [settled, depth]
    exact within_obj fun m hm => within_of_mem_settledMembers members h m (Dict.mem_of_mem_toList_ofList hm)

theorem within_of_mem_settledItems : ∀ items : List Json, PlainItems items →
    ∀ v ∈ settledItems items, Within (depthOfItems items) v
  | [], _, v, hv => by
    rw [settledItems] at hv
    exact absurd hv List.not_mem_nil
  | w :: rest, h, v, hv => by
    rw [PlainItems] at h
    rw [settledItems] at hv
    rw [depthOfItems]
    rcases List.mem_cons.mp hv with rfl | hv
    · exact (within_settled w h.1).mono (Nat.le_max_left _ _)
    · exact (within_of_mem_settledItems rest h.2 v hv).mono (Nat.le_max_right _ _)

theorem within_of_mem_settledMembers : ∀ members : List (String × Json), PlainMembers members →
    ∀ m ∈ settledMembers members, Within (depthOfMembers members) m.2
  | [], _, m, hm => by
    rw [settledMembers] at hm
    exact absurd hm List.not_mem_nil
  | (_, w) :: rest, h, m, hm => by
    rw [PlainMembers] at h
    rw [settledMembers] at hm
    rw [depthOfMembers]
    rcases List.mem_cons.mp hm with rfl | hm
    · exact (within_settled w h.1).mono (Nat.le_max_left _ _)
    · exact (within_of_mem_settledMembers rest h.2 m hm).mono (Nat.le_max_right _ _)

end

/-- **Settling keeps a value within its bounds.** -/
theorem Within.settled {d : Nat} {v : Json} (h : Within d v) : Within d v.settled :=
  (within_settled v h.1).mono h.2

end AnyCase.Json
