import AnyCase.Proofs.Form
import Mathlib

/-!
# `Proofs.Winners` — who wins when a form is settled

Settling looks for conflicts once: every group that is named second against another one, both with a selection, loses
(`Form.Beats`), and then all losers are unselected together. A loser therefore loses also to a group that loses in its
turn. A group is unselected exactly if some group beats it (`hasSelection_settle_iff`), and it is left with a winner
beside it only if one of its rivals is beaten by nobody (`winner_of_unselected_iff`).

Who beat the one that beat it, and so on, can be followed back. There are finitely many groups, so the way back ends
with a group that keeps its selection, or it runs in a circle, and then all groups of the circle are unselected
(`exists_winner_or_circle`). Rules that name the groups in one order have no circles (`exists_winner_of_ranked`).
-/

namespace AnyCase

namespace Form

variable {f : Form} {a b x : String}

/-! ## Conflicts -/

/-- `a` wins against `b`: both have a selection, and an exclusion names `a` first. -/
def Beats (f : Form) (a b : String) : Prop :=
  .exclusive a b ∈ f.rules ∧ f.hasSelection a = true ∧ f.hasSelection b = true

/-- An exclusion names both groups, in either order. -/
def Linked (f : Form) (a b : String) : Prop := .exclusive a b ∈ f.rules ∨ .exclusive b a ∈ f.rules

theorem mem_rivals_iff_linked {a b : String} : b ∈ f.rules.filterMap (Rule.rivalOf a) ↔ f.Linked a b := mem_rivals

/-- Groups that are linked are two, if no group excludes itself. -/
theorem Linked.ne (h : ∀ a b, .exclusive a b ∈ f.rules → a ≠ b) {a b : String} (hlinked : f.Linked a b) : a ≠ b :=
  hlinked.elim (h a b) fun hrule => (h b a hrule).symm

theorem mem_losers_iff_beats : x ∈ f.losers ↔ ∃ a, f.Beats a x := mem_losers

/-- **A group keeps its selection exactly if nobody beats it.** -/
theorem hasSelection_settle_iff : f.settle.hasSelection x = true ↔ f.hasSelection x = true ∧ ∀ a, ¬f.Beats a x := by
  rw [settle, hasSelection_enable, hasSelection_aggregate, hasSelection_unselect, mem_losers_iff_beats, not_exists]
  exact and_comm

/-- A group that settling unselects is beaten. -/
theorem exists_beats_of_unselected (hsel : f.hasSelection x = true) (hlost : f.settle.hasSelection x = false) :
    ∃ a, f.Beats a x := by
  by_contra hnone
  have hkept : f.settle.hasSelection x = true := hasSelection_settle_iff.mpr ⟨hsel, not_exists.mp hnone⟩
  rw [hlost] at hkept
  exact Bool.false_ne_true hkept

/-! ## Following defeats back -/

/-- A group with a selection is one of the form. -/
theorem mem_ids_of_hasSelection (h : f.hasSelection x = true) : x ∈ f.groups.map (·.id) := by
  rw [hasSelection, Option.any_eq_true] at h
  obtain ⟨g, hg, -⟩ := h
  rw [← id_of_group? hg]
  exact List.mem_map_of_mem (mem_of_group? hg)

/-- The groups from which defeats lead to `b`. -/
abbrev Ancestor (f : Form) (b : String) : Type :=
  { x : String // x ∈ f.groups.map (·.id) ∧ Relation.ReflTransGen f.Beats x b }

/-- Where no circle of defeats leads to `b`, defeats that lead to it cannot be followed back for ever: there are
finitely many groups, and none comes twice. -/
theorem wellFounded_beats (hcircle : ¬∃ c, Relation.TransGen f.Beats c c ∧ Relation.ReflTransGen f.Beats c b) :
    WellFounded fun x y : f.Ancestor b => Relation.TransGen f.Beats x.1 y.1 := by
  have hids : { x : String | x ∈ f.groups.map (·.id) }.Finite := List.finite_toSet _
  have hfinite : Finite (f.Ancestor b) := hids.subset fun _ hx => hx.1
  have htrans : IsTrans (f.Ancestor b) fun x y => Relation.TransGen f.Beats x.1 y.1 :=
    ⟨fun _ _ _ hxy hyz => hxy.trans hyz⟩
  have hirrefl : Std.Irrefl fun x y : f.Ancestor b => Relation.TransGen f.Beats x.1 y.1 :=
    ⟨fun x hx => hcircle ⟨x, hx, x.2.2⟩⟩
  exact Finite.wellFounded_of_trans_of_irrefl _

/-- **Behind every defeat stands a winner, or a circle.** -/
theorem exists_winner_or_circle (h : f.Beats a b) :
    (∃ w, Relation.TransGen f.Beats w b ∧ f.settle.hasSelection w = true) ∨
      ∃ c, Relation.TransGen f.Beats c c ∧ Relation.ReflTransGen f.Beats c b := by
  by_cases hcircle : ∃ c, Relation.TransGen f.Beats c c ∧ Relation.ReflTransGen f.Beats c b
  · exact Or.inr hcircle
  · refine Or.inl ?_
    -- by induction on how far a defeat can be followed back
    have hback : ∀ y : f.Ancestor b, ∀ z, f.Beats z y.1 →
        ∃ w, Relation.TransGen f.Beats w y.1 ∧ f.settle.hasSelection w = true := by
      intro y
      induction y using (wellFounded_beats hcircle).induction with
      | _ y ih =>
        intro z hz
        by_cases hbeaten : ∃ v, f.Beats v z
        · obtain ⟨v, hv⟩ := hbeaten
          obtain ⟨w, hw, hkept⟩ :=
            ih ⟨z, mem_ids_of_hasSelection hz.2.1, Relation.ReflTransGen.head hz y.2.2⟩ (Relation.TransGen.single hz) v hv
          exact ⟨w, hw.tail hz, hkept⟩
        · exact ⟨z, Relation.TransGen.single hz, hasSelection_settle_iff.mpr ⟨hz.2.1, not_exists.mp hbeaten⟩⟩
    exact hback ⟨b, mem_ids_of_hasSelection h.2.2, Relation.ReflTransGen.refl⟩ a h

/-- **Rules that name the groups in one order leave a winner in every conflict.** -/
theorem exists_winner_of_ranked {rank : String → Nat}
    (hrank : ∀ a b, .exclusive a b ∈ f.rules → rank a < rank b) (h : f.Beats a b) :
    ∃ w, Relation.TransGen f.Beats w b ∧ f.settle.hasSelection w = true := by
  refine (exists_winner_or_circle h).resolve_right ?_
  rintro ⟨c, hc, -⟩
  have hless : ∀ {x y}, Relation.TransGen f.Beats x y → rank x < rank y := by
    intro x y hxy
    induction hxy with
    | single hbeats => exact hrank _ _ hbeats.1
    | tail _ hbeats ih => exact ih.trans (hrank _ _ hbeats.1)
  exact lt_irrefl _ (hless hc)

/-! ## Winners beside a loser -/

/-- **When somebody wins.** A group that settling unselects is left with a winner among the groups it is linked to
exactly if one of these had a selection and is beaten by nobody; being beaten by a group that loses as well is not
enough. Behind it there is a winner in any case, unless there is a circle. -/
theorem winner_of_unselected_iff (hsel : f.hasSelection x = true) (hlost : f.settle.hasSelection x = false) :
    ((∃ w, w ≠ x ∧ f.Linked x w ∧ f.settle.hasSelection w = true) ↔
        ∃ w, f.Linked x w ∧ f.hasSelection w = true ∧ ∀ a, ¬f.Beats a w) ∧
      ((∃ w, Relation.TransGen f.Beats w x ∧ f.settle.hasSelection w = true) ∨
        ∃ c, Relation.TransGen f.Beats c c ∧ Relation.ReflTransGen f.Beats c x) := by
  obtain ⟨a, ha⟩ := exists_beats_of_unselected hsel hlost
  refine ⟨⟨?_, ?_⟩, exists_winner_or_circle ha⟩
  · rintro ⟨w, -, hlinked, hkept⟩
    exact ⟨w, hlinked, hasSelection_settle_iff.mp hkept⟩
  · rintro ⟨w, hlinked, hunbeaten⟩
    have hkept : f.settle.hasSelection w = true := hasSelection_settle_iff.mpr hunbeaten
    refine ⟨w, ?_, hlinked, hkept⟩
    rintro rfl
    rw [hlost] at hkept
    exact Bool.false_ne_true hkept

/-- Three groups with a selection: the first excludes the second, which excludes the third. -/
def row : Form where
  groups := ["a", "b", "c"].map fun id => Group.fixed id none [⟨id ++ "-member", id, true, false⟩]
  rules := [.exclusive "a" "b", .exclusive "b" "c"]

theorem winner_behind_row :
    row.hasSelection "c" = true ∧ row.settle.hasSelection "c" = false ∧
      ((∃ w, w ≠ "c" ∧ row.Linked "c" w ∧ row.settle.hasSelection w = true) ↔
        ∃ w, row.Linked "c" w ∧ row.hasSelection w = true ∧ ∀ a, ¬row.Beats a w) ∧
      ((∃ w, Relation.TransGen row.Beats w "c" ∧ row.settle.hasSelection w = true) ∨
        ∃ c, Relation.TransGen row.Beats c c ∧ Relation.ReflTransGen row.Beats c "c") :=
  ⟨by decide, by decide, winner_of_unselected_iff (by decide) (by decide)⟩

/-- The third group of a row is unselected although the only group it is linked to is left without a selection. -/
theorem row_without_winner :
    (row.groups.map (·.id)).Nodup ∧ (∀ id, .exclusive id id ∉ row.rules) ∧
      row.hasSelection "c" = true ∧ row.settle.hasSelection "c" = false ∧
      ∀ w, row.Linked "c" w → row.settle.hasSelection w = false := by
  refine ⟨by decide, ?_, by decide, by decide, ?_⟩
  · intro id hrule
    simp only [row, List.mem_cons, Rule.exclusive.injEq, List.not_mem_nil, or_false] at hrule
    rcases hrule with ⟨rfl, h⟩ | ⟨rfl, h⟩
    · exact absurd h (by decide)
    · exact absurd h (by decide)
  · intro w hlinked
    simp only [Linked, row, List.mem_cons, Rule.exclusive.injEq, List.not_mem_nil, or_false] at hlinked
    rcases hlinked with (⟨h, -⟩ | ⟨h, -⟩) | (⟨-, h⟩ | ⟨rfl, -⟩)
    · exact absurd h (by decide)
    · exact absurd h (by decide)
    · exact absurd h (by decide)
    · decide

end Form

end AnyCase
