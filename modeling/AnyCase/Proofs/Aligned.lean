import AnyCase.Terminal.Table
import Mathlib.Data.List.MinMax
import Mathlib.Order.Bounds.Defs
import Mathlib.Order.Nat

/-!
# `Proofs.Aligned` — the columns of a table are aligned

The rows of a table may be shorter or longer than its header, and any cell may be the widest of its column. What is
shown of a row is told cell by cell (`Grid.shown`): the content of the cell and the characters it is filled up with.
Its width counts both.

A column is as wide as its widest cell (`Grid.isGreatest_width`), so filling up never has less than nothing to do
(`Grid.width_le`), and every cell that is shown gets just that width (`Grid.fits`). All this is so for any content that
has a width. `Table.columns_aligned` says it of styled texts, whose width is the number of their clusters; what the
style adds on a terminal is not counted.
-/

namespace AnyCase.Terminal

/-- What is shown of a cell. -/
structure Shown (α : Type) where
  content : α
  padding : List Char

variable {α : Type}

theorem Grid.mem_column_iff {t : Grid α} {c : Filled α} {i : Nat} :
    c ∈ t.column i ↔ ∃ row ∈ t.header :: t.rows, row[i]? = some c := by
  rw [column, List.mem_filterMap]
  simp [or_comm]

variable [Content α]

namespace Shown

/-- The width of what is shown: that of the content, and the characters that follow it. -/
def width (s : Shown α) : Nat := Content.width s.content + s.padding.length

/-- What is written for it. -/
def write (mode : Mode) (s : Shown α) : String := Content.write mode s.content ++ String.ofList s.padding

end Shown

/-- A content in a column of a width. -/
def Filled.shown (c : Filled α) (width : Nat) : Shown α := ⟨c.content, List.replicate (width - c.width) c.fill⟩

/-- A content that is not too wide gets the width of its column. -/
theorem Filled.width_shown {c : Filled α} {w : Nat} (h : c.width ≤ w) : (c.shown w).width = w := by
  show c.width + (List.replicate (w - c.width) c.fill).length = w
  rw [List.length_replicate, Nat.add_sub_of_le h]

namespace Grid

variable {t : Grid α} {row : List (Filled α)} {c : Filled α} {s : Shown α} {i : Nat}

/-- The rows that are shown, from the header on. -/
def lines (t : Grid α) : List (List (Filled α)) := t.header :: t.rule :: t.rows

/-- What is shown of a row. -/
def shown (t : Grid α) (row : List (Filled α)) : List (Shown α) := List.zipWith Filled.shown row t.widths

/-- A grid is written line by line. -/
theorem render_eq (mode : Mode) (t : Grid α) : t.render mode = "".intercalate
    (t.lines.map fun row => " | ".intercalate ((t.shown row).map (Shown.write mode)) ++ "\n") := by
  have hcells : ∀ row, (t.shown row).map (Shown.write mode) = renderCells mode t.widths row := fun row =>
    List.map_zipWith
  simp only [hcells]
  rfl

theorem length_shown (t : Grid α) (row : List (Filled α)) : (t.shown row).length = min row.length t.columns := by
  rw [shown, List.length_zipWith, widths, List.length_map, List.length_range]

/-- What is shown at a place of a row is the cell there, in the width of the column. -/
theorem getElem?_shown (hi : i < t.columns) (row : List (Filled α)) :
    (t.shown row)[i]? = row[i]?.map (·.shown (t.width i)) := by
  have hwidth : t.widths[i]? = some (t.width i) := by
    rw [widths, List.getElem?_map, List.getElem?_range hi, Option.map_some]
  rw [shown, List.getElem?_zipWith, hwidth]
  cases row[i]? <;> rfl

/-! ## The widths of the columns -/

/-- The cells of the line below the header have no width. -/
theorem width_of_rule (h : t.rule[i]? = some c) : c.width = 0 := by
  obtain rfl := List.eq_of_mem_replicate (List.mem_of_getElem? h)
  exact Content.width_blank

/-- **No cell is wider than its column.** -/
theorem width_le (hrow : row ∈ t.lines) (hc : row[i]? = some c) : c.width ≤ t.width i := by
  have hcolumn : ∀ row ∈ t.header :: t.rows, row[i]? = some c → c.width ≤ t.width i := fun row hrow hc =>
    List.le_max_of_le' 0 (List.mem_map_of_mem (mem_column_iff.mpr ⟨row, hrow, hc⟩)) (Nat.le_refl _)
  rcases List.mem_cons.mp hrow with rfl | hrow
  · exact hcolumn _ List.mem_cons_self hc
  · rcases List.mem_cons.mp hrow with rfl | hrow
    · rw [width_of_rule hc]
      exact Nat.zero_le _
    · exact hcolumn _ (List.mem_cons_of_mem _ hrow) hc

/-- **A column is as wide as its widest cell**; there is one, since the header has a cell in every column. -/
theorem isGreatest_width (hi : i < t.columns) :
    IsGreatest {w | ∃ row ∈ t.lines, ∃ c, row[i]? = some c ∧ c.width = w} (t.width i) := by
  constructor
  · have hheader : t.header[i]? = some t.header[i] := List.getElem?_eq_getElem hi
    have hne : (t.column i).map Filled.width ≠ [] :=
      List.ne_nil_of_mem (List.mem_map_of_mem (mem_column_iff.mpr ⟨_, List.mem_cons_self, hheader⟩))
    have hmem : t.width i ∈ (t.column i).map Filled.width := List.maximum_mem (List.foldr_max_of_ne_nil hne).symm
    obtain ⟨c, hc, hwidth⟩ := List.mem_map.mp hmem
    obtain ⟨row, hrow, hget⟩ := mem_column_iff.mp hc
    refine ⟨row, ?_, c, hget, hwidth⟩
    rcases List.mem_cons.mp hrow with rfl | hrow
    · exact List.mem_cons_self
    · exact List.mem_cons_of_mem _ (List.mem_cons_of_mem _ hrow)
  · rintro w ⟨row, hrow, c, hc, rfl⟩
    exact width_le hrow hc

/-- **What is shown at a place has the width of the column.** It is the content of the cell there, which is not wider,
and after it as often as needed the character that the cell is filled up with. -/
theorem fits (hrow : row ∈ t.lines) (hs : (t.shown row)[i]? = some s) :
    ∃ c, row[i]? = some c ∧ s.content = c.content ∧ (∀ ch ∈ s.padding, ch = c.fill) ∧ c.width ≤ t.width i ∧
      s.width = t.width i := by
  have hi : i < t.columns := by
    obtain ⟨hlt, -⟩ := List.getElem?_eq_some_iff.mp hs
    rw [length_shown] at hlt
    omega
  rw [getElem?_shown hi] at hs
  obtain ⟨c, hc, rfl⟩ := Option.map_eq_some_iff.mp hs
  have hle := width_le hrow hc
  exact ⟨c, hc, rfl, fun ch hch => List.eq_of_mem_replicate hch, hle, Filled.width_shown hle⟩

end Grid

/-! ## Tables of styled texts -/

namespace Table

open Grid

/-- **The columns of a table are aligned.** Each line is what is shown of its row, with bars in between. That is the
first cells of the row, as many as the row has and the header has columns. Of each cell the content is shown, and after
it as often as needed the character that it is filled up with. The cell is not wider than its column, and what is shown
of it is just as wide, which is the greatest width of all cells there. -/
theorem columns_aligned (mode : Mode) (t : Table) :
    t.render mode = "".intercalate
      (t.lines.map fun row => " | ".intercalate ((t.shown row).map (Shown.write mode)) ++ "\n") ∧
    (∀ row ∈ t.lines, (t.shown row).length = min row.length t.columns ∧
      ∀ i s, (t.shown row)[i]? = some s → ∃ c, row[i]? = some c ∧ s.content = c.content ∧
        (∀ ch ∈ s.padding, ch = c.fill) ∧ c.width ≤ t.width i ∧ s.width = t.width i) ∧
    ∀ i < t.columns, IsGreatest {w | ∃ row ∈ t.lines, ∃ c, row[i]? = some c ∧ c.width = w} (t.width i) := by
  refine ⟨render_eq mode t, fun row hrow => ⟨length_shown t row, ?_⟩, ?_⟩
  · intro i s hs
    exact fits hrow hs
  · intro i hi
    exact isGreatest_width hi

/-- A row that is too long and one that is too short. The widest cell of the first column is bold and has an accent that
is a character of its own, the second column is filled up with dots. -/
theorem columns_aligned_ragged :
    let t : Table := ⟨[.of (.plain "#"), ⟨.plain "Label", '.'⟩],
      [[.of (.ofBold "e\u0301te\u0301"), ⟨.plain "*", '.'⟩, .of (.plain "beyond")], [.of (.colored .red "1")]]⟩
    let long := [Filled.of (.ofBold "e\u0301te\u0301"), ⟨.plain "*", '.'⟩, .of (.plain "beyond")]
    (long ∈ t.lines ∧ t.shown long = [⟨.ofBold "e\u0301te\u0301", []⟩, ⟨.plain "*", ['.', '.', '.', '.']⟩]) ∧
      (t.shown long).length = 2 ∧ (⟨.plain "*", ['.', '.', '.', '.']⟩ : Shown Styled).width = t.width 1 ∧
      IsGreatest {w | ∃ row ∈ t.lines, ∃ c, row[0]? = some c ∧ c.width = w} 3 := by
  intro t long
  have hwidths : t.width 0 = 3 ∧ t.width 1 = 5 := by decide +kernel
  have hmem : long ∈ t.lines := by simp [lines, t, long]
  have hshown : t.shown long = [⟨.ofBold "e\u0301te\u0301", []⟩, ⟨.plain "*", ['.', '.', '.', '.']⟩] := by
    rfl
  obtain ⟨-, hrows, hwidest⟩ := columns_aligned .colored t
  obtain ⟨hlength, hcells⟩ := hrows long hmem
  obtain ⟨c, -, -, -, -, hwidth⟩ := hcells 1 ⟨.plain "*", ['.', '.', '.', '.']⟩ (by rw [hshown]; rfl)
  have hfirst := hwidest 0 (by decide)
  rw [hwidths.1] at hfirst
  exact ⟨⟨hmem, hshown⟩, hlength, hwidth, hfirst⟩

end Table

end AnyCase.Terminal
