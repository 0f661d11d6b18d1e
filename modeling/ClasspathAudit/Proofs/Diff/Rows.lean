import ClasspathAudit.Diff.Basic
import Mathlib.Tactic

/-!
Two rows compared. Which columns differ depends on the cells alone, not on the number of columns of the
table or on the side that is called new, so a row difference and that of the swapped rows have the same
outline.
-/

namespace ClasspathAudit

namespace Cell

@[simp]
theorem equal_self (c : Cell) : c.equal c = true := by
  cases c <;> simp [equal]

theorem equal_comm (a b : Cell) : a.equal b = b.equal a := by
  cases a <;> cases b <;> simp [equal, BEq.comm]

end Cell

/-- Two rows have the same cells; a cell that is not there counts as empty text. -/
def Row.SameCells (a b : Row) : Prop := ∀ column, (a.cell column).equal (b.cell column) = true

namespace DiffStatus

@[simp]
theorem inverse_inverse (s : DiffStatus) : s.inverse.inverse = s := by
  by_cases added : s = .added
  · subst added
    rfl
  by_cases removed : s = .removed
  · subst removed
    rfl
  simp [inverse, added, removed]

theorem inverse_eq_iff {s t : DiffStatus} : s.inverse = t ↔ s = t.inverse := by
  constructor
  · rintro rfl
    simp
  · rintro rfl
    simp

end DiffStatus

@[simp]
theorem LineMark.inverse_inverse (mark : LineMark) : mark.inverse.inverse = mark := by
  by_cases inserted : mark = .inserted
  · subst inserted
    rfl
  by_cases deleted : mark = .deleted
  · subst deleted
    rfl
  simp [inverse, inserted, deleted]

@[simp]
theorem MarkedLine.inverse_inverse (line : MarkedLine) : line.inverse.inverse = line := by
  simp [inverse]

namespace RowDiff

/-- No column counts beyond the cells of both rows. -/
theorem differingColumns_eq (old new : Row) (columns : Nat) :
    differingColumns old new columns = differingColumns old new 0 := by
  let width := max (old.cells.getD []).length (new.cells.getD []).length
  have beyond : ∀ i, (old.cell (width + i)).equal (new.cell (width + i)) = true := by
    intro i
    have absent : ∀ row : Row, (row.cells.getD []).length ≤ width →
        row.cell (width + i) = .string "" := by
      intro row short
      simp [Row.cell, List.getElem?_eq_none (show (row.cells.getD []).length ≤ width + i by omega)]
    rw [absent old (le_max_left ..), absent new (le_max_right ..), Cell.equal_self]
  -- the columns split into those with a cell in one of the rows and `more` beyond them
  obtain ⟨more, wider⟩ := Nat.exists_eq_add_of_le (le_max_right columns width)
  simp only [differingColumns, Nat.zero_max]
  change (List.range (max columns width)).filter _ = (List.range width).filter _
  rw [wider, List.range_add, List.filter_append, List.filter_map]
  simp [Function.comp_def, beyond]

theorem differingColumns_comm (old new : Row) (columns columns' : Nat) :
    differingColumns old new columns = differingColumns new old columns' := by
  rw [differingColumns_eq old new columns, differingColumns_eq new old columns']
  simp only [differingColumns, Cell.equal_comm, max_comm]

theorem differingColumns_eq_nil (old new : Row) (columns : Nat) :
    differingColumns old new columns = [] ↔ old.SameCells new := by
  constructor
  · intro none column
    rw [differingColumns_eq, ← differingColumns_eq old new (column + 1), differingColumns,
      List.filter_eq_nil_iff] at none
    simpa using none column (by simp)
  · intro same
    rw [differingColumns, List.filter_eq_nil_iff]
    simp [same _]

/-- A row difference without the lines of its cells. -/
structure Outline where
  status : DiffStatus
  key : String
  old : Option Row
  new : Option Row
  changedColumns : List Int
  lineColumns : List (Option Int)
  severityChanged : Bool
deriving DecidableEq

def outline (d : RowDiff) : Outline :=
  ⟨d.status, d.key, d.old, d.new, d.changedColumns, d.cellDiffs.map (Option.map CellDiff.column),
    d.severityChanged⟩

theorem lineColumns_inverse (d : RowDiff) :
    d.inverse.cellDiffs.map (Option.map CellDiff.column) =
      d.cellDiffs.map (Option.map CellDiff.column) := by
  simp only [inverse, List.map_map]
  apply List.map_congr_left
  intro cell _
  cases cell <;> rfl

theorem linesOf?_column_comm (old new : Row) (column : Nat) :
    (linesOf? old new column).map CellDiff.column = (linesOf? new old column).map CellDiff.column := by
  simp only [linesOf?, Bool.or_comm]
  split <;> rfl

theorem lineColumns_ofPair (columns : Nat) (old new : Row) :
    (ofPair columns old new).cellDiffs.map (Option.map CellDiff.column) =
      ((differingColumns old new columns).filterMap fun column =>
        (linesOf? old new column).map CellDiff.column).map some := by
  simp [ofPair, List.map_filterMap, Option.map_map, Function.comp_def]

/-- Swapping the two rows of a pair inverts the outline of their difference. -/
theorem outline_inverse_ofPair (columns columns' : Nat) {old new : Row} (same : old.key = new.key) :
    (ofPair columns old new).inverse.outline = (ofPair columns' new old).outline := by
  have status : (ofPair columns old new).status.inverse = (ofPair columns' new old).status := by
    simp only [ofPair, differingColumns_comm old new columns columns']
    split <;> rfl
  have lineColumns : (ofPair columns old new).inverse.cellDiffs.map (Option.map CellDiff.column) =
      (ofPair columns' new old).cellDiffs.map (Option.map CellDiff.column) := by
    simp only [lineColumns_inverse, lineColumns_ofPair, linesOf?_column_comm old new,
      differingColumns_comm old new columns columns']
  have changed : (ofPair columns old new).changedColumns = (ofPair columns' new old).changedColumns := by
    simp only [ofPair, differingColumns_comm old new columns columns']
  have severity : (ofPair columns old new).severityChanged = (ofPair columns' new old).severityChanged :=
    decide_eq_decide.mpr ne_comm
  rw [outline, outline, Outline.mk.injEq]
  exact ⟨status, same.symm, rfl, rfl, changed, lineColumns, severity⟩

theorem outline_inverse_ofUnpaired (columns columns' : Nat) {old new : Row}
    (same : old.key = new.key) :
    (ofUnpaired columns old new).inverse.outline = (ofUnpaired columns' new old).outline := by
  have pair := outline_inverse_ofPair columns columns' same
  simp only [outline, Outline.mk.injEq] at pair
  obtain ⟨_, key, before, after, changed, lines, _⟩ := pair
  rw [outline, outline, Outline.mk.injEq]
  exact ⟨rfl, key, before, after, changed, lines, rfl⟩

/-- Each changed cell that is listed has its lines. -/
def Lined (d : RowDiff) : Prop :=
  ∀ cell ∈ d.cellDiffs, ∃ column lines, cell = some ⟨column, some lines⟩

theorem lined_ofPair (columns : Nat) (old new : Row) : (ofPair columns old new).Lined := by
  intro cell member
  obtain ⟨diff, listed, rfl⟩ := List.mem_map.mp member
  obtain ⟨column, _, found⟩ := List.mem_filterMap.mp listed
  rw [linesOf?] at found
  split at found
  · exact ⟨_, _, found.symm⟩
  · cases found

theorem inverse_inverse {d : RowDiff} (lined : d.Lined) : d.inverse.inverse = d := by
  have cells : (d.cellDiffs.map (Option.map CellDiff.inverse)).map (Option.map CellDiff.inverse) =
      d.cellDiffs := by
    rw [List.map_map]
    conv_rhs => rw [← List.map_id d.cellDiffs]
    apply List.map_congr_left
    intro cell member
    obtain ⟨column, lines, rfl⟩ := lined cell member
    simp [CellDiff.inverse, Function.comp_def]
  simp [inverse, cells]

end RowDiff

end ClasspathAudit
