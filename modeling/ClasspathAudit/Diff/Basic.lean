import ClasspathAudit.Diff.Lines
import ClasspathAudit.Logging.Record
import ClasspathAudit.Report.Basic

/-!
The difference of two reports, section by section and row by row.
-/

namespace ClasspathAudit

/-- What became of a row or a section. Differences that were read may bring names that are not known. -/
structure DiffStatus where
  name : String
deriving DecidableEq, Repr

namespace DiffStatus

def unchanged : DiffStatus := ⟨"unchanged"⟩

def added : DiffStatus := ⟨"added"⟩

def removed : DiffStatus := ⟨"removed"⟩

def changed : DiffStatus := ⟨"changed"⟩

def inverse (s : DiffStatus) : DiffStatus :=
  if s = added then removed else if s = removed then added else s

end DiffStatus

/-- The lines of a cell that changed. -/
structure CellDiff where
  column : Int
  lines : Option (List MarkedLine)
deriving DecidableEq, Repr

def CellDiff.inverse (d : CellDiff) : CellDiff :=
  { d with lines := some ((d.lines.getD []).map MarkedLine.inverse) }

/-- Two rows that belong together, or one that stands alone. The status is that of the cells only. -/
structure RowDiff where
  status : DiffStatus
  key : String
  old : Option Row
  new : Option Row
  changedColumns : List Int
  cellDiffs : List (Option CellDiff)
  severityChanged : Bool
deriving DecidableEq, Repr

namespace RowDiff

def inverse (d : RowDiff) : RowDiff :=
  { d with
    status := d.status.inverse
    old := d.new
    new := d.old
    cellDiffs := d.cellDiffs.map (Option.map CellDiff.inverse) }

/-- A row that only the new side has. -/
def ofAdded (row : Row) : RowDiff := ⟨.added, row.key, none, some row, [], [], false⟩

/-- A row that only the old side has. -/
def ofRemoved (row : Row) : RowDiff := ⟨.removed, row.key, some row, none, [], [], false⟩

/-- The columns in which two rows differ, out of at least `columns`. A cell that is not there counts as
empty text. -/
def differingColumns (old new : Row) (columns : Nat) : List Nat :=
  let width := max columns (max (old.cells.getD []).length (new.cells.getD []).length)
  (List.range width).filter fun i => !(old.cell i).equal (new.cell i)

/-- The lines of a column, if one of its two cells has several. -/
def linesOf? (old new : Row) (column : Nat) : Option CellDiff :=
  let before := (old.cell column).text
  let after := (new.cell column).text
  if before.contains '\n' || after.contains '\n' then
    some ⟨column, some (LineDiff.compare before after)⟩
  else none

/-- Two rows that belong together. -/
def ofPair (columns : Nat) (old new : Row) : RowDiff :=
  let differing := differingColumns old new columns
  { status := if differing.isEmpty then .unchanged else .changed
    key := new.key
    old := some old
    new := some new
    changedColumns := differing.map Int.ofNat
    cellDiffs := (differing.filterMap (linesOf? old new)).map some
    severityChanged := old.severity ≠ new.severity }

/-- The row that stands in for the partner of a row without key. -/
def standIn : Row := ⟨"", ⟨""⟩, none⟩

/-- A row without key that has no partner; it counts as changed. -/
def ofUnpaired (columns : Nat) (old new : Row) : RowDiff :=
  { ofPair columns old new with status := .changed, severityChanged := false }

end RowDiff

structure SectionDiff where
  name : String
  title : String
  status : DiffStatus
  columns : Option (List Column)
  rows : Option (List (Option RowDiff))
deriving DecidableEq, Repr

/-- A list, absent if it has no items. -/
def presentItems {α : Type} (items : List α) : Option (List (Option α)) :=
  if items.isEmpty then none else some (items.map some)

namespace SectionDiff

open RowDiff (standIn)

def rowList (d : SectionDiff) : List RowDiff := (d.rows.getD []).filterMap fun row => row

def inverse (d : SectionDiff) : SectionDiff :=
  { d with status := d.status.inverse, rows := presentItems (d.rowList.map RowDiff.inverse) }

/-- A section that only the new report has. -/
def ofAdded (s : Section) : SectionDiff :=
  ⟨s.name, s.title, .added, s.columns, presentItems (s.findings.map RowDiff.ofAdded)⟩

/-- A section that only the old report has. -/
def ofRemoved (s : Section) : SectionDiff :=
  ⟨s.name, s.title, .removed, s.columns, presentItems (s.findings.map RowDiff.ofRemoved)⟩

/-- The places of the partners of rows, given the rows of the other side that have none yet: the first
of these with the same key. -/
def partners : List Row → List (Row × Nat) → List (Option Nat)
  | [], _ => []
  | row :: rest, free =>
    match free.find? (·.1.key = row.key) with
    | some (_, place) => some place :: partners rest (free.filter (·.2 ≠ place))
    | none => none :: partners rest free

/-- A row of the new side without partner. -/
def unpairedNew (columns : Nat) (row : Row) : RowDiff :=
  if row.key.isEmpty then .ofUnpaired columns standIn row else .ofAdded row

/-- A row of the old side without partner. -/
def unpairedOld (columns : Nat) (row : Row) : RowDiff :=
  if row.key.isEmpty then .ofUnpaired columns row standIn else .ofRemoved row

/-- The rows of the difference. Old rows without partner stand before the first pair whose old row
follows them; `next` is the place of the first old row that is still to be placed. -/
def mergeRows (columns : Nat) (old : List Row) (lone : List (Row × Nat)) :
    List (Row × Option Nat) → Nat → List RowDiff
  | [], next => (lone.filter fun (_, place) => decide (next ≤ place)).map fun (row, _) =>
      unpairedOld columns row
  | (row, none) :: rest, next => unpairedNew columns row :: mergeRows columns old lone rest next
  | (row, some place) :: rest, next =>
    ((lone.filter fun (_, p) => decide (next ≤ p) && decide (p < place)).map fun (row, _) =>
        unpairedOld columns row) ++
      (.ofPair columns ((old[place]?).getD standIn) row) ::
        mergeRows columns old lone rest (max next place)

/-- The rows of two sections compared: rows with a key belong together by key, rows without by
position. -/
def rowsOf (old new : Section) : List RowDiff :=
  let columns := new.columnList.length
  let paired := partners new.findings old.findings.zipIdx
  let lone := old.findings.zipIdx.filter fun (_, place) => !paired.contains (some place)
  mergeRows columns old.findings lone (new.findings.zip paired) 0

/-- Two sections of one name. -/
def ofPair (old new : Section) : SectionDiff :=
  let rows := rowsOf old new
  { name := new.name
    title := new.title
    status := if rows.all (·.status = .unchanged) then .unchanged else .changed
    columns := new.columns
    rows := presentItems rows }

end SectionDiff

structure DiffReport where
  oldId : String
  newId : String
  oldTitle : String
  newTitle : String
  sections : Option (List (Option SectionDiff))
deriving DecidableEq, Repr

namespace DiffReport

def sectionList (d : DiffReport) : List SectionDiff := (d.sections.getD []).filterMap fun s => s

def section? (d : DiffReport) (name : String) : Option SectionDiff :=
  d.sectionList.find? (·.name = name)

/-- How many rows have a status. -/
def count (d : DiffReport) (status : DiffStatus) : Nat :=
  (d.sectionList.flatMap SectionDiff.rowList).countP (·.status = status)

def hasChanges (d : DiffReport) : Bool :=
  decide (0 < d.count .added + d.count .removed + d.count .changed)

def inverse (d : DiffReport) : DiffReport where
  oldId := d.newId
  newId := d.oldId
  oldTitle := d.newTitle
  newTitle := d.oldTitle
  sections := presentItems (d.sectionList.map SectionDiff.inverse)

/-- The sections of `first` that `second` lacks. -/
def lacking (first second : Report) : List Section :=
  first.sectionList.filter fun s => (second.section? s.name).isNone

/-- The difference of two reports: the sections in the order of the new report, then those that only
the old one has. -/
def between (old new : Report) : DiffReport where
  oldId := old.id
  newId := new.id
  oldTitle := old.title
  newTitle := new.title
  sections := presentItems (new.sectionList.map (fun s =>
      match old.section? s.name with
      | some oldSection => .ofPair oldSection s
      | none => .ofAdded s) ++ (lacking old new).map .ofRemoved)

def lackingRecord (side : String) (s : Section) : LogRecord :=
  { level := .warn
    message := "section only present in " ++ side ++ " report"
    attributes := [("section", .text s.name)] }

def records (old new : Report) : List LogRecord :=
  (lacking new old).map (lackingRecord "new") ++ (lacking old new).map (lackingRecord "old")

end DiffReport

end ClasspathAudit
