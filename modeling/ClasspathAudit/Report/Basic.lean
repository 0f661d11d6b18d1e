import ClasspathAudit.Report.Cell
import ClasspathAudit.Report.Timestamp
import ClasspathAudit.Text.Letter

/-!
Reports: sections with a table each, whose rows tell how grave they are. A report that was read can lack
a list or hold an empty place in one; both are kept, so that it is written again as it was.
-/

namespace ClasspathAudit

/-- The name of a severity. Reports may bring names that are not known, which rank lowest. -/
structure Severity where
  name : String
deriving DecidableEq, Repr

namespace Severity

def info : Severity := ⟨"info"⟩

def warning : Severity := ⟨"warning"⟩

def error : Severity := ⟨"error"⟩

def rank (s : Severity) : Nat :=
  if s = error then 2 else if s = warning then 1 else 0

/-- The severity that a word means, by default the lowest. -/
def parse (word : String) : Severity :=
  match Text.lower (Text.trimBlank word) with
  | "warning" => warning
  | "warn" => warning
  | "error" => error
  | _ => info

end Severity

structure Column where
  name : String
  /-- The kind of the cells below it. -/
  kind : String
deriving DecidableEq, Repr

/-- A finding. The key identifies it across reports; rows without a key are matched by position. -/
structure Row where
  key : String
  severity : Severity
  cells : Option (List Cell)
deriving DecidableEq, Repr

namespace Row

/-- The cell in a column, empty text where there is none. -/
def cell (row : Row) (column : Nat) : Cell :=
  ((row.cells.getD [])[column]?).getD (.string "")

end Row

/-- The table that one analysis produces. -/
structure Section where
  name : String
  title : String
  description : String
  columns : Option (List Column)
  rows : Option (List (Option Row))
deriving DecidableEq, Repr

namespace Section

def findings (s : Section) : List Row := (s.rows.getD []).filterMap fun row => row

def columnList (s : Section) : List Column := s.columns.getD []

def addRow (s : Section) (row : Row) : Section :=
  { s with rows := some (s.rows.getD [] ++ [some row]) }

/-- Drops the findings below a severity; the lowest drops none. -/
def atLeast (s : Section) (threshold : Severity) : Section :=
  if threshold.rank = 0 then s
  else
    { s with rows := s.rows.map fun rows =>
        rows.filter fun row => row.any fun r => decide (threshold.rank ≤ r.severity.rank) }

end Section

structure Summary where
  jars : Int
  classes : Int
  release : Int
  generatedAt : Timestamp
deriving DecidableEq, Repr

/-- The result of one run. -/
structure Report where
  id : String
  title : String
  label : String
  summary : Summary
  sections : Option (List (Option Section))
deriving DecidableEq, Repr

namespace Report

def sectionList (r : Report) : List Section := (r.sections.getD []).filterMap fun s => s

def section? (r : Report) (name : String) : Option Section :=
  r.sectionList.find? (·.name = name)

/-- How many findings are at least this severe. -/
def count (r : Report) (severity : Severity) : Nat :=
  (r.sectionList.flatMap Section.findings).countP fun row =>
    decide (severity.rank ≤ row.severity.rank)

end Report

end ClasspathAudit
