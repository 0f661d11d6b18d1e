import ClasspathAudit.Diff.Basic
import ClasspathAudit.Report.Document

/-!
What is written of a difference.
-/

namespace ClasspathAudit

def MarkedLine.document (line : MarkedLine) : Document :=
  .record [("op", .text line.mark.text), ("text", .text line.text)]

def CellDiff.document (d : CellDiff) : Document :=
  .record [("column", .int d.column), ("lines", .ofList MarkedLine.document d.lines)]

namespace RowDiff

/-- A side of a row, left out when it is missing. -/
def sideField (name : String) : Option Row → List (String × Document)
  | some row => [(name, row.document)]
  | none => []

/-- A list that is left out when it is empty. -/
def listField {α : Type} (name : String) (item : α → Document) (items : List α) :
    List (String × Document) :=
  if items.isEmpty then [] else [(name, .list (items.map item))]

def document (d : RowDiff) : Document :=
  .record ([("status", .text d.status.name)] ++ Document.textField "key" d.key ++
    sideField "old" d.old ++ sideField "new" d.new ++
    listField "changedColumns" .int d.changedColumns ++
    listField "cellDiffs" (Document.ofOption CellDiff.document) d.cellDiffs ++
    (if d.severityChanged then [("severityChanged", .bool true)] else []))

end RowDiff

def SectionDiff.document (d : SectionDiff) : Document :=
  .record [("name", .text d.name), ("title", .text d.title), ("status", .text d.status.name),
    ("columns", .ofList Column.document d.columns),
    ("rows", .ofList (Document.ofOption RowDiff.document) d.rows)]

def DiffReport.document (d : DiffReport) : Document :=
  .record [("oldId", .text d.oldId), ("newId", .text d.newId), ("oldTitle", .text d.oldTitle),
    ("newTitle", .text d.newTitle),
    ("sections", .ofList (Document.ofOption SectionDiff.document) d.sections)]

end ClasspathAudit
