import ClasspathAudit.Document.Basic
import ClasspathAudit.Report.Basic

/-!
What is written of a report. A key, a label or a description that is empty is left out.
-/

namespace ClasspathAudit

def Cell.document : Cell → Document
  | .int value => .int value
  | .bool value => .bool value
  | .list items => .list (items.map .text)
  | c => .text c.text

def Column.document (c : Column) : Document :=
  .record [("name", .text c.name), ("type", .text c.kind)]

def Row.document (row : Row) : Document :=
  .record (Document.textField "key" row.key ++
    [("severity", .text row.severity.name), ("cells", .ofList Cell.document row.cells)])

def Section.document (s : Section) : Document :=
  .record ([("name", .text s.name), ("title", .text s.title)] ++
    Document.textField "description" s.description ++
    [("columns", .ofList Column.document s.columns),
      ("rows", .ofList (Document.ofOption Row.document) s.rows)])

def Summary.document (s : Summary) : Document :=
  .record [("jars", .int s.jars), ("classes", .int s.classes), ("release", .int s.release),
    ("generatedAt", .time s.generatedAt)]

def Report.document (r : Report) : Document :=
  .record ([("id", .text r.id), ("title", .text r.title)] ++ Document.textField "label" r.label ++
    [("summary", r.summary.document),
      ("sections", .ofList (Document.ofOption Section.document) r.sections)])

end ClasspathAudit
