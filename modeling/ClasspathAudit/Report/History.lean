import ClasspathAudit.Report.Store

/-!
The store as the content of a file.
-/

namespace ClasspathAudit

namespace StoredReport

def document (r : StoredReport) : Document :=
  .record [("id", .text r.id), ("title", .text r.title), ("label", .text r.label), ("jars", .int r.jars),
    ("classes", .int r.classes), ("createdAt", .text r.createdAt), ("body", .text r.body)]

def blank : StoredReport := ⟨"", "", "", 0, 0, "", ""⟩

def fill : Json → StoredReport → Option StoredReport :=
  Filling.record [
    ("id", Filling.part Filling.text StoredReport.id fun r v => { r with id := v }),
    ("title", Filling.part Filling.text StoredReport.title fun r v => { r with title := v }),
    ("label", Filling.part Filling.text StoredReport.label fun r v => { r with label := v }),
    ("jars", Filling.part Filling.int StoredReport.jars fun r v => { r with jars := v }),
    ("classes", Filling.part Filling.int StoredReport.classes fun r v => { r with classes := v }),
    ("createdAt", Filling.part Filling.text StoredReport.createdAt fun r v => { r with createdAt := v }),
    ("body", Filling.part Filling.text StoredReport.body fun r v => { r with body := v })]

end StoredReport

namespace StoredDiff

def document (d : StoredDiff) : Document :=
  .record [("oldId", .text d.oldId), ("newId", .text d.newId), ("body", .text d.body)]

def blank : StoredDiff := ⟨"", "", ""⟩

def fill : Json → StoredDiff → Option StoredDiff :=
  Filling.record [
    ("oldId", Filling.part Filling.text StoredDiff.oldId fun d v => { d with oldId := v }),
    ("newId", Filling.part Filling.text StoredDiff.newId fun d v => { d with newId := v }),
    ("body", Filling.part Filling.text StoredDiff.body fun d v => { d with body := v })]

end StoredDiff

namespace ReportStore

def document (store : ReportStore) : Document :=
  .record [("reports", .list (store.reports.map (·.document))),
    ("diffs", .list (store.diffs.map (·.document)))]

def fill : Json → ReportStore → Option ReportStore :=
  Filling.record [
    ("reports", Filling.part (Filling.list .blank StoredReport.fill) (some ·.reports)
      fun s v => { s with reports := v.getD [] }),
    ("diffs", Filling.part (Filling.list .blank StoredDiff.fill) (some ·.diffs)
      fun s v => { s with diffs := v.getD [] })]

def content (store : ReportStore) : List UInt8 := Text.encodeUtf8 (store.document.encode .json)

/-- The store that a file keeps; an empty file keeps an empty one. -/
def ofContent? (bytes : List UInt8) : Option ReportStore :=
  if bytes.isEmpty then some {}
  else do fill (← Json.parse? (Text.decodeUtf8 bytes)) {}

end ReportStore

end ClasspathAudit
