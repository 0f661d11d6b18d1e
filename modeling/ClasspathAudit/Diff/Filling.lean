import ClasspathAudit.Diff.Basic
import ClasspathAudit.Report.Filling

/-!
Filling differences of reports from trees.
-/

namespace ClasspathAudit

variable {Tree : Type} [TableFilling Tree]

open Filling TableFilling

namespace MarkedLine

def blank : MarkedLine := ⟨⟨""⟩, ""⟩

def fill : Tree → MarkedLine → Option MarkedLine :=
  record [
    ("op", part Filling.text (·.mark.text) fun l v => { l with mark := ⟨v⟩ }),
    ("text", part Filling.text MarkedLine.text fun l v => { l with text := v })]

end MarkedLine

namespace CellDiff

def blank : CellDiff := ⟨0, none⟩

def fill : Tree → CellDiff → Option CellDiff :=
  record [
    ("column", part int CellDiff.column fun d v => { d with column := v }),
    ("lines", part (list .blank MarkedLine.fill) CellDiff.lines fun d v => { d with lines := v })]

end CellDiff

namespace RowDiff

def blank : RowDiff := ⟨⟨""⟩, "", none, none, [], [], false⟩

def fill : Tree → RowDiff → Option RowDiff :=
  record [
    ("status", part text (·.status.name) fun d v => { d with status := ⟨v⟩ }),
    ("key", part text RowDiff.key fun d v => { d with key := v }),
    ("old", part (optional .blank Row.fill) RowDiff.old fun d v => { d with old := v }),
    ("new", part (optional .blank Row.fill) RowDiff.new fun d v => { d with new := v }),
    ("changedColumns", part (list 0 int) (fun d => some d.changedColumns) fun d v =>
      { d with changedColumns := v.getD [] }),
    ("cellDiffs", part (sparseList .blank CellDiff.fill) (fun d => some d.cellDiffs) fun d v =>
      { d with cellDiffs := v.getD [] }),
    ("severityChanged", part bool RowDiff.severityChanged fun d v => { d with severityChanged := v })]

end RowDiff

namespace SectionDiff

def blank : SectionDiff := ⟨"", "", ⟨""⟩, none, none⟩

def fill : Tree → SectionDiff → Option SectionDiff :=
  record [
    ("name", part text SectionDiff.name fun d v => { d with name := v }),
    ("title", part text SectionDiff.title fun d v => { d with title := v }),
    ("status", part text (·.status.name) fun d v => { d with status := ⟨v⟩ }),
    ("columns", part (list .blank Column.fill) SectionDiff.columns fun d v => { d with columns := v }),
    ("rows", part (sparseList .blank RowDiff.fill) SectionDiff.rows fun d v => { d with rows := v })]

end SectionDiff

namespace DiffReport

def blank : DiffReport := ⟨"", "", "", "", none⟩

def fill : Tree → DiffReport → Option DiffReport :=
  record [
    ("oldId", part text DiffReport.oldId fun d v => { d with oldId := v }),
    ("newId", part text DiffReport.newId fun d v => { d with newId := v }),
    ("oldTitle", part text DiffReport.oldTitle fun d v => { d with oldTitle := v }),
    ("newTitle", part text DiffReport.newTitle fun d v => { d with newTitle := v }),
    ("sections", part (sparseList .blank SectionDiff.fill) DiffReport.sections fun d v =>
      { d with sections := v })]

end DiffReport

end ClasspathAudit
