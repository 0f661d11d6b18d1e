import ClasspathAudit.Document.Filling
import ClasspathAudit.Report.Basic

/-!
Filling reports from trees.
-/

namespace ClasspathAudit

variable {Tree : Type} [TableFilling Tree]

open Filling TableFilling

namespace Column

def blank : Column := ⟨"", ""⟩

def fill : Tree → Column → Option Column :=
  record [
    ("name", part text Column.name fun c v => { c with name := v }),
    ("type", part text Column.kind fun c v => { c with kind := v })]

end Column

namespace Row

def blank : Row := ⟨"", ⟨""⟩, none⟩

def fill : Tree → Row → Option Row :=
  record [
    ("key", part text Row.key fun r v => { r with key := v }),
    ("severity", part text (·.severity.name) fun r v => { r with severity := ⟨v⟩ }),
    ("cells", part (list (.string "") TableFilling.cell) Row.cells fun r v => { r with cells := v })]

end Row

namespace Section

def blank : Section := ⟨"", "", "", none, none⟩

def fill : Tree → Section → Option Section :=
  record [
    ("name", part text Section.name fun s v => { s with name := v }),
    ("title", part text Section.title fun s v => { s with title := v }),
    ("description", part text Section.description fun s v => { s with description := v }),
    ("columns", part (list .blank Column.fill) Section.columns fun s v => { s with columns := v }),
    ("rows", part (sparseList .blank Row.fill) Section.rows fun s v => { s with rows := v })]

end Section

namespace Summary

def blank : Summary := ⟨0, 0, 0, .zero⟩

def fill : Tree → Summary → Option Summary :=
  record [
    ("jars", part int Summary.jars fun s v => { s with jars := v }),
    ("classes", part int Summary.classes fun s v => { s with classes := v }),
    ("release", part int Summary.release fun s v => { s with release := v }),
    ("generatedAt", part time Summary.generatedAt fun s v => { s with generatedAt := v })]

end Summary

namespace Report

def blank : Report := ⟨"", "", "", .blank, none⟩

def fill : Tree → Report → Option Report :=
  record [
    ("id", part text Report.id fun r v => { r with id := v }),
    ("title", part text Report.title fun r v => { r with title := v }),
    ("label", part text Report.label fun r v => { r with label := v }),
    ("summary", part Summary.fill Report.summary fun r v => { r with summary := v }),
    ("sections", part (sparseList .blank Section.fill) Report.sections fun r v =>
      { r with sections := v })]

end Report

end ClasspathAudit
