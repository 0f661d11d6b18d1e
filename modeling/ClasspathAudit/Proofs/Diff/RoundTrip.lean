import ClasspathAudit.Diff.Document
import ClasspathAudit.Diff.Filling
import ClasspathAudit.Proofs.Report.RoundTrip

/-!
Differences of reports filled from what was written of them. The sides of rows come back as the rows of
reports do, and lists that were left out because they are empty are empty again.
-/

namespace ClasspathAudit

open Filling Json

namespace MarkedLine

theorem fill_document (line : MarkedLine) : fill line.document.toJson .blank = some line := by
  rw [document]
  refine (fillRecord_record _ _).trans ?_
  rw [fillFields_part rfl rfl, fillFields_part rfl rfl]
  rfl

end MarkedLine

namespace CellDiff

theorem document_isRecord (d : CellDiff) : ∃ fields, d.document = .record fields := ⟨_, rfl⟩

theorem fill_document {d : CellDiff} (fits : Text.fitsWord d.column = true) :
    fill d.document.toJson .blank = some d := by
  have lines : fillList MarkedLine.blank MarkedLine.fill
        (Document.ofList MarkedLine.document d.lines).toJson none =
      some d.lines := by
    simpa using fillList_ofList d.lines fun line _ => line.fill_document
  rw [document]
  refine (fillRecord_record _ _).trans ?_
  rw [fillFields_part rfl (fillInt_int fits _), fillFields_part rfl lines]
  rfl

end CellDiff

namespace RowDiff

section

variable {Record : Type} {steps : List (String × (Json → Record → Option Record))} {name : String}
  {old : Record}

/-- A list that is left out when it is empty is empty then. -/
theorem fillFields_listField {Source Item : Type} {start : Item} {fill : Json → Item → Option Item}
    {document : Source → Document} {result : Source → Item} {get : Record → Option (List Item)}
    {set : Record → Option (List Item) → Record}
    (known : fieldStep? steps name = some (part (fillList start fill) get set))
    (empty : (get old).getD [] = [])
    (blank : set old (some []) = old) {sources : List Source}
    (each : ∀ source ∈ sources, fill (document source).toJson start = some (result source)) :
    (Document.fieldsToJson (listField name document sources)).foldlM (fillField steps) old =
      some (set old (some (sources.map result))) := by
  unfold listField
  split
  next none =>
    rw [List.isEmpty_iff.mp none, List.map_nil, blank]
    rfl
  next =>
    rw [fillFields_part known (fillList_list empty each)]
    rfl

/-- A side that is missing is left out. -/
theorem fillFields_sideField {get : Record → Option Row} {set : Record → Option Row → Record}
    (known : fieldStep? steps name = some (part (fillOptional .blank Row.fill) get set))
    (empty : get old = none)
    (blank : set old none = old) {side : Option Row} (fits : ∀ row ∈ side, row.Fits) :
    (Document.fieldsToJson (sideField name side)).foldlM (fillField steps) old =
      some (set old (side.map Row.settled)) := by
  cases side with
  | none =>
    rw [Option.map_none, blank]
    rfl
  | some row =>
    have filled := fillOptional_record row.document_isRecord (Row.fill_document (fits row rfl))
    rw [← empty] at filled
    rw [sideField, fillFields_part known filled]
    rfl

/-- A mark that is left out when it is false is false then. -/
theorem fillFields_severityChanged {set : Record → Bool → Record} {get : Record → Bool}
    (known : fieldStep? steps name = some (part fillBool get set)) (blank : set old false = old)
    (value : Bool) :
    (Document.fieldsToJson (if value then [(name, .bool true)] else [])).foldlM (fillField steps) old =
      some (set old value) := by
  cases value with
  | false =>
    rw [blank]
    rfl
  | true =>
    rw [if_pos rfl, fillFields_part known rfl]
    rfl

end

/-- A row of a difference whose sides have cells of known kinds and whose columns have numbers of 64
bits. -/
structure Writable (d : RowDiff) : Prop where
  old : ∀ row ∈ d.old, row.Typed
  new : ∀ row ∈ d.new, row.Typed
  changedColumns : ∀ column ∈ d.changedColumns, Text.fitsWord column = true
  cellDiffs : ∀ place ∈ d.cellDiffs, ∀ cell ∈ place, Text.fitsWord cell.column = true

/-- A row of a difference in which every number fits a word. -/
structure Fits (d : RowDiff) : Prop where
  old : ∀ row ∈ d.old, row.Fits
  new : ∀ row ∈ d.new, row.Fits
  changedColumns : ∀ column ∈ d.changedColumns, Text.fitsWord column = true
  cellDiffs : ∀ place ∈ d.cellDiffs, ∀ cell ∈ place, Text.fitsWord cell.column = true

theorem Writable.fits {d : RowDiff} (writable : d.Writable) : d.Fits where
  old row member := (writable.old row member).fits
  new row member := (writable.new row member).fits
  changedColumns := writable.changedColumns
  cellDiffs := writable.cellDiffs

def settled (d : RowDiff) : RowDiff :=
  { d with old := d.old.map Row.settled, new := d.new.map Row.settled }

theorem document_isRecord (d : RowDiff) : ∃ fields, d.document = .record fields := ⟨_, rfl⟩

theorem fill_document {d : RowDiff} (fits : d.Fits) :
    fill d.document.toJson .blank = some d.settled := by
  have columns : ∀ column ∈ d.changedColumns, fillInt (Document.int column).toJson 0 = some column :=
    fun column member => fillInt_int (fits.changedColumns column member) 0
  have cells : ∀ place ∈ d.cellDiffs,
      fillOptional .blank CellDiff.fill (Document.ofOption CellDiff.document place).toJson none =
        some place := by
    intro place member
    simpa using fillOptional_ofOption CellDiff.document_isRecord fun cell found =>
      CellDiff.fill_document (fits.cellDiffs place member cell found)
  rw [document]
  simp only [List.append_assoc]
  refine (fillRecord_record _ _).trans ?_
  rw [List.cons_append, fillFields_part rfl rfl, List.nil_append, fillFields_append,
    fillFields_textField rfl d.key rfl, Option.bind_some, fillFields_append,
    fillFields_sideField rfl rfl rfl fits.old, Option.bind_some, fillFields_append,
    fillFields_sideField rfl rfl rfl fits.new, Option.bind_some, fillFields_append,
    fillFields_listField rfl rfl rfl columns, Option.bind_some, fillFields_append,
    fillFields_listField rfl rfl rfl cells, Option.bind_some, fillFields_severityChanged rfl rfl,
    List.map_id', List.map_id']
  rfl

end RowDiff

namespace SectionDiff

def Writable (d : SectionDiff) : Prop := ∀ row ∈ d.rowList, row.Writable

def Fits (d : SectionDiff) : Prop := ∀ row ∈ d.rowList, row.Fits

theorem Writable.fits {d : SectionDiff} (writable : d.Writable) : d.Fits :=
  fun row member => (writable row member).fits

def settled (d : SectionDiff) : SectionDiff :=
  { d with rows := d.rows.map (List.map (Option.map RowDiff.settled)) }

theorem document_isRecord (d : SectionDiff) : ∃ fields, d.document = .record fields := ⟨_, rfl⟩

theorem fill_document {d : SectionDiff} (fits : d.Fits) :
    fill d.document.toJson .blank = some d.settled := by
  have columns := Column.fillList_document d.columns
  have rows := fillList_sparse d.rows RowDiff.document_isRecord fun place member row found =>
    RowDiff.fill_document (fits row (List.mem_filterMap.mpr ⟨place, member, found⟩))
  rw [document]
  refine (fillRecord_record _ _).trans ?_
  rw [fillFields_part rfl rfl, fillFields_part rfl rfl, fillFields_part rfl rfl,
    fillFields_part rfl columns,
    fillFields_part rfl rows]
  rfl

end SectionDiff

namespace DiffReport

def Writable (d : DiffReport) : Prop := ∀ s ∈ d.sectionList, s.Writable

def Fits (d : DiffReport) : Prop := ∀ s ∈ d.sectionList, s.Fits

theorem Writable.fits {d : DiffReport} (writable : d.Writable) : d.Fits :=
  fun s member => (writable s member).fits

def settled (d : DiffReport) : DiffReport :=
  { d with sections := d.sections.map (List.map (Option.map SectionDiff.settled)) }

/-- A difference is filled from what was written of it. -/
theorem fill_document {d : DiffReport} (fits : d.Fits) :
    fill d.document.toJson .blank = some d.settled := by
  have sections := fillList_sparse d.sections SectionDiff.document_isRecord fun place member s found =>
    SectionDiff.fill_document (fits s (List.mem_filterMap.mpr ⟨place, member, found⟩))
  rw [document]
  refine (fillRecord_record _ _).trans ?_
  rw [fillFields_part rfl rfl, fillFields_part rfl rfl, fillFields_part rfl rfl, fillFields_part rfl rfl,
    fillFields_part rfl sections]
  rfl

end DiffReport

end ClasspathAudit
