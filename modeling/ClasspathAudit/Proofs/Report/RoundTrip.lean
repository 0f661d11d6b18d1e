import ClasspathAudit.Proofs.Json.Filling
import ClasspathAudit.Proofs.Report.Timestamps
import ClasspathAudit.Report.Document
import ClasspathAudit.Report.Filling

/-!
Reports filled from what was written of them. A cell without kind, or of an unknown one, comes back as a
string, and a time in an offset of whole minutes; all else is as it was, places that were empty and lists
that were absent included.
-/

namespace ClasspathAudit

open Filling Json

namespace Cell

/-- A cell of a known kind, or of none, whose number fits a word. -/
def Typed : Cell → Prop
  | int value => Text.fitsWord value = true
  | other kind _ => kind = ""
  | _ => True

instance : DecidablePred Typed
  | int value => inferInstanceAs (Decidable (Text.fitsWord value = true))
  | other kind _ => inferInstanceAs (Decidable (kind = ""))
  | string _ | bool _ | list _ => inferInstanceAs (Decidable True)

/-- A cell of any kind whose number, if it holds one, fits a word. -/
def Fits : Cell → Prop
  | int value => Text.fitsWord value = true
  | _ => True

theorem Typed.fits {c : Cell} (typed : c.Typed) : c.Fits := by
  cases c with
  | int value => exact typed
  | _ => trivial

/-- The cell that a cell is read back as: one without kind is a string. -/
def settled : Cell → Cell
  | other _ text => string text
  | c => c

theorem settled_equal {c : Cell} (typed : c.Typed) : c.settled.equal c = true := by
  cases c with
  | other kind text =>
    cases typed
    simp [settled, equal, effectiveKind, kind, Cell.text]
  | _ => simp [settled, equal]

theorem kind_settled {c : Cell} (typed : c.Typed) : c.settled.kind = c.effectiveKind := by
  cases c with
  | other kind text =>
    cases typed
    rfl
  | _ => rfl

end Cell

namespace Json

theorem texts?_strings (values : List String) : texts? (values.map string) = some values := by
  induction values with
  | nil => rfl
  | cons value rest ih =>
    rw [texts?] at ih ⊢
    rw [List.map_cons, List.mapM_cons, ih]
    rfl

theorem fillInt_int {n : Int} (fits : Text.fitsWord n = true) (old : Int) :
    fillInt (.int n) old = some n := by
  rw [Json.int, fillInt, parseDecimal_toString fits]
  rfl

theorem fillCell_document {c : Cell} (fits : c.Fits) (old : Cell) :
    fillCell c.document.toJson old = some c.settled := by
  cases c with
  | int value =>
    rw [Cell.document, Document.toJson, Json.int, fillCell, parseDecimal_toString fits]
    rfl
  | list items =>
    have written : (Cell.list items).document.toJson = .array (items.map .string) := by
      simp [Cell.document, Document.toJson, itemsToJson_eq, Function.comp_def]
    rw [written, fillCell, texts?_strings]
    rfl
  | string value => rfl
  | bool value => rfl
  | other kind text => rfl

theorem fillTime_text {t : Timestamp} (timely : t.fault? = none) (fits : t.nanos < 1000000000)
    (old : Timestamp) : fillTime (Document.time t).toJson old = some t.inMinutes := by
  rw [Document.toJson, fillTime, Timestamp.parse?_text_inMinutes timely fits]

end Json

namespace Column

theorem fill_document (c : Column) : fill c.document.toJson .blank = some c := by
  simp [fill, document, Document.toJson, Document.fieldsToJson, record, fillRecord, fillField, fieldStep?,
    part, text, fillText, blank]

theorem fillList_document (columns : Option (List Column)) :
    fillList blank fill (Document.ofList document columns).toJson none = some columns := by
  simpa using fillList_ofList columns fun column _ => fill_document column

end Column

namespace Row

def Typed (row : Row) : Prop := ∀ cell ∈ row.cells.getD [], cell.Typed

instance (row : Row) : Decidable row.Typed :=
  inferInstanceAs (Decidable (∀ cell ∈ row.cells.getD [], cell.Typed))

def Fits (row : Row) : Prop := ∀ cell ∈ row.cells.getD [], cell.Fits

theorem Typed.fits {row : Row} (typed : row.Typed) : row.Fits :=
  fun cell member => (typed cell member).fits

def settled (row : Row) : Row := { row with cells := row.cells.map (List.map Cell.settled) }

theorem document_isRecord (row : Row) : ∃ fields, row.document = .record fields := ⟨_, rfl⟩

theorem fill_document {row : Row} (fits : row.Fits) :
    fill row.document.toJson .blank = some row.settled := by
  have cells := fillList_ofList row.cells fun cell member =>
    fillCell_document (fits cell member) (Cell.string "")
  rw [document]
  refine (fillRecord_record _ _).trans ?_
  rw [fillFields_append, fillFields_textField rfl row.key rfl, Option.bind_some, fillFields_part rfl rfl,
    fillFields_part rfl cells]
  rfl

end Row

namespace Section

def Typed (s : Section) : Prop := ∀ row ∈ s.findings, row.Typed

def Fits (s : Section) : Prop := ∀ row ∈ s.findings, row.Fits

theorem Typed.fits {s : Section} (typed : s.Typed) : s.Fits :=
  fun row member => (typed row member).fits

def settled (s : Section) : Section := { s with rows := s.rows.map (List.map (Option.map Row.settled)) }

theorem document_isRecord (s : Section) : ∃ fields, s.document = .record fields := ⟨_, rfl⟩

theorem mem_findings {s : Section} {place : Option Row} (member : place ∈ s.rows.getD []) {row : Row}
    (found : row ∈ place) : row ∈ s.findings :=
  List.mem_filterMap.mpr ⟨place, member, found⟩

theorem fill_document {s : Section} (fits : s.Fits) :
    fill s.document.toJson .blank = some s.settled := by
  have columns := Column.fillList_document s.columns
  have rows := fillList_sparse s.rows Row.document_isRecord fun place member row found =>
    Row.fill_document (fits row (mem_findings member found))
  rw [document, List.append_assoc]
  refine (fillRecord_record _ _).trans ?_
  rw [List.cons_append, fillFields_part rfl rfl, List.cons_append, fillFields_part rfl rfl,
    List.nil_append,
    fillFields_append, fillFields_textField rfl s.description rfl, Option.bind_some,
    fillFields_part rfl columns, fillFields_part rfl rows]
  rfl

end Section

namespace Summary

/-- A summary of numbers of 64 bits and of a time that its text tells wholly. -/
structure Writable (s : Summary) : Prop where
  jars : Text.fitsWord s.jars = true
  classes : Text.fitsWord s.classes = true
  release : Text.fitsWord s.release = true
  generatedAt : s.generatedAt.Writable

/-- A summary of numbers of 64 bits and of a time that counts nanoseconds up to the second. -/
structure Fits (s : Summary) : Prop where
  jars : Text.fitsWord s.jars = true
  classes : Text.fitsWord s.classes = true
  release : Text.fitsWord s.release = true
  nanos : s.generatedAt.nanos < 1000000000

theorem Writable.fits {s : Summary} (writable : s.Writable) : s.Fits :=
  ⟨writable.jars, writable.classes, writable.release, writable.generatedAt.nanos⟩

def inMinutes (s : Summary) : Summary := { s with generatedAt := s.generatedAt.inMinutes }

theorem fill_document {s : Summary} (fits : s.Fits) (timely : s.generatedAt.fault? = none)
    (old : Summary) : fill s.document.toJson old = some s.inMinutes := by
  rw [document]
  refine (fillRecord_record _ _).trans ?_
  rw [fillFields_part rfl (fillInt_int fits.jars _), fillFields_part rfl (fillInt_int fits.classes _),
    fillFields_part rfl (fillInt_int fits.release _),
    fillFields_part rfl (fillTime_text timely fits.nanos _)]
  rfl

end Summary

namespace Report

structure Writable (r : Report) : Prop where
  summary : r.summary.Writable
  typed : ∀ s ∈ r.sectionList, s.Typed

def settled (r : Report) : Report :=
  { r with sections := r.sections.map (List.map (Option.map Section.settled)) }

/-- The report that a report is read back as. -/
def readBack (r : Report) : Report := { r.settled with summary := r.summary.inMinutes }

structure Fits (r : Report) : Prop where
  summary : r.summary.Fits
  sections : ∀ s ∈ r.sectionList, s.Fits

theorem Writable.fits {r : Report} (writable : r.Writable) : r.Fits :=
  ⟨writable.summary.fits, fun s member => (writable.typed s member).fits⟩

theorem Writable.readBack_eq {r : Report} (writable : r.Writable) : r.readBack = r.settled := by
  rw [readBack, Summary.inMinutes, Timestamp.inMinutes_eq_self writable.summary.generatedAt.minutes]
  rfl

theorem mem_sectionList {r : Report} {place : Option Section} (member : place ∈ r.sections.getD [])
    {s : Section} (found : s ∈ place) : s ∈ r.sectionList :=
  List.mem_filterMap.mpr ⟨place, member, found⟩

/-- A report is filled from what was written of it. -/
theorem fill_document {r : Report} (fits : r.Fits) (timely : r.summary.generatedAt.fault? = none) :
    fill r.document.toJson .blank = some r.readBack := by
  have sections := fillList_sparse r.sections Section.document_isRecord fun place member s found =>
    Section.fill_document (fits.sections s (mem_sectionList member found))
  rw [document, List.append_assoc]
  refine (fillRecord_record _ _).trans ?_
  rw [List.cons_append, fillFields_part rfl rfl, List.cons_append, fillFields_part rfl rfl,
    List.nil_append,
    fillFields_append, fillFields_textField rfl r.label rfl, Option.bind_some,
    fillFields_part rfl (Summary.fill_document fits.summary timely _), fillFields_part rfl sections]
  rfl

end Report

end ClasspathAudit
