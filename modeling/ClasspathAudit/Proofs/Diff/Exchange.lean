import ClasspathAudit.Proofs.Diff.Origins
import ClasspathAudit.Proofs.Diff.RoundTrip
import ClasspathAudit.Proofs.Diff.Sections
import ClasspathAudit.Proofs.Report.Documents

/-!
Reports and their differences exchanged as JSON: what is written is read back, the cells of a table with
their kinds and their numbers to the last digit.
-/

namespace ClasspathAudit

/-- A row with no more cells than a word can count. -/
def Row.Counted (row : Row) : Prop := ((row.cells.getD []).length : Int) ≤ Text.wordMax

/-- A row as tables hold it: cells of known kinds, no more than a word can count. -/
def Row.Regular (row : Row) : Prop := row.Typed ∧ row.Counted

instance (row : Row) : Decidable row.Regular :=
  inferInstanceAs (Decidable (row.Typed ∧ ((row.cells.getD []).length : Int) ≤ Text.wordMax))

namespace RowDiff

variable {columns : Nat} {old new : Row}

theorem regular_standIn : standIn.Regular := by decide

/-- The columns in which two rows differ have numbers of 64 bits. -/
theorem fitsWord_differing (few : (columns : Int) ≤ Text.wordMax) (oldRegular : old.Regular)
    (newRegular : new.Regular) :
    ∀ column ∈ differingColumns old new columns, Text.fitsWord column = true := by
  intro column member
  have inside := List.mem_range.mp (List.mem_of_mem_filter member)
  obtain ⟨-, oldCounted⟩ := oldRegular
  obtain ⟨-, newCounted⟩ := newRegular
  unfold Row.Counted at oldCounted newCounted
  rw [Json.fitsWord_iff, Text.wordMin]
  omega

theorem column_of_linesOf? {column : Nat} {d : CellDiff} (found : linesOf? old new column = some d) :
    d.column = column := by
  simp only [linesOf?] at found
  split at found <;> cases found
  rfl

theorem writable_ofPair (few : (columns : Int) ≤ Text.wordMax) (oldRegular : old.Regular)
    (newRegular : new.Regular) : (ofPair columns old new).Writable := by
  have fits := fitsWord_differing few oldRegular newRegular
  refine ⟨?_, ?_, List.forall_mem_map.mpr fits, ?_⟩
  · rintro _ ⟨⟩
    exact oldRegular.1
  · rintro _ ⟨⟩
    exact newRegular.1
  · rintro _ member cell ⟨⟩
    obtain ⟨d, listed, ⟨⟩⟩ := List.mem_map.mp member
    obtain ⟨column, differs, found⟩ := List.mem_filterMap.mp listed
    rw [column_of_linesOf? found]
    exact fits column differs

theorem writable_ofUnpaired (few : (columns : Int) ≤ Text.wordMax) (oldRegular : old.Regular)
    (newRegular : new.Regular) : (ofUnpaired columns old new).Writable := by
  obtain ⟨oldSide, newSide, changed, cells⟩ := writable_ofPair few oldRegular newRegular
  exact ⟨oldSide, newSide, changed, cells⟩

theorem writable_ofAdded (typed : new.Typed) : (ofAdded new).Writable := by
  refine ⟨nofun, ?_, List.forall_mem_nil _, List.forall_mem_nil _⟩
  rintro _ ⟨⟩
  exact typed

theorem writable_ofRemoved (typed : old.Typed) : (ofRemoved old).Writable := by
  refine ⟨?_, nofun, List.forall_mem_nil _, List.forall_mem_nil _⟩
  rintro _ ⟨⟩
  exact typed

end RowDiff

namespace SectionDiff

open RowDiff (standIn)

theorem regular_getD {rows : List Row} (regular : ∀ row ∈ rows, row.Regular) (place : Nat) :
    (rows[place]?.getD standIn).Regular := by
  cases found : rows[place]? with
  | none => exact RowDiff.regular_standIn
  | some row => exact regular row (List.mem_of_getElem? found)

theorem writable_rowAt {columns : Nat} (few : (columns : Int) ≤ Text.wordMax) {old new : List Row}
    (oldRegular : ∀ row ∈ old, row.Regular) (newRegular : ∀ row ∈ new, row.Regular) (origin : Origin) :
    (rowAt columns old new origin).Writable := by
  cases origin with
  | both oldPlace newPlace =>
    exact RowDiff.writable_ofPair few (regular_getD oldRegular oldPlace)
      (regular_getD newRegular newPlace)
  | old place =>
    rw [rowAt, unpairedOld]
    split
    · exact RowDiff.writable_ofUnpaired few (regular_getD oldRegular place) RowDiff.regular_standIn
    · exact RowDiff.writable_ofRemoved (regular_getD oldRegular place).1
  | new place =>
    rw [rowAt, unpairedNew]
    split
    · exact RowDiff.writable_ofUnpaired few RowDiff.regular_standIn (regular_getD newRegular place)
    · exact RowDiff.writable_ofAdded (regular_getD newRegular place).1

end SectionDiff

/-- A section as reports hold it: regular rows below no more columns than a word can count. -/
structure Section.Regular (s : Section) : Prop where
  columns : (s.columnList.length : Int) ≤ Text.wordMax
  rows : ∀ row ∈ s.findings, row.Regular

namespace SectionDiff

theorem writable_ofPair {old new : Section} (oldRegular : old.Regular) (newRegular : new.Regular) :
    (ofPair old new).Writable := by
  intro row member
  rw [rowList_ofPair, rowsOf_eq_map] at member
  obtain ⟨origin, -, rfl⟩ := List.mem_map.mp member
  exact writable_rowAt newRegular.columns oldRegular.rows newRegular.rows origin

theorem writable_ofAdded {s : Section} (typed : s.Typed) : (ofAdded s).Writable := by
  intro row member
  rw [rowList_ofAdded] at member
  obtain ⟨finding, listed, rfl⟩ := List.mem_map.mp member
  exact RowDiff.writable_ofAdded (typed finding listed)

theorem writable_ofRemoved {s : Section} (typed : s.Typed) : (ofRemoved s).Writable := by
  intro row member
  rw [rowList_ofRemoved] at member
  obtain ⟨finding, listed, rfl⟩ := List.mem_map.mp member
  exact RowDiff.writable_ofRemoved (typed finding listed)

end SectionDiff

/-- A report as a run produces it: a summary that JSON has a text for above regular sections. -/
structure Report.Regular (r : Report) : Prop where
  summary : r.summary.Writable
  sections : ∀ s ∈ r.sectionList, s.Regular

theorem Report.Regular.writable {r : Report} (regular : r.Regular) : r.Writable :=
  ⟨regular.summary, fun s member row found => ((regular.sections s member).rows row found).1⟩

namespace DiffReport

theorem writable_between {old new : Report} (oldRegular : old.Regular) (newRegular : new.Regular) :
    (between old new).Writable := by
  intro d member
  rw [sectionList_between, List.mem_append] at member
  rcases member with shared | removed
  · obtain ⟨s, listed, rfl⟩ := List.mem_map.mp shared
    split
    next partner found =>
      exact SectionDiff.writable_ofPair (oldRegular.sections partner (List.mem_of_find?_eq_some found))
        (newRegular.sections s listed)
    next => exact SectionDiff.writable_ofAdded (newRegular.writable.typed s listed)
  · obtain ⟨s, listed, rfl⟩ := List.mem_map.mp removed
    exact SectionDiff.writable_ofRemoved (oldRegular.writable.typed s (List.mem_of_mem_filter listed))

end DiffReport

/-- What is written of a record as JSON does no harm inside a script, and `result` is read from it. -/
structure Exchanged {Record : Type} (document : Document)
    (decode? : ReportFormat → String → Option Record) (result : Record) : Prop where
  written : document.write .json = .ok document.toJson.file
  harmless : Json.Harmless document.toJson.file.toList
  read : decode? .json document.toJson.file = some result

theorem Report.exchanged_readBack {r : Report} (fits : r.Fits)
    (timely : r.summary.generatedAt.fault? = none) :
    Exchanged r.document Report.decode? r.readBack := by
  have plain := r.plain_document timely 0
  refine ⟨Document.write_json plain, Json.harmless_file (Document.shallow_toJson plain), ?_⟩
  rw [decode?, Document.decode?_file plain (by decide), fill_document fits timely]

theorem Report.exchanged {r : Report} (writable : r.Writable) :
    Exchanged r.document Report.decode? r.settled := by
  rw [← writable.readBack_eq]
  exact exchanged_readBack writable.fits writable.summary.generatedAt.fault?_eq

theorem DiffReport.exchanged_settled {d : DiffReport} (fits : d.Fits) :
    Exchanged d.document DiffReport.decode? d.settled := by
  have plain := d.plain_document 0
  refine ⟨Document.write_json plain, Json.harmless_file (Document.shallow_toJson plain), ?_⟩
  rw [decode?, Document.decode?_file plain (by decide), fill_document fits]

theorem DiffReport.exchanged {d : DiffReport} (writable : d.Writable) :
    Exchanged d.document DiffReport.decode? d.settled :=
  exchanged_settled writable.fits

/-- A report with an empty place and a table of cells of every kind, one without kind among them. -/
def monday : Report where
  id := "2024-01-01"
  title := "Libraries <all>"
  label := ""
  summary := ⟨3, 120, 8, .ofClock ⟨2024, 1, 1⟩ 7 30 5 120000000 3600⟩
  sections := some [none, some
    { name := "jars", title := "Jars", description := "", columns := some [⟨"name", "string"⟩]
      rows := some [some ⟨"a", .warning, some [.string "a\nb", .int Text.wordMax, .bool true,
        .other "" "<&>"]⟩] }]

/-- The same table a day later, with a row that lacks its cells. -/
def tuesday : Report where
  id := "2024-01-02"
  title := "Libraries <all>"
  label := "daily"
  summary := ⟨3, 121, 8, .ofClock ⟨2024, 1, 2⟩ 7 30 5 0 (-12600)⟩
  sections := some [some
    { name := "jars", title := "Jars", description := "", columns := some [⟨"name", "string"⟩]
      rows := some [some ⟨"a", .info, some [.string "a\nc", .int Text.wordMin, .list []]⟩,
        some ⟨"", .info, none⟩] }]

theorem regular_monday : monday.Regular := by
  refine ⟨⟨rfl, rfl, rfl, by decide, by decide, by decide, by decide, by decide⟩, ?_⟩
  exact List.forall_mem_singleton.mpr ⟨by decide, by decide⟩

theorem regular_tuesday : tuesday.Regular := by
  refine ⟨⟨rfl, rfl, rfl, by decide, by decide, by decide, by decide, by decide⟩, ?_⟩
  exact List.forall_mem_singleton.mpr ⟨by decide, by decide⟩

/-- A report of a year of four digits, by a clock that is a whole day ahead. -/
def dayAhead : Report where
  id := "r"
  title := "t"
  label := ""
  summary := ⟨1, 2, 8, .ofClock ⟨2024, 1, 1⟩ 0 0 0 0 86400⟩
  sections := some []

/-- The same report by a clock that is half a minute ahead. -/
def halfMinuteAhead : Report := { dayAhead with summary := ⟨1, 2, 8, .ofClock ⟨2024, 1, 1⟩ 0 0 0 0 30⟩ }

end ClasspathAudit
