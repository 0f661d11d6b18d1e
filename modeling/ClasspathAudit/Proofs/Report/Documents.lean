import ClasspathAudit.Proofs.Json.Escaping
import ClasspathAudit.Proofs.Json.Filling
import ClasspathAudit.Report.Codec

/-!
Documents written as JSON. Where every time has a text the document has one too, and the first document of
that text is the one written.
-/

namespace ClasspathAudit.Document

/-- A document of at most `depth` levels of lists and records, in which every time has a text. -/
def Plain : Nat → Document → Prop
  | _, null | _, absentList | _, bool _ | _, int _ | _, text _ => True
  | _, time value => value.fault? = none
  | 0, list _ | 0, record _ => False
  | depth + 1, list items => ∀ item ∈ items, Plain depth item
  | depth + 1, record fields => ∀ field ∈ fields, Plain depth field.2

/-- What holds of documents without items, and passes from items to what holds them, holds of every plain
document. -/
theorem plain_induction {motive : Nat → Document → Prop}
    (single : ∀ depth document, Plain 0 document → motive depth document)
    (list : ∀ depth items, (∀ item ∈ items, motive depth item) → motive (depth + 1) (.list items))
    (record : ∀ depth fields, (∀ field ∈ fields, motive depth field.2) →
      motive (depth + 1) (.record fields))
    {depth : Nat} {document : Document} (plain : Plain depth document) : motive depth document := by
  induction depth generalizing document with
  | zero => exact single 0 document plain
  | succ depth ih =>
    cases document with
    | list items => exact list depth items fun item member => ih (plain item member)
    | record fields => exact record depth fields fun field member => ih (plain field member)
    | null => exact single _ _ (show Plain 0 .null from trivial)
    | absentList => exact single _ _ (show Plain 0 .absentList from trivial)
    | bool value => exact single _ _ (show Plain 0 (.bool value) from trivial)
    | int value => exact single _ _ (show Plain 0 (.int value) from trivial)
    | text value => exact single _ _ (show Plain 0 (.text value) from trivial)
    | time value => exact single _ _ (show Plain 0 (.time value) from plain)

theorem shallow_toJson {depth : Nat} {document : Document} (plain : Plain depth document) :
    Json.Shallow depth document.toJson := by
  refine plain_induction (motive := fun depth document => Json.Shallow depth document.toJson)
    (fun depth document single => ?_) (fun depth items ih => ?_) (fun depth fields ih => ?_) plain
  · cases document with
    | int value => cases depth <;> exact ⟨value, rfl⟩
    | list items => exact single.elim
    | record fields => exact single.elim
    | _ => cases depth <;> trivial
  · rw [toJson, Json.itemsToJson_eq]
    exact List.forall_mem_map.mpr ih
  · rw [toJson, Json.fieldsToJson_eq]
    exact List.forall_mem_map.mpr ih

theorem timeFault?_eq {depth : Nat} {document : Document} (plain : Plain depth document) :
    document.timeFault? = none := by
  refine plain_induction (motive := fun _ document => document.timeFault? = none)
    (fun depth document single => ?_) (fun depth items ih => ?_) (fun depth fields ih => ?_) plain
  · cases document with
    | time value => exact single
    | list items => exact single.elim
    | record fields => exact single.elim
    | _ => rfl
  · rw [timeFault?]
    induction items with
    | nil => rfl
    | cons item rest others =>
      obtain ⟨first, ih⟩ := List.forall_mem_cons.mp ih
      rw [itemsTimeFault?, first, others ih]
      rfl
  · rw [timeFault?]
    induction fields with
    | nil => rfl
    | cons field rest others =>
      obtain ⟨first, ih⟩ := List.forall_mem_cons.mp ih
      rw [fieldsTimeFault?, first, others ih]
      rfl

theorem timeFault?_of_mem {fields : List (String × Document)} (silent : (record fields).timeFault? = none)
    {field : String × Document} (member : field ∈ fields) : field.2.timeFault? = none := by
  rw [timeFault?] at silent
  induction fields with
  | nil => cases member
  | cons first rest ih =>
    rw [fieldsTimeFault?, Option.or_eq_none_iff] at silent
    rcases List.mem_cons.mp member with rfl | later
    · exact silent.1
    · exact ih silent.2 later

/-- What is written is the text of the document, and every time in it has a text. -/
theorem eq_encode_of_write {document : Document} {text : String} (written : document.write .json = .ok text) :
    text = document.encode .json ∧ document.timeFault? = none := by
  rw [write] at written
  split at written
  · cases written
  next silent =>
    cases written
    exact ⟨rfl, Option.map_eq_none_iff.mp silent⟩

/-- What a plain document is written as, the document read back from it included. -/
theorem write_json {depth : Nat} {document : Document} (plain : Plain depth document) :
    document.write .json = .ok document.toJson.file := by
  simp [write, encodeFailure?, timeFault?_eq plain, encode]

/-- A record is filled from the document that was written. -/
theorem decode?_file {Record : Type} {depth : Nat} {document : Document} (plain : Plain depth document)
    (enough : depth ≤ Json.maxDepth) (fromJson : Json → Record → Option Record)
    (fromYaml : Yaml.Tree → Record → Option Record) (blank : Record) :
    decode? .json fromJson fromYaml blank document.toJson.file = fromJson document.toJson blank := by
  simp [decode?, Json.first?_file (shallow_toJson plain) enough]

section

variable {depth : Nat}

theorem plain_text (value : String) : Plain depth (.text value) := by cases depth <;> trivial

theorem plain_int (value : Int) : Plain depth (.int value) := by cases depth <;> trivial

theorem plain_bool (value : Bool) : Plain depth (.bool value) := by cases depth <;> trivial

theorem plain_time {t : Timestamp} (timely : t.fault? = none) : Plain depth (.time t) := by
  cases depth <;> exact timely

theorem plain_ofList {Source : Type} {item : Source → Document} {sources : Option (List Source)}
    (each : ∀ source ∈ sources.getD [], Plain depth (item source)) :
    Plain (depth + 1) (ofList item sources) := by
  cases sources with
  | none => trivial
  | some sources => exact List.forall_mem_map.mpr each

theorem plain_ofOption {Source : Type} {item : Source → Document} {source : Option Source}
    (each : ∀ found ∈ source, Plain depth (item found)) : Plain depth (ofOption item source) := by
  cases source with
  | none => cases depth <;> trivial
  | some source => exact each source rfl

theorem plain_textField (name value : String) : ∀ field ∈ textField name value, Plain depth field.2 := by
  unfold textField
  split
  · exact List.forall_mem_nil _
  · exact List.forall_mem_singleton.mpr (plain_text value)

end

end ClasspathAudit.Document

namespace ClasspathAudit

open Document

theorem Cell.plain_document (c : Cell) (depth : Nat) : Plain (depth + 1) c.document := by
  cases c with
  | list items => exact List.forall_mem_map.mpr fun item _ => plain_text item
  | int value => exact plain_int value
  | bool value => exact plain_bool value
  | string value => exact plain_text value
  | other kind text => exact plain_text text

theorem Column.plain_document (c : Column) (depth : Nat) : Plain (depth + 1) c.document := by
  rw [document, Plain]
  simp [plain_text]

theorem Row.plain_document (row : Row) (depth : Nat) : Plain (depth + 3) row.document := by
  have cells : Plain (depth + 2) (.ofList Cell.document row.cells) :=
    plain_ofList fun cell _ => cell.plain_document depth
  rw [document, Plain, List.forall_mem_append]
  exact ⟨plain_textField _ _, by simp [plain_text, cells]⟩

theorem Section.plain_document (s : Section) (depth : Nat) : Plain (depth + 5) s.document := by
  have columns : Plain (depth + 4) (.ofList Column.document s.columns) :=
    plain_ofList fun column _ => column.plain_document (depth + 2)
  have rows : Plain (depth + 4) (.ofList (Document.ofOption Row.document) s.rows) :=
    plain_ofList fun place _ => plain_ofOption fun row _ => row.plain_document depth
  rw [document, Plain, List.forall_mem_append, List.forall_mem_append]
  exact ⟨⟨by simp [plain_text], plain_textField _ _⟩, by simp [columns, rows]⟩

theorem Summary.plain_document {s : Summary} (timely : s.generatedAt.fault? = none) (depth : Nat) :
    Plain (depth + 1) s.document := by
  rw [document, Plain]
  simp [plain_int, plain_time timely]

theorem Report.plain_document {r : Report} (timely : r.summary.generatedAt.fault? = none) (depth : Nat) :
    Plain (depth + 7) r.document := by
  have sections : Plain (depth + 6) (.ofList (Document.ofOption Section.document) r.sections) :=
    plain_ofList fun place _ => plain_ofOption fun s _ => s.plain_document depth
  rw [document, Plain, List.forall_mem_append, List.forall_mem_append]
  exact ⟨⟨by simp [plain_text], plain_textField _ _⟩,
    by simp [Summary.plain_document timely (depth + 5), sections]⟩

/-- A report with a text is of a time with a text. -/
theorem Report.timely_of_write {r : Report} {text : String} (written : r.document.write .json = .ok text) :
    r.summary.generatedAt.fault? = none := by
  have silent := (eq_encode_of_write written).2
  have summary : r.summary.document.timeFault? = none :=
    timeFault?_of_mem silent (show ("summary", r.summary.document) ∈ _ by simp)
  exact timeFault?_of_mem summary (show ("generatedAt", .time r.summary.generatedAt) ∈ _ by simp)

theorem MarkedLine.plain_document (line : MarkedLine) (depth : Nat) :
    Plain (depth + 1) line.document := by
  rw [document, Plain]
  simp [plain_text]

theorem CellDiff.plain_document (d : CellDiff) (depth : Nat) : Plain (depth + 3) d.document := by
  have lines : Plain (depth + 2) (.ofList MarkedLine.document d.lines) :=
    plain_ofList fun line _ => line.plain_document depth
  rw [document, Plain]
  simp [plain_int, lines]

namespace RowDiff

theorem plain_sideField (name : String) (side : Option Row) (depth : Nat) :
    ∀ field ∈ sideField name side, Plain (depth + 3) field.2 := by
  cases side with
  | none => exact List.forall_mem_nil _
  | some row => exact List.forall_mem_singleton.mpr (row.plain_document depth)

theorem plain_listField {Source : Type} {name : String} {item : Source → Document}
    {sources : List Source} {depth : Nat} (each : ∀ source ∈ sources, Plain depth (item source)) :
    ∀ field ∈ listField name item sources, Plain (depth + 1) field.2 := by
  unfold listField
  split
  · exact List.forall_mem_nil _
  · exact List.forall_mem_singleton.mpr (List.forall_mem_map.mpr each)

theorem plain_document (d : RowDiff) (depth : Nat) : Plain (depth + 5) d.document := by
  have columns : ∀ field ∈ listField "changedColumns" .int d.changedColumns, Plain (depth + 4) field.2 :=
    plain_listField fun column _ => plain_int column
  have cells : ∀ field ∈ listField "cellDiffs" (Document.ofOption CellDiff.document) d.cellDiffs,
      Plain (depth + 4) field.2 :=
    plain_listField fun place _ => plain_ofOption fun cell _ => cell.plain_document depth
  have mark : ∀ field ∈ (if d.severityChanged then [("severityChanged", Document.bool true)] else []),
      Plain (depth + 4) field.2 := by
    cases d.severityChanged <;> simp [plain_bool]
  rw [document, Plain]
  simp only [List.forall_mem_append]
  exact ⟨⟨⟨⟨⟨⟨by simp [plain_text], plain_textField _ _⟩, plain_sideField _ _ (depth + 1)⟩,
    plain_sideField _ _ (depth + 1)⟩, columns⟩, cells⟩, mark⟩

end RowDiff

theorem SectionDiff.plain_document (d : SectionDiff) (depth : Nat) : Plain (depth + 7) d.document := by
  have columns : Plain (depth + 6) (.ofList Column.document d.columns) :=
    plain_ofList fun column _ => column.plain_document (depth + 4)
  have rows : Plain (depth + 6) (.ofList (Document.ofOption RowDiff.document) d.rows) :=
    plain_ofList fun place _ => plain_ofOption fun row _ => row.plain_document depth
  rw [document, Plain]
  simp [plain_text, columns, rows]

theorem DiffReport.plain_document (d : DiffReport) (depth : Nat) : Plain (depth + 9) d.document := by
  have sections : Plain (depth + 8) (.ofList (Document.ofOption SectionDiff.document) d.sections) :=
    plain_ofList fun place _ => plain_ofOption fun s _ => s.plain_document depth
  rw [document, Plain]
  simp [plain_text, sections]

end ClasspathAudit
