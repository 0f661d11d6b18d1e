import ClasspathAudit.Document.Basic
import ClasspathAudit.Json.Filling
import ClasspathAudit.Proofs.Json.Literals

/-!
Filling records from the trees that were written of them: each field fills the part of its name, each
item of a list its place, and what was left out stays as it was.
-/

namespace ClasspathAudit.Json

theorem itemsToJson_eq (items : List Document) :
    Document.itemsToJson items = items.map Document.toJson := by
  induction items with
  | nil => rfl
  | cons item rest ih => rw [Document.itemsToJson, ih, List.map_cons]

theorem fieldsToJson_eq (fields : List (String × Document)) :
    Document.fieldsToJson fields = fields.map fun field => (field.1, field.2.toJson) := by
  induction fields with
  | nil => rfl
  | cons field rest ih => rw [Document.fieldsToJson, ih, List.map_cons]

section

variable {Source Item : Type} {start : Item} {fill : Json → Item → Option Item}
  {document : Source → Document}
  {result : Source → Item}

/-- Places that were empty are filled one after another. -/
theorem fillItems_map {sources : List Source}
    (each : ∀ source ∈ sources, fill (document source).toJson start = some (result source)) :
    fillItems start fill (sources.map fun source => (document source).toJson) [] =
      some (sources.map result) := by
  induction sources with
  | nil => rfl
  | cons source rest ih =>
    have first := each source List.mem_cons_self
    have others := ih fun other member => each other (List.mem_cons_of_mem source member)
    simp [fillItems, first, others]

theorem fillList_list {sources : List Source} {old : Option (List Item)} (empty : old.getD [] = [])
    (each : ∀ source ∈ sources, fill (document source).toJson start = some (result source)) :
    fillList start fill (Document.list (sources.map document)).toJson old =
      some (some (sources.map result)) := by
  rw [Document.toJson, itemsToJson_eq, List.map_map]
  simp [fillList, Function.comp_def, empty, fillItems_map each]

/-- A list is filled as it was written, and an absent one stays absent. -/
theorem fillList_ofList (sources : Option (List Source))
    (each : ∀ source ∈ sources.getD [], fill (document source).toJson start = some (result source)) :
    fillList start fill (Document.ofList document sources).toJson none =
      some (sources.map (List.map result)) := by
  cases sources with
  | none => rfl
  | some sources => exact fillList_list rfl each

/-- A place that may be empty is filled with a record. -/
theorem fillOptional_record {source : Source} (isRecord : ∃ fields, document source = .record fields)
    (filled : fill (document source).toJson start = some (result source)) :
    fillOptional start fill (document source).toJson none = some (some (result source)) := by
  obtain ⟨fields, written⟩ := isRecord
  rw [written, Document.toJson] at filled ⊢
  simp [fillOptional, filled]

/-- An empty place stays empty. -/
theorem fillOptional_ofOption {source : Option Source}
    (isRecord : ∀ source, ∃ fields, document source = .record fields)
    (each : ∀ found ∈ source, fill (document found).toJson start = some (result found)) :
    fillOptional start fill (Document.ofOption document source).toJson none =
      some (source.map result) := by
  cases source with
  | none => rfl
  | some source => exact fillOptional_record (isRecord source) (each source rfl)

/-- A list with empty places is filled as it was written. -/
theorem fillList_sparse (sources : Option (List (Option Source)))
    (isRecord : ∀ source, ∃ fields, document source = .record fields)
    (each : ∀ place ∈ sources.getD [], ∀ found ∈ place,
      fill (document found).toJson start = some (result found)) :
    fillList none (fillOptional start fill)
      (Document.ofList (Document.ofOption document) sources).toJson none =
      some (sources.map (List.map (Option.map result))) :=
  fillList_ofList sources fun place member => fillOptional_ofOption isRecord (each place member)

end

section

variable {Record : Type} {steps : List (String × (Json → Record → Option Record))}

theorem fillRecord_record (fields : List (String × Document)) (old : Record) :
    fillRecord steps (Document.record fields).toJson old =
      (Document.fieldsToJson fields).foldlM (fillField steps) old := by
  rw [Document.toJson, fillRecord]

theorem fillFields_append (first second : List (String × Document)) (old : Record) :
    (Document.fieldsToJson (first ++ second)).foldlM (fillField steps) old =
      ((Document.fieldsToJson first).foldlM (fillField steps) old).bind fun record =>
        (Document.fieldsToJson second).foldlM (fillField steps) record := by
  rw [fieldsToJson_eq, List.map_append, List.foldlM_append, ← fieldsToJson_eq, ← fieldsToJson_eq]
  rfl

/-- A field fills the part of its name. -/
theorem fillFields_part {Part : Type} {name : String} {document : Document}
    {fill : Json → Part → Option Part}
    {get : Record → Part} {set : Record → Part → Record}
    (known : fieldStep? steps name = some (Filling.part fill get set)) {old : Record} {value : Part}
    (filled : fill document.toJson (get old) = some value) (rest : List (String × Document)) :
    (Document.fieldsToJson ((name, document) :: rest)).foldlM (fillField steps) old =
      (Document.fieldsToJson rest).foldlM (fillField steps) (set old value) := by
  rw [Document.fieldsToJson, List.foldlM_cons, fillField, known]
  simp [Filling.part, filled]

/-- A text that is left out when it is empty is empty then. -/
theorem fillFields_textField {name : String} {get : Record → String} {set : Record → String → Record}
    (known : fieldStep? steps name = some (Filling.part fillText get set)) {old : Record} (value : String)
    (blank : set old "" = old) :
    (Document.fieldsToJson (Document.textField name value)).foldlM (fillField steps) old =
    some (set old value) := by
  unfold Document.textField
  split
  next empty =>
    rw [String.isEmpty_iff.mp empty, blank]
    rfl
  next =>
    rw [fillFields_part known (rfl : fillText (Document.text value).toJson (get old) = some value)]
    rfl

end

end ClasspathAudit.Json
