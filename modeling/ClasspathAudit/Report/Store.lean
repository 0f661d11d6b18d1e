import ClasspathAudit.Report.Codec

/-!
A history of reports and of differences. Reports are found by id and, newest first, by label.
-/

namespace ClasspathAudit

/-- A report in the store. -/
structure StoredReport where
  id : String
  title : String
  label : String
  jars : Int
  classes : Int
  /-- The time in a form that sorts like the time itself. -/
  createdAt : String
  body : String
deriving DecidableEq, Repr

structure StoredDiff where
  oldId : String
  newId : String
  body : String
deriving DecidableEq, Repr

/-- What a list of reports tells of one. -/
structure StoreEntry where
  id : String
  title : String
  label : String
  jars : Int
  classes : Int
  createdAt : Timestamp
deriving DecidableEq, Repr

/-- The store, its reports in the order they were saved. -/
structure ReportStore where
  reports : List StoredReport := []
  diffs : List StoredDiff := []
deriving DecidableEq, Repr

namespace ReportStore

/-- The text of a time in universal time with nine places of a second. -/
def timeText (t : Timestamp) : String :=
  let whole := ({ t.utc with nanos := 0 } : Timestamp).text
  Text.dropEnding "Z" whole ++ "." ++ Timestamp.padded 9 t.nanos ++ "Z"

/-- Saves a report in place of one with the same id, unless it has no text. `now` is for reports without
time. -/
def save (now : Timestamp) (r : Report) (store : ReportStore) : ReportStore :=
  let created := if r.summary.generatedAt.isZero then now else r.summary.generatedAt
  match r.document.write .json with
  | .error _ => store
  | .ok body =>
    { store with reports := store.reports.filter (·.id ≠ r.id) ++ [{
        id := r.id
        title := r.title
        label := r.label
        jars := r.summary.jars
        classes := r.summary.classes
        createdAt := timeText created
        body }] }

def saveDiff (d : DiffReport) (store : ReportStore) : ReportStore :=
  match d.document.write .json with
  | .error _ => store
  | .ok body =>
    { store with
      diffs := store.diffs.filter (fun known => !(known.oldId = d.oldId && known.newId = d.newId)) ++
        [⟨d.oldId, d.newId, body⟩] }

/-- The reports with a label, the newest first and of equals the first saved. -/
def labelled (label : String) (store : ReportStore) : List StoredReport :=
  (store.reports.filter (·.label = label)).mergeSort fun a b => decide (b.createdAt ≤ a.createdAt)

def load (id : String) (store : ReportStore) : Option Report := do
  Report.decode? .json (← store.reports.find? (·.id = id)).body

def latest (label : String) (store : ReportStore) : Option Report := do
  Report.decode? .json (← (store.labelled label).head?).body

def loadDiff (oldId newId : String) (store : ReportStore) : Option DiffReport := do
  DiffReport.decode? .json (← store.diffs.find? fun d => d.oldId = oldId ∧ d.newId = newId).body

/-- A time that cannot be read back counts as none. -/
def entryOf (r : StoredReport) : StoreEntry where
  id := r.id
  title := r.title
  label := r.label
  jars := r.jars
  classes := r.classes
  createdAt := (Timestamp.parse? r.createdAt).getD .zero

def list (label : String) (store : ReportStore) : List StoreEntry :=
  (store.labelled label).map entryOf

/-- The failure to save a report that has no text. -/
def encodeFailure? (r : Report) : Option Failure :=
  (r.document.encodeFailure? .json).map (.within ("failed to encode report " ++ r.id))

/-- The failures of a store that is asked while the run is called off. -/
def saveFailure (id : String) : Failure := .within ("failed to save report " ++ id) .cancelled

def writeFailure (id : String) : Failure :=
  .codedWithin .sinkFailure "report not stored" (saveFailure id)

def writeDiffFailure : Failure := .codedWithin .sinkFailure "diff not stored" .cancelled

def loadFailure (key : String) : Failure := .within ("failed to load report " ++ key) .cancelled

def loadDiffFailure (oldId newId : String) : Failure :=
  .within ("failed to load diff " ++ oldId ++ ".." ++ newId) .cancelled

def listFailure : Failure := .within "failed to list reports" .cancelled

end ReportStore

end ClasspathAudit
