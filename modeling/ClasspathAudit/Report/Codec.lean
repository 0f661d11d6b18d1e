import ClasspathAudit.Diff.Document
import ClasspathAudit.Diff.Filling
import ClasspathAudit.Error
import ClasspathAudit.Json.Filling
import ClasspathAudit.Json.Writer
import ClasspathAudit.Report.Format
import ClasspathAudit.Yaml.Filling
import ClasspathAudit.Yaml.Writer

/-!
Reports and differences as text, written and read.
-/

namespace ClasspathAudit

namespace Document

/-- The text of a document for which the format has one. -/
def encode (format : ReportFormat) (document : Document) : String :=
  match format with
  | .yaml => Yaml.file 2 document
  | .json => document.toJson.file

/-- The failure to write a document in a format. -/
def encodeFailure? (format : ReportFormat) (document : Document) : Option Failure :=
  match format with
  | .yaml => none
  | .json => document.timeFault?.map fun reason => .plain
      ("json: error calling MarshalJSON for type time.Time: Time.MarshalJSON: " ++ reason)

def write (format : ReportFormat) (document : Document) : Except Failure String :=
  match document.encodeFailure? format with
  | some failure => .error failure
  | none => .ok (document.encode format)

/-- Fills a record from the first document of a text. -/
def decode? {Record : Type} (format : ReportFormat)
    (fromJson : Json → Record → Option Record) (fromYaml : Yaml.Tree → Record → Option Record)
    (blank : Record) (text : String) : Option Record :=
  match format with
  | .json => do
    let (tree, _) ← Json.first? text
    fromJson tree blank
  | .yaml => do
    let tree ← (← Yaml.tree? text)
    fromYaml tree blank

def undecodable (format : String) : Failure :=
  .plain ("failed to decode " ++ format ++ " report")

end Document

def encodeAs (name : String) (document : Document) : Except Failure String :=
  match ReportFormat.ofName? name with
  | some format => document.write format
  | none => .error (.plain (ReportFormat.unsupported name))

def decodeAs {Record : Type} (decode? : ReportFormat → String → Option Record) (name text : String) :
    Except Failure Record :=
  match ReportFormat.ofName? name with
  | none => .error (.plain (ReportFormat.unsupported name))
  | some format =>
    match decode? format text with
    | some record => .ok record
    | none => .error (Document.undecodable name)

def Report.decode? (format : ReportFormat) (text : String) : Option Report :=
  Document.decode? format Report.fill Report.fill .blank text

def DiffReport.decode? (format : ReportFormat) (text : String) : Option DiffReport :=
  Document.decode? format DiffReport.fill DiffReport.fill .blank text

end ClasspathAudit
