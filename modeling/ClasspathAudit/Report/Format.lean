import ClasspathAudit.Text.Letter
import ClasspathAudit.Text.Path

/-!
The formats that reports are written in.
-/

namespace ClasspathAudit

inductive ReportFormat where
  | yaml
  | json
deriving DecidableEq, Repr

namespace ReportFormat

def name : ReportFormat → String
  | yaml => "yaml"
  | json => "json"

def unsupported (word : String) : String := "unsupported format: " ++ word

/-- The format that a word of a user names; none means YAML. -/
def parse? (word : String) : Option ReportFormat :=
  match Text.lower (Text.trimBlank word) with
  | "" => some yaml
  | "yaml" => some yaml
  | "yml" => some yaml
  | "json" => some json
  | _ => none

/-- The format of an exact name; an empty one means YAML. -/
def ofName? (name : String) : Option ReportFormat :=
  match name with
  | "" => some yaml
  | "yaml" => some yaml
  | "json" => some json
  | _ => none

def ofLocation (location : String) : ReportFormat :=
  if Text.equalFold (Text.Path.extension location) ".json" then json else yaml

end ReportFormat

end ClasspathAudit
