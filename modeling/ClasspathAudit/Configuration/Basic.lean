import ClasspathAudit.Analysis.Pipeline
import ClasspathAudit.Loading.Settings
import ClasspathAudit.Report.Format

/-!
The configuration of an audit and the rules that its values keep.
-/

namespace ClasspathAudit

structure Configuration where
  /-- The release that the classpath is looked at for. -/
  release : Int := defaultMaxRelease
  classpath : List String := []
  /-- Coordinates by location, as a location, an equals sign and a coordinate. -/
  coordinates : List String := []
  severity : String := Severity.info.name
  title : String := "JAR Health Check"
  label : String := ""
  workers : Int := 4
  maxRelease : Int := defaultMaxRelease
  nestedJars : Bool := true
  cacheSize : Int := 4096
  /-- Where further lists of runtimes lie. -/
  platform : List String := []
  /-- The analyses to run, all if empty. -/
  enable : List String := []
  disable : List String := []
  /-- The format of the report. -/
  format : String := ReportFormat.yaml.name
  /-- Where the report goes; empty for the standard output. -/
  path : String := ""
  /-- The history of reports; empty for none. -/
  store : String := ""
  logLevel : String := "warn"
  logFormat : String := "text"
deriving DecidableEq, Repr

namespace Configuration

open Text

def text (c : Configuration) : String :=
  s!"Config[release={c.release},classpath={c.classpath.length},output={c.format}]"

def invalid (message : String) : Failure := .coded .invalidConfig message

def coordinateOf (item : String) : Except Failure (String × Coordinate) :=
  match splitLast? '=' item.toList with
  | none => .error (invalid
      ("invalid coordinate " ++ quote item ++ ": expected location=group:artifact:version"))
  | some (location, value) =>
    match Coordinate.parse (String.ofList value) with
    | .error fault =>
      .error (.codedWithin .invalidConfig "invalid coordinate" (.plain fault.message))
    | .ok coordinate => .ok (String.ofList (trimBlankList location), coordinate)

/-- The declared coordinates by location; the last one for a location counts. -/
def coordinateMap (c : Configuration) : Except Failure (List (String × Coordinate)) := do
  let declared ← c.coordinates.mapM coordinateOf
  return declared.foldl (fun map entry => map.filter (·.1 ≠ entry.1) ++ [entry]) []

def leastMaxRelease : Int := baseRelease + 1

def checkNumbers (c : Configuration) : Except Failure Unit :=
  if c.maxRelease < leastMaxRelease then
    .error (invalid s!"maxRelease must be at least {leastMaxRelease}: {c.maxRelease}")
  else if c.release < baseRelease ∨ c.maxRelease < c.release then
    .error (invalid s!"release must be between {baseRelease} and {c.maxRelease}: {c.release}")
  else if c.workers < 1 then .error (invalid s!"workers must be positive: {c.workers}")
  else if c.cacheSize < 0 then .error (invalid s!"cacheSize must not be negative: {c.cacheSize}")
  else .ok ()

/-- The severities that can be asked for, in lower case; an empty one means the lowest. -/
def severityNames : List String := ["info", "warning", "error", ""]

def checkNames (c : Configuration) : Except Failure Unit :=
  if !severityNames.contains (lower c.severity) then
    .error (invalid ("unsupported severity: " ++ c.severity))
  else if (ReportFormat.parse? c.format).isNone then
    .error (.codedWithin .invalidConfig "invalid output" (.plain (ReportFormat.unsupported c.format)))
  else
    match (c.enable ++ c.disable).find? fun name => !Analysis.names.contains name with
    | some name => .error (invalid ("unknown analyzer: " ++ name ++ ", expected one of " ++
        String.intercalate ", " Analysis.names))
    | none => .ok ()

/-- Checks ranges first, then names, then coordinates. -/
def validate (c : Configuration) : Except Failure Unit := do
  c.checkNumbers
  c.checkNames
  let _ ← c.coordinateMap

def loaderSettings (c : Configuration) : LoaderSettings :=
  LoaderSettings.init {
    maxRelease := c.maxRelease
    nestedJars := c.nestedJars
    resources := true
    cacheSize := c.cacheSize
    workers := c.workers }

def analysisSettings (c : Configuration) : AnalysisSettings where
  severity := Severity.parse c.severity
  enable := c.enable
  disable := c.disable
  workers := c.workers

end Configuration

end ClasspathAudit
