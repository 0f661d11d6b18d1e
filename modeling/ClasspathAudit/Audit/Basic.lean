import ClasspathAudit.Configuration.Basic
import ClasspathAudit.Graph.Snapshot
import ClasspathAudit.Loading.FileSystem
import ClasspathAudit.Loading.Log
import ClasspathAudit.Platform.BuiltIn
import ClasspathAudit.Platform.Decoding
import ClasspathAudit.Report.Codec

/-!
A whole audit: load the classpath, resolve its references against the runtime, run the analyses.
-/

namespace ClasspathAudit

/-- The surroundings of a run. -/
structure Place where
  files : FileSystem
  /-- The working directory. -/
  directory : String

namespace Place

/-- The content of a file; a failure names the absolute path. -/
def download (place : Place) (location : String) : Except Failure (List UInt8) :=
  place.files.read "/" (FileSystem.resolve place.directory location)

def platformList (place : Place) (location : String) : Except Failure PlatformList :=
  match place.download location with
  | .error failure =>
    .error (.codedWithin .invalidConfig ("failed to load platform list " ++ location) failure)
  | .ok bytes => PlatformList.parse (.ofLocation location) (Text.decodeUtf8 bytes)

def report (place : Place) (location : String) : Except Failure Report :=
  match place.download location with
  | .error failure => .error (.within ("failed to load report " ++ location) failure)
  | .ok bytes =>
    let format := ReportFormat.ofLocation location
    match Report.decode? format (Text.decodeUtf8 bytes) with
    | some found => .ok found
    | none => .error (Document.undecodable format.name)

end Place

/-- What becomes of an audit. -/
structure Audit where
  log : List LogRecord
  /-- The dependency graph, if the audit came that far. -/
  snapshot : Option Snapshot
  result : Except Failure Report

namespace Audit

def artifacts (c : Configuration) (place : Place) : Except Failure (List Artifact) := do
  let coordinates ← c.coordinateMap
  let source : FileSource :=
    { locations := c.classpath, coordinates, directory := place.directory }
  return source.artifacts place.files

/-- The list of the runtime that fits the wanted release best, of the built-in one and those configured. -/
def boundary (c : Configuration) (place : Place) : Except Failure (Option PlatformList) := do
  let lists ← c.platform.mapM place.platformList
  return PlatformList.select (.builtIn :: lists) c.release

def graph (c : Configuration) (place : Place) (cancelled : Bool) (artifacts : List Artifact) :
    Except Failure Graph := do
  let jars ← Loader.load c.loaderSettings cancelled artifacts
  let boundary ← boundary c place
  Graph.buildUnless cancelled (.new jars c.release) boundary

def completed (elapsed : Int) (r : Report) : LogRecord where
  level := .info
  message := "analysis completed"
  attributes := [("id", .text r.id), ("jars", .number r.summary.jars),
    ("errors", .number (r.count .error)), ("elapsed", .number elapsed)]

/-- The report on a graph, after the graph was exported. -/
def analyze (c : Configuration) (heading : Analysis.Heading) (cancelled : Bool)
    (exporting : Option Failure) (g : Graph) : Except Failure Report := do
  if let some failure := exporting then
    throw (.within "failed to export dependency graph" failure)
  Analysis.report Analysis.registry (some c.analysisSettings)
    { heading with title := c.title, label := c.label } cancelled g

/-- Runs an audit of artifacts; `exporting` is what exporting the graph fails with, if it does. -/
def run (c : Configuration) (place : Place) (heading : Analysis.Heading) (elapsed : Int)
    (cancelled : Bool) (exporting : Option Failure) (artifacts : List Artifact) : Audit :=
  let loading := if cancelled then []
    else artifacts.flatMap (Loader.artifactRecords c.loaderSettings)
  match graph c place cancelled artifacts with
  | .error failure => ⟨loading, none, .error failure⟩
  | .ok g =>
    match analyze c heading cancelled exporting g with
    | .error failure => ⟨loading, some g.snapshot, .error failure⟩
    | .ok r => ⟨loading ++ [completed elapsed r], some g.snapshot, .ok r⟩

end Audit

end ClasspathAudit
