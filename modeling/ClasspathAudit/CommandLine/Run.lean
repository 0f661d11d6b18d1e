import ClasspathAudit.Audit.Basic
import ClasspathAudit.CommandLine.Command
import ClasspathAudit.Configuration.Load
import ClasspathAudit.Graph.Snapshot
import ClasspathAudit.Report.History
import ClasspathAudit.Report.Sink

/-!
Running a command line against the files of a machine: what is printed, how the run ends, and what the
files are afterwards.
-/

namespace ClasspathAudit.CommandLine

def version : String := "dev"

/-- What a run takes from outside. -/
structure Machine where
  files : FileSystem
  directory : String
  environment : List (String × String) := []
  /-- The identity of the next report. -/
  reportId : String
  now : Timestamp
  /-- The text of the time in log lines. -/
  logTime : String
  /-- How long the run took, in nanoseconds. -/
  elapsed : Int := 0

/-- A run under way: the files so far, what was printed and what was logged. -/
structure Progress where
  files : FileSystem
  printed : String := ""
  logged : String := ""

/-- How a run ended. -/
structure Outcome where
  exitCode : Nat
  printed : String
  errors : String
  files : FileSystem

/-- A step of a run, which may end it with a failure. -/
abbrev Step := ExceptT Failure (StateM Progress)

namespace Step

def print (text : String) : Step Unit := modify fun p => { p with printed := p.printed ++ text }

def log (text : String) : Step Unit := modify fun p => { p with logged := p.logged ++ text }

def files : Step FileSystem := do return (← get).files

/-- Changes the files, unless that fails. -/
def changeFiles (change : FileSystem → Except Failure FileSystem) : Step Unit := do
  let changed ← ofExcept (change (← files))
  modify fun p => { p with files := changed }

/-- How a run ends. Failures of the whole run have a code of their own. -/
def outcome (step : Step Unit) (files : FileSystem) : Outcome :=
  match step.run.run { files } with
  | (.ok (), p) => ⟨0, p.printed, p.logged, p.files⟩
  | (.error failure, p) =>
    ⟨if failure.isFatal then 2 else 1, p.printed, p.logged ++ "Error: " ++ failure.text ++ "\n", p.files⟩

end Step

open Step

/-- The configuration with the flags that all commands share. -/
def configure (m : Machine) (given : List Given) : Except Failure Configuration := do
  let c ← Configuration.load m.files m.directory m.environment (textOf "config" given)
  let output := textOf "output" given
  let format := textOf "format" given
  let store := textOf "store" given
  let c := if output = "" then c
    else { c with path := output, format := (ReportFormat.ofLocation output).name }
  let c := if format = "" then c else { c with format }
  let c := if store = "" then c else { c with store }
  c.validate
  return c

def configureAnalysis (c : Configuration) (given : List Given) (operands : List String) :
    Except Failure Configuration := do
  let text (name old : String) : String := if textOf name given = "" then old else textOf name given
  let items (name : String) (old : List String) : List String :=
    if (listOf name given).isEmpty then old else listOf name given
  let c := { c with
    classpath := if operands.isEmpty then c.classpath else operands
    release := if intOf "release" given = 0 then c.release else intOf "release" given
    label := text "label" c.label
    severity := text "severity" c.severity
    enable := items "enable" c.enable
    disable := items "disable" c.disable }
  c.validate
  return c

/-- Writes log records. What the flags say goes before the configured level. -/
def logRecords (m : Machine) (c : Configuration) (given : List Given) (records : List LogRecord) :
    Step Unit :=
  let verbosity := countOf "verbose" given
  let quiet := switchOf "quiet" given
  let level := if 0 < verbosity || quiet then LogLevel.ofVerbosity verbosity quiet
    else LogLevel.parse c.logLevel
  log (LogRecord.lines level (.ofText c.logFormat) m.logTime records)

/-- Opens the store at a path, which is made where it is missing. -/
def openStore (m : Machine) (path : String) : Step ReportStore := do
  changeFiles fun fs =>
    match fs.makeDirectories m.directory (Text.Path.directory path) with
    | .ok fs => .ok fs
    | .error failure => .error (.within "failed to create store directory" failure)
  let fs ← files
  match fs.file? (FileSystem.resolve m.directory path) with
  | none =>
    changeFiles fun fs => fs.write m.directory path []
    return {}
  | some bytes =>
    match ReportStore.ofContent? bytes with
    | some store => return store
    | none => throw (.within "failed to set pragma" (.plain "file is not a database (26)"))

/-- Delivers a document to the output and what `keep` makes of the store to the store. -/
def deliver (m : Machine) (c : Configuration) (document : Document)
    (keep : ReportStore → ReportStore) : Step Unit := do
  let format ← match ReportFormat.parse? c.format with
    | some format => pure format
    | none => throw (.plain (ReportFormat.unsupported c.format))
  if c.path ≠ "" then changeFiles fun fs => fs.write m.directory c.path []
  let store ← if c.store = "" then pure {} else openStore m c.store
  let text ← ofExcept (Sink.deliver false format.name none document)
  if c.path = "" then print text
  else changeFiles fun fs => fs.write m.directory c.path (Text.encodeUtf8 text)
  if c.store ≠ "" then changeFiles fun fs => fs.write m.directory c.store (keep store).content

def findings (count : Nat) (threshold : Severity) : Failure :=
  .plain (toString count ++ " finding(s) at or above " ++ threshold.name)

def runAnalyze (m : Machine) (given : List Given) (operands : List String) : Step Unit := do
  let c ← ofExcept (configure m given)
  let c ← ofExcept (configureAnalysis c given operands)
  let graph := textOf "graph" given
  if graph ≠ "" then changeFiles fun fs => fs.write m.directory graph []
  let fs ← files
  let place : Place := ⟨fs, m.directory⟩
  let artifacts ← ofExcept (Audit.artifacts c place)
  let audit := Audit.run c place { id := m.reportId, generatedAt := m.now } m.elapsed false none artifacts
  logRecords m c given audit.log
  if let some snapshot := audit.snapshot then
    if graph ≠ "" then
      let content := Text.encodeUtf8 (snapshot.document.encode .yaml)
      changeFiles fun fs => fs.write m.directory graph content
  let report ← ofExcept audit.result
  deliver m c report.document (·.save m.now report)
  let threshold := Severity.parse (textOf "fail-on" given)
  if textOf "fail-on" given ≠ "" && report.count threshold ≠ 0 then
    throw (findings (report.count threshold) threshold)

/-- A report by its identity in the store, or else by its location. -/
def loadReport (m : Machine) (store : Option ReportStore) (reference : String) : Step Report := do
  match store.bind (·.load reference) with
  | some found => return found
  | none => ofExcept (Place.report ⟨← files, m.directory⟩ reference)

def comparedReports (m : Machine) (store : Option ReportStore) (latest : String)
    (operands : List String) : Step (Report × Report) := do
  match operands with
  | [new] =>
    if latest = "" then throw (.plain "expected <old> <new> or --latest <label> <new>")
    else match store with
      | none => throw (.plain "--latest requires --store")
      | some known =>
        match known.latest latest with
        | none => throw (.plain ("no stored report labeled " ++ latest))
        | some old => return (old, ← loadReport m store new)
  | [old, new] =>
    let old ← loadReport m store old
    return (old, ← loadReport m store new)
  | _ => throw (.plain "expected <old> <new> or --latest <label> <new>")

def compared (format : ReportFormat) (d : DiffReport) : LogRecord where
  level := .info
  message := "diff completed"
  attributes := [("format", .text format.name), ("added", .number (d.count .added)),
    ("removed", .number (d.count .removed)), ("changed", .number (d.count .changed))]

def runDiff (m : Machine) (given : List Given) (operands : List String) : Step Unit := do
  if operands.isEmpty || 2 < operands.length then
    throw (.plain s!"accepts between 1 and 2 arg(s), received {operands.length}")
  let c ← ofExcept (configure m given)
  let store ← if c.store = "" then pure none else some <$> openStore m c.store
  let (old, new) ← comparedReports m store (textOf "latest" given) operands
  let d := DiffReport.between old new
  deliver m c d.document (·.saveDiff d)
  let format := (ReportFormat.parse? c.format).getD .yaml
  logRecords m c given (DiffReport.records old new ++ [compared format d])

/-- What the help command tells of a topic. -/
def runHelp (topics : List String) : Step Unit :=
  match findCommand topics with
  | .ok (command, _) => print command.help
  | .error _ => log ("Unknown help topic [" ++
      String.intercalate " " (topics.map fun t => "`" ++ t ++ "`") ++ "]\n" ++ rootCommand.usage)

def runCommand (m : Machine) (command : Command) (args : List String) : Step Unit := do
  match parseFlags command.allFlags args with
  | .error fault => throw (.plain fault.message)
  | .ok (given, operands) =>
    if switchOf "help" given then print command.help
    else if command.isRoot && switchOf "version" given then
      print (programName ++ " version " ++ version ++ "\n")
    else if !command.runs then print command.help
    else if command = analyzeCommand then runAnalyze m given operands
    else if command = diffCommand then runDiff m given operands
    else if command = helpCommand then runHelp operands
    else print (programName ++ " " ++ version ++ "\n")

def run (m : Machine) (args : List String) : Outcome :=
  let step : Step Unit := match findCommand args with
    | .error message => throw (.plain message)
    | .ok (command, args) => runCommand m command args
  step.outcome m.files

end ClasspathAudit.CommandLine
