import ClasspathAudit.Configuration.Basic
import ClasspathAudit.Configuration.Setting

/-!
Where the settings of a configuration come from. A variable of the environment goes before the file, and
the file before the defaults. A plain value for a group hides all below the group in what comes after it.
-/

namespace ClasspathAudit

/-- The sources of settings. -/
structure SettingSources where
  environment : List (String × String)
  /-- The fields of the file, their names in lower case. -/
  file : List (String × Setting) := []

namespace SettingSources

def variableName (path : List String) : String :=
  Text.upper (String.intercalate "_" ("JARHC" :: path))

/-- The value of a variable for a setting, none if it is empty. -/
def valueOf? (sources : SettingSources) (path : List String) : Option Setting :=
  match (sources.environment.find? (·.1 = variableName path)).map Prod.snd with
  | some "" => none
  | found => found.map .text

def field? (sources : SettingSources) (name : String) (default : Setting) : Setting :=
  ((sources.valueOf? [name]).or (Setting.field? name sources.file)).getD default

/-- What the file says about a field of a group, under the name of both or in the group. -/
def inFile? (sources : SettingSources) (group name : String) : Option Setting :=
  (Setting.field? (group ++ "." ++ name) sources.file).or <|
    match Setting.field? group sources.file with
    | some (.group fields) => Setting.field? name fields
    | _ => none

/-- The setting of a field in a group; null where a plain value for the group hides it. -/
def groupField (sources : SettingSources) (group name : String) (default : Setting) : Setting :=
  match sources.valueOf? [group, name] with
  | some value => value
  | none =>
    if (sources.valueOf? [group]).isSome then .null
    else match sources.inFile? group name with
      | some value => value
      | none =>
        match Setting.field? group sources.file with
        | some (.group _) => default
        | some _ => .null
        | none => default

/-- The fields of a group. Where the file has something else in the place of the group, that or the
variable of the group is taken whole. -/
def group? (sources : SettingSources) (group : String) (defaults : List (String × Setting)) :
    Option (List (String × Setting)) :=
  let listed := (sources.file.reverse.find? (·.1 = group)).map Prod.snd
  match listed with
  | none | some (.group _) =>
    some (defaults.map fun (name, default) => (name, sources.groupField group name default))
  | some _ => (sources.field? group (.group defaults)).asGroup

end SettingSources

def SettingSources.variableNames : List String :=
  ([["release"], ["classpath"], ["coordinates"], ["severity"], ["title"], ["label"], ["workers"],
    ["maxrelease"], ["nestedjars"], ["cachesize"], ["platform"], ["analyzers"], ["analyzers", "enable"],
    ["analyzers", "disable"], ["output"], ["output", "format"], ["output", "path"], ["store"],
    ["store", "path"], ["log"], ["log", "level"], ["log", "format"]]).map variableName

namespace Configuration

/-- The configuration that sources give; none if a setting does not fit its place. -/
def ofSources? (sources : SettingSources) : Option Configuration := do
  let base : Configuration := {}
  let plain (name : String) (default : Setting) := sources.field? name default
  let within (fields : List (String × Setting)) (name : String) : Setting :=
    (Setting.field? name fields).getD .null
  let analyzers ← sources.group? "analyzers" [("enable", .list []), ("disable", .list [])]
  let output ← sources.group? "output" [("format", .text base.format), ("path", .text base.path)]
  let store ← sources.group? "store" [("path", .text base.store)]
  let log ← sources.group? "log" [("level", .text base.logLevel), ("format", .text base.logFormat)]
  let maxRelease ← (plain "maxrelease" (.int base.maxRelease)).asInt
  let release ← (plain "release" (.int 0)).asInt
  return {
    release := if release = 0 then maxRelease else release
    classpath := ← (plain "classpath" (.list [])).asTexts
    coordinates := ← (plain "coordinates" (.list [])).asTexts
    severity := ← (plain "severity" (.text base.severity)).asText
    title := ← (plain "title" (.text base.title)).asText
    label := ← (plain "label" (.text base.label)).asText
    workers := ← (plain "workers" (.int base.workers)).asInt
    maxRelease
    nestedJars := ← (plain "nestedjars" (.bool base.nestedJars)).asBool
    cacheSize := ← (plain "cachesize" (.int base.cacheSize)).asInt
    platform := ← (plain "platform" (.list [])).asTexts
    enable := ← (within analyzers "enable").asTexts
    disable := ← (within analyzers "disable").asTexts
    format := ← (within output "format").asText
    path := ← (within output "path").asText
    store := ← (within store "path").asText
    logLevel := ← (within log "level").asText
    logFormat := ← (within log "format").asText }

end Configuration

end ClasspathAudit
