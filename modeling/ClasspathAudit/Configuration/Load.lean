import ClasspathAudit.Configuration.Sources
import ClasspathAudit.Configuration.VariableFile
import ClasspathAudit.Json.Reader
import ClasspathAudit.Loading.FileSystem
import ClasspathAudit.Toml.Reader
import ClasspathAudit.Yaml.Filling

/-!
Loading a configuration from a file of one of several formats, from the variables beside the file and
from the environment.
-/

namespace ClasspathAudit

namespace Setting

/-- A node of YAML as a setting; the fuel bounds how deep nodes are nested. -/
def ofYaml : Nat → Yaml.Tree → Option Setting
  | 0, _ => none
  | fuel + 1, t => do
    let t ← t.target
    match t.node with
    | .scalar _ tag s style =>
      match ← Yaml.scalarValue tag s style with
      | .null => return null
      | .bool value => return bool value
      | .int value => return int value
      | .float value => return real value
      | .time _ => return time
      | .text _ => return text (← Yaml.scalarText tag s)
    | .sequence _ _ items => return list (← items.mapM fun item => ofYaml fuel (t.child item))
    | .mapping _ _ _ =>
      let (found, _) ← Yaml.Tree.entries (t.document.size + 1) t none
      return group (← found.mapM fun (name, value) => do return (name, ← ofYaml fuel value))
    | .alias _ => none

/-- Numbers of JSON are all real. -/
def ofJson : Json → Option Setting
  | .null => some null
  | .bool value => some (bool value)
  | .number literal => (Binary64.parse? literal.toList).map real
  | .string value => some (text value)
  | .array items => (ofItems items).map list
  | .object fields => (ofFields fields).map group
where
  ofItems : List Json → Option (List Setting)
    | [] => some []
    | item :: rest => do return (← ofJson item) :: (← ofItems rest)
  ofFields : List (String × Json) → Option (List (String × Setting))
    | [] => some []
    | (name, value) :: rest => do return (name, ← ofJson value) :: (← ofFields rest)

def ofToml : Toml.Value → Setting
  | .text value => text value
  | .int value => int value
  | .float value => real value
  | .bool value => bool value
  | .time => time
  | .array items => list (ofItems items)
  | .table fields => group (ofFields fields)
where
  ofItems : List Toml.Value → List Setting
    | [] => []
    | item :: rest => ofToml item :: ofItems rest
  ofFields : List (String × Toml.Value) → List (String × Setting)
    | [] => []
    | (name, value) :: rest => (name, ofToml value) :: ofFields rest

end Setting

/-- The formats of configuration files. -/
inductive ConfigFormat where
  | json
  | toml
  | yaml
  | dotenv
  /-- A format that is known by name but cannot be read. -/
  | unread
deriving DecidableEq, Repr

namespace ConfigFormat

/-- The endings of configuration files in the order they are looked for. -/
def endings : List (String × ConfigFormat) :=
  [("json", json), ("toml", toml), ("yaml", yaml), ("yml", yaml), ("properties", unread),
    ("props", unread), ("prop", unread), ("hcl", unread), ("tfvars", unread), ("dotenv", dotenv),
    ("env", dotenv), ("ini", unread)]

/-- The fields of a file, none if it cannot be read. -/
def fields? (environment : List (String × String)) (content : String) :
    ConfigFormat → Option (List (String × Setting))
  | json => do (← Setting.ofJson (← Json.parse? content)).asGroup
  | toml => do (Setting.ofToml (← Toml.parse? .first content)).asGroup
  | yaml => do
    match ← Yaml.tree? content with
    | none => some []
    | some tree =>
      let depth := (tree.document.anchored.size + 1) * (tree.document.size + 1)
      match ← Setting.ofYaml depth tree with
      | .group fields => some fields
      | .null => some []
      | _ => none
  | dotenv => do
    return (← VariableFile.parse? environment content).map fun (name, value) => (name, .text value)
  | unread => none

end ConfigFormat

namespace Configuration

open Text

/-- The name of a configuration that is looked for, without ending. -/
def fileName : String := "jarhc"

def unreadable (location : String) (cause : Failure) : Failure :=
  .codedWithin .invalidConfig ("failed to read config " ++ location) cause

/-- The fields of the file at a location that was found or given. -/
def readFields (environment : List (String × String)) (location ending : String)
    (content : Except Failure (List UInt8)) : Except Failure (List (String × Setting)) :=
  match ConfigFormat.endings.lookup ending with
  | none => .error (unreadable location (.plain ("Unsupported Config Type " ++ quote ending)))
  | some format =>
    match content with
    | .error failure => .error (unreadable location failure)
    | .ok bytes =>
      let parsing : Failure := if format = .unread then
          .within "While parsing config" (.plain "decoder not found for this format")
        else .plain "While parsing config"
      match format.fields? environment (decodeUtf8 bytes) with
      | some fields => .ok (Setting.lowerNames.lowerFields fields)
      | none => .error (unreadable location parsing)

/-- The fields of the given file, or else of the first configuration in the directory, if any. -/
def fileFields (fs : FileSystem) (directory : String) (environment : List (String × String))
    (location : String) : Except Failure (List (String × Setting)) :=
  if location ≠ "" then
    readFields environment location (dropStart "." (Path.extension location))
      (fs.read directory location)
  else
    match ConfigFormat.endings.findSome? fun (ending, _) =>
        (fs.file? (FileSystem.resolve directory (fileName ++ "." ++ ending))).map (ending, ·) with
    | some (ending, bytes) => readFields environment location ending (.ok bytes)
    | none => .ok []

/-- The environment with the variables that lie beside a configuration. -/
def environmentWith (fs : FileSystem) (directory : String) (environment : List (String × String))
    (location : String) : List (String × String) :=
  let path := if location = "" then ".env" else Path.join [Path.directory location, ".env"]
  match (fs.file? (FileSystem.resolve directory path)).bind (Dotenv.parse? <| decodeUtf8 ·) with
  | some known =>
    let last := known.filter fun v => Dotenv.lookup? v.1 known = some v.2
    Dotenv.extend environment last
  | none => environment

/-- Loads a configuration and checks it. `directory` is where the run takes place. -/
def load (fs : FileSystem) (directory : String) (environment : List (String × String))
    (location : String) : Except Failure Configuration := do
  let environment := environmentWith fs directory environment location
  let file ← fileFields fs directory environment location
  match ofSources? { environment, file } with
  | none => .error (invalid "failed to decode config")
  | some configuration =>
    configuration.validate
    return configuration

end Configuration

end ClasspathAudit
