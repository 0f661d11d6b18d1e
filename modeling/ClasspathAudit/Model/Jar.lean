import ClasspathAudit.Error
import ClasspathAudit.Model.Class
import ClasspathAudit.Model.Coordinate
import ClasspathAudit.Model.Module
import ClasspathAudit.Text.Path

/-!
JAR records. A record holds its classes in release layers: at a target release a class is looked up in
the base layer and in every layer up to the target, and the highest layer that has it wins.
-/

namespace ClasspathAudit

/-- The release of entries that belong to no version directory. -/
def baseRelease : Int := 8

/-- The classes of one release, at most one of each name. -/
structure Layer where
  release : Int
  classes : List JavaClass := []
deriving DecidableEq, Repr

namespace Layer

/-- Adds a class, which replaces one of the same name. -/
def add (layer : Layer) (c : JavaClass) : Layer :=
  { layer with classes := c :: layer.classes.filter (·.name ≠ c.name) }

def get? (layer : Layer) (name : String) : Option JavaClass :=
  layer.classes.find? (·.name = name)

def names (layer : Layer) : List String :=
  (layer.classes.map JavaClass.name).mergeSort fun a b => decide (a ≤ b)

end Layer

/-- An archive entry that is no class. -/
structure Resource where
  path : String
  hash : UInt64
  size : Int
  release : Int
deriving DecidableEq, Repr

/-- An entry, or a whole archive, that could not be analysed. -/
structure Anomaly where
  entry : String
  code : ErrorCode
  message : String
deriving DecidableEq, Repr

/-- The main attributes of a manifest, each name once. -/
abbrev Manifest := List (String × String)

namespace Manifest

def get (m : Manifest) (name : String) : String :=
  ((m.find? (·.1 = name)).map Prod.snd).getD ""

def set (m : Manifest) (name value : String) : Manifest :=
  if m.any (·.1 = name) then m.map fun (k, v) => if k = name then (k, value) else (k, v)
  else m ++ [(name, value)]

def isMultiRelease (m : Manifest) : Bool :=
  Text.equalFold (Text.trimBlank (m.get "Multi-Release")) "true"

end Manifest

/-- A loaded archive. -/
structure Jar where
  /-- A file name or logical path; a nested archive has the form `outer!/inner`. -/
  origin : String
  coordinate : Option Coordinate := none
  manifest : Manifest := []
  layers : List Layer := []
  moduleInfo : Option ModuleDescriptor := none
  resources : List Resource := []
  anomalies : List Anomaly := []
  /-- The SHA-1 digest of the archive in hexadecimal. -/
  checksum : String := ""
  size : Int := 0
  /-- The archive could not be opened. -/
  unreadable : Bool := false
  nested : List Jar := []
deriving Repr

namespace Jar

/-- Applies `f` to the layer of a release, which is created at the end if it is missing; no release
lies below the base. -/
def updateLayer (jar : Jar) (release : Int) (f : Layer → Layer) : Jar :=
  let release := if release < baseRelease then baseRelease else release
  let rec update : List Layer → List Layer
    | [] => [f { release }]
    | layer :: rest => if layer.release = release then f layer :: rest else layer :: update rest
  { jar with layers := update jar.layers }

def layer? (jar : Jar) (release : Int) : Option Layer :=
  jar.layers.find? (·.release = release)

/-- Makes sure that a layer exists. -/
def ensureLayer (jar : Jar) (release : Int) : Jar := jar.updateLayer release id

def addClass (jar : Jar) (release : Int) (c : JavaClass) : Jar :=
  jar.updateLayer release (·.add c)

/-- The finished form of a record: a base layer exists, layers ascend by release and resources by
path. -/
def init (jar : Jar) : Jar :=
  let jar := jar.ensureLayer baseRelease
  { jar with
    layers := jar.layers.mergeSort fun a b => decide (a.release ≤ b.release)
    resources := jar.resources.mergeSort fun a b => decide (a.path ≤ b.path) }

def base (jar : Jar) : Layer := (jar.layer? baseRelease).getD { release := baseRelease }

def releases (jar : Jar) : List Int :=
  (jar.layers.map Layer.release).filter (baseRelease < ·)

def isMultiRelease (jar : Jar) : Bool := jar.manifest.isMultiRelease

/-- The layers that count at a target release: those before the first one above the target, the base
always counting. -/
def layersUpTo (jar : Jar) (target : Int) : List Layer :=
  jar.layers.takeWhile fun layer => layer.release ≤ target || layer.release = baseRelease

def effectiveClass? (jar : Jar) (name : String) (target : Int) : Option JavaClass :=
  (jar.layersUpTo target).foldl (fun found layer => (layer.get? name).or found) none

/-- The classes seen at a target release, ascending by name. -/
def effective (jar : Jar) (target : Int) : List JavaClass :=
  let merged : Layer := (jar.layersUpTo target).foldl
    (fun merged layer => layer.classes.foldl Layer.add merged) { release := baseRelease }
  merged.classes.mergeSort fun a b => decide (a.name ≤ b.name)

def classCount (jar : Jar) (target : Int) : Nat := (jar.effective target).length

/-- The packages seen at a target release, ascending. -/
def packages (jar : Jar) (target : Int) : List String :=
  ((jar.effective target).map JavaClass.package).eraseDups.mergeSort fun a b => decide (a ≤ b)

/-- The last resource at a path. -/
def resource? (jar : Jar) (path : String) : Option Resource :=
  jar.resources.reverse.find? (·.path = path)

/-- An origin with slashes only. -/
def slashed (origin : String) : String :=
  String.ofList (origin.toList.map fun c => if c = '\\' then '/' else c)

/-- The last segment of the origin. -/
def fileName (jar : Jar) : String := Text.Path.base (slashed jar.origin)

/-- The file name, for a nested archive after that of its container. -/
def displayName (jar : Jar) : String :=
  match Text.splitPattern? "!/".toList (slashed jar.origin).toList with
  | some (outer, inner) =>
    Text.Path.base (String.ofList outer) ++ "!/" ++ Text.Path.base (String.ofList inner)
  | none => jar.fileName

/-- The declared artifact and version, or those that the file name tells. -/
def artifactAndVersion (jar : Jar) : String × String :=
  match jar.coordinate with
  | some c => (c.artifact, c.version)
  | none => FileName.artifactAndVersion jar.fileName

def artifactName (jar : Jar) : String := jar.artifactAndVersion.1

def version (jar : Jar) : String := jar.artifactAndVersion.2

/-- The module name, empty in the unnamed module. -/
def moduleName (jar : Jar) : String := (jar.moduleInfo.map (·.name)).getD ""

def isNamedModule (jar : Jar) : Bool := jar.moduleInfo.any fun m => !m.isAutomatic

def text (jar : Jar) : String := s!"Jar[{jar.origin},{jar.base.classes.length}]"

end Jar

end ClasspathAudit
