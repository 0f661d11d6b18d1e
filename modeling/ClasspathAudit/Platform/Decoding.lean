import ClasspathAudit.Error
import ClasspathAudit.Model.Jar
import ClasspathAudit.Platform.List
import ClasspathAudit.Text.Path
import ClasspathAudit.Toml.Filling
import ClasspathAudit.Yaml.Filling

/-!
Reading the list of a runtime from YAML or TOML.
-/

namespace ClasspathAudit

open Filling

namespace PlatformModule

variable {Tree : Type} [Filling Tree]

def blank : PlatformModule := { name := "" }

def fill : Tree → PlatformModule → Option PlatformModule :=
  record [
    ("name", part text PlatformModule.name fun m v => { m with name := v }),
    ("packages", part (list "" text) (some ·.packages) fun m v => { m with packages := v.getD [] }),
    ("classes", part (list "" text) (some ·.classes) fun m v => { m with classes := v.getD [] })]

end PlatformModule

/-- The formats that lists are written in. -/
inductive PlatformFormat where
  | yaml
  | toml
deriving DecidableEq, Repr

namespace PlatformFormat

/-- The format of an exact name; an empty one means YAML. -/
def ofName? (name : String) : Option PlatformFormat :=
  match name with
  | "" => some yaml
  | "yaml" => some yaml
  | "toml" => some toml
  | _ => none

def ofLocation (location : String) : PlatformFormat :=
  if Text.equalFold (Text.Path.extension location) ".toml" then toml else yaml

end PlatformFormat

namespace PlatformList

variable {Tree : Type} [Filling Tree]

def blank : PlatformList := { release := 0 }

def fill : Tree → PlatformList → Option PlatformList :=
  record [
    ("release", part int PlatformList.release fun p v => { p with release := v }),
    ("modules", part (sparseList .blank PlatformModule.fill) (some <| ·.modules.map some) fun p v =>
      { p with modules := (v.getD []).filterMap id })]

def decode? (format : PlatformFormat) (content : String) : Option PlatformList :=
  match format with
  | .toml => do fill (← Toml.parse? .second content) blank
  | .yaml => do
    match ← Yaml.tree? content with
    | some tree => fill tree blank
    | none => some blank

/-- The list that a text is; one for a release before the first is refused. -/
def parse (format : PlatformFormat) (content : String) : Except Failure PlatformList :=
  match decode? format content with
  | none => .error (.coded .invalidConfig "invalid platform list")
  | some found =>
    if found.release < baseRelease then
      .error (.coded .invalidConfig ("invalid platform list release: " ++ toString found.release))
    else .ok found

def parseAs (name content : String) : Except Failure PlatformList :=
  match PlatformFormat.ofName? name with
  | some format => parse format content
  | none => .error (.codedWithin .invalidConfig "invalid platform list"
      (.plain ("unsupported format: " ++ name)))

end PlatformList

end ClasspathAudit
