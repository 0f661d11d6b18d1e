import ClasspathAudit.Model.Coordinate
import ClasspathAudit.Text.Bytes
import ClasspathAudit.Xml.Reader

/-!
Build metadata inside an archive: a properties file or a project description that names the coordinate
of the archive.
-/

namespace ClasspathAudit.Archive.Pom

open Text

/-- The group and artifact directories of a metadata file with the given file name. -/
def place? (file entry : String) : Option (String × String) :=
  match splitOnChar '/' entry with
  | ["META-INF", "maven", group, artifact, found] =>
    if group ≠ "" ∧ artifact ≠ "" ∧ found = file then some (group, artifact) else none
  | _ => none

def propertiesFile : String := "pom.properties"

def projectFile : String := "pom.xml"

def isProperties (entry : String) : Bool := (place? propertiesFile entry).isSome

def isProject (entry : String) : Bool := (place? projectFile entry).isSome

/-- The longest line that is read; a longer one ends the file. -/
def longestLine : Nat := 65535

/-- The key and value of a line, which the first equals sign or colon divides. -/
def property? (line : List UInt8) : Option (String × String) :=
  let line := trimBytes line
  match line with
  | [] => none
  | first :: _ =>
    if first = 35 ∨ first = 33 then none
    else
      let key := line.takeWhile fun b => b ≠ 61 ∧ b ≠ 58
      match line.drop key.length with
      | _ :: value => some (decodeUtf8 (trimBytes key), decodeUtf8 (trimBytes value))
      | [] => none

def setProperty (c : Coordinate) : String × String → Coordinate
  | ("groupId", value) => { c with group := value }
  | ("artifactId", value) => { c with artifact := value }
  | ("version", value) => { c with version := value }
  | _ => c

/-- The coordinate of a properties file, group and artifact being those of its path unless it says
otherwise. -/
def ofProperties (entry : String) (bytes : List UInt8) : Option Coordinate := do
  let (group, artifact) ← place? propertiesFile entry
  let lines := (byteLines bytes).takeWhile (·.length ≤ longestLine)
  let c := (lines.filterMap property?).foldl setProperty { group, artifact, version := "" }
  if c.version = "" then none else some c

/-- The first text that is more than blanks, trimmed. -/
def firstFilled (texts : List String) : String :=
  ((texts.map trimBlank).find? (· ≠ "")).getD ""

/-- The coordinate of a project description. Group and version are inherited from the parent when the
project has none; a version that needs substitution is none. -/
def ofProject (entry : String) (bytes : List UInt8) : Option Coordinate := do
  let (group, artifact) ← place? projectFile entry
  let .element _ project ← Xml.parse? bytes | none
  let parent := (Xml.Node.childrenNamed "parent" project).flatten
  let text (name : String) := Xml.Node.lastText name project
  let inherited (name : String) := Xml.Node.lastText name parent
  let told := firstFilled [text "groupId", inherited "groupId"]
  let version := firstFilled [text "version", inherited "version"]
  if version = "" ∨ containsPattern ['$', '\x7b'] version.toList then none
  else some {
    group := if told = "" then group else told
    artifact := if text "artifactId" = "" then artifact else text "artifactId"
    version }

end ClasspathAudit.Archive.Pom
