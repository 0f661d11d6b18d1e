import ClasspathAudit.Model.Jar
import ClasspathAudit.Text.Bytes

/-!
Manifests. The main section is a list of attributes, one a line; a line that begins with a space
continues the value before it. Lines are joined as bytes, so a character may be cut by a line end.
-/

namespace ClasspathAudit.Archive

def manifestPath : String := "META-INF/MANIFEST.MF"

namespace ManifestText

/-- Attributes as bytes, each name once. -/
abbrev Attributes := List (List UInt8 × List UInt8)

/-- Sets the value of a name through `change`, starting from the empty value. -/
def update (attributes : Attributes) (name : List UInt8) (change : List UInt8 → List UInt8) :
    Attributes :=
  if attributes.any (·.1 = name) then
    attributes.map fun (key, value) => if key = name then (key, change value) else (key, value)
  else attributes ++ [(name, change [])]

def colon : UInt8 := 58

def space : UInt8 := 32

def carriageReturn : UInt8 := 13

/-- A line without the carriage returns at its end. -/
def trimEnd (line : List UInt8) : List UInt8 :=
  (line.reverse.dropWhile (· = carriageReturn)).reverse

/-- Reads line after line up to an empty one. `last` is the name that a continuation belongs to, empty
after a line that is no attribute. -/
def readLines : List (List UInt8) → (last : List UInt8) → Attributes → Attributes
  | [], _, attributes => attributes
  | line :: rest, last, attributes =>
    match trimEnd line with
    | [] => attributes
    | first :: more =>
      if first = space then
        readLines rest last (if last.isEmpty then attributes else update attributes last (· ++ more))
      else
        let name := (first :: more).takeWhile (· ≠ colon)
        match (first :: more).drop name.length with
        | _ :: value =>
          if name.isEmpty then readLines rest [] attributes
          else
            let name := Text.trimBytes name
            readLines rest name (update attributes name fun _ => Text.trimBytes value)
        | [] => readLines rest [] attributes

def parseBytes (bytes : List UInt8) : Attributes :=
  readLines (Text.byteLines bytes) [] []

def parse (bytes : List UInt8) : Manifest :=
  (parseBytes bytes).map fun (name, value) => (Text.decodeUtf8 name, Text.decodeUtf8 value)

/-- The manifest text that holds the attributes in order of their names, after the version line. -/
def write (attributes : Manifest) : String :=
  let sorted := attributes.mergeSort fun a b => decide (a.1 ≤ b.1)
  "Manifest-Version: 1.0\r\n" ++
    String.join (sorted.map fun (name, value) => name ++ ": " ++ value ++ "\r\n") ++ "\r\n"

end ManifestText

end ClasspathAudit.Archive
