import ClasspathAudit.Text.Letter
import ClasspathAudit.Text.Quote
import ClasspathAudit.Text.Split

/-!
Artifact coordinates, and how they are read off a text or off a file name.
-/

namespace ClasspathAudit

open Text

/-- The group, artifact and version that a JAR is published under. -/
structure Coordinate where
  group : String
  artifact : String
  version : String
deriving DecidableEq, Repr

namespace Coordinate

def text (c : Coordinate) : String := c.group ++ ":" ++ c.artifact ++ ":" ++ c.version

/-- Why a text is no coordinate. -/
inductive Fault where
  | segments (value : String)
  | emptySegment (value : String)
deriving DecidableEq, Repr

def Fault.message : Fault → String
  | segments value => "invalid coordinate " ++ quote value ++ ": expected group:artifact:version"
  | emptySegment value => "invalid coordinate " ++ quote value ++ ": empty segment"

/-- Three to five segments between colons: group, artifact, possibly type and classifier, and last the
version. -/
def parse (value : String) : Except Fault Coordinate :=
  let parts := splitOnChar ':' (trimBlank value)
  match parts with
  | group :: artifact :: rest@(_ :: _) =>
    if 3 < rest.length then .error (.segments value)
    else if parts.any (· = "") then .error (.emptySegment value)
    else .ok { group, artifact, version := rest.getLast?.getD "" }
  | _ => .error (.segments value)

end Coordinate

namespace FileName

/-- Up to `count` further groups of a dot and digits. -/
def versionGroups : Nat → List Char → List Char × List Char
  | 0, cs => ([], cs)
  | count + 1, '.' :: cs =>
    match cs.takeWhile isDigit with
    | [] => ([], '.' :: cs)
    | ds =>
      let (more, rest) := versionGroups count (cs.dropWhile isDigit)
      ('.' :: ds ++ more, rest)
  | _, cs => ([], cs)

/-- A version at the front of a text: digits, up to ten further groups, and a snapshot mark. -/
def takeVersion? (cs : List Char) : Option (List Char × List Char) :=
  match cs.takeWhile isDigit with
  | [] => none
  | ds =>
    let (groups, rest) := versionGroups 10 (cs.dropWhile isDigit)
    let mark := "-SNAPSHOT".toList
    if mark.isPrefixOf rest then some (ds ++ groups ++ mark, rest.drop mark.length)
    else some (ds ++ groups, rest)

/-- What stands before, in and after the first version that follows a hyphen. -/
def splitVersion? : List Char → Option (List Char × List Char × List Char)
  | [] => none
  | c :: rest =>
    match if c = '-' then takeVersion? rest else none with
    | some (version, after) => some ([], version, after)
    | none => (splitVersion? rest).map fun (before, version, after) => (c :: before, version, after)

def extensions : List String := [".jar", ".war", ".zip", ".jmod", ".class"]

/-- A file name without the extension of an archive or class. -/
def stem (name : String) : String :=
  match extensions.find? (hasEnd · name) with
  | some ending => dropEnding ending name
  | none => name

/-- The artifact and version that a file name tells: the version is taken out of the name. -/
def artifactAndVersion (name : String) : String × String :=
  match splitVersion? (stem name).toList with
  | some (before, version, after) => (String.ofList (before ++ after), String.ofList version)
  | none => (stem name, "")

end FileName

end ClasspathAudit
