import ClasspathAudit.Model.Jar
import ClasspathAudit.Text.Decimal

/-!
What the name of an archive entry says about its part in the archive.
-/

namespace ClasspathAudit.Archive

open Text

/-- A name taken apart at its version directory. -/
structure VersionedName where
  /-- The base release outside the version directories, zero for a directory that is no version. -/
  release : Int
  path : String
  isVersioned : Bool
deriving DecidableEq, Repr

namespace EntryName

def versionsDirectory : String := "META-INF/versions/"

/-- The release and the path below a version directory; releases up to the base have none. -/
def versioned (name : String) : VersionedName :=
  if hasStart versionsDirectory name then
    match splitFirst? '/' (name.toList.drop versionsDirectory.length) with
    | some (directory, path) =>
      match decimal? (String.ofList directory) with
      | some release =>
        if release ≤ baseRelease then ⟨0, name, false⟩ else ⟨release, String.ofList path, true⟩
      | none => ⟨0, name, false⟩
    | none => ⟨0, name, false⟩
  else ⟨baseRelease, name, false⟩

def isClass (name : String) : Bool := hasEnd ".class" name

def isArchive (name : String) : Bool :=
  [".jar", ".war"].contains (lower (Path.extension name))

/-- Files that sign an archive, directly in its metadata directory. -/
def isSignature (name : String) : Bool :=
  hasStart "META-INF/" name && name.toList.count '/' == 1 &&
    [".SF", ".RSA", ".DSA", ".EC"].contains (upper (Path.extension name))

def className (path : String) : String :=
  ClassName.external (dropEnding ".class" path)

end EntryName

end ClasspathAudit.Archive
