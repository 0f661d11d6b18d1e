import ClasspathAudit.Loading.Inspector

/-!
Artifacts, the elements that a classpath is given as, and how each kind of them is loaded.
-/

namespace ClasspathAudit

/-- How an artifact is loaded. -/
inductive ArtifactKind where
  | archive
  | classFile
  /-- An archive laid out as files. -/
  | directory
  | unknown (name : String)
deriving DecidableEq, Repr

namespace ArtifactKind

def text : ArtifactKind → String
  | archive => "archive"
  | classFile => "class"
  | directory => "directory"
  | unknown name => name

def ofText (name : String) : ArtifactKind :=
  ([archive, classFile, directory].find? (·.text = name)).getD (unknown name)

def detect? (location : String) (isDirectory : Bool) : Option ArtifactKind :=
  if isDirectory then some directory
  else
    let extension := Text.lower (Text.Path.extension location)
    if [".jar", ".war", ".zip", ".ear"].contains extension then some archive
    else if extension = ".class" then some classFile
    else none

end ArtifactKind

/-- What lies at an artifact's location. -/
inductive ArtifactContent where
  | bytes (content : List UInt8)
  | files (content : List (String × List UInt8))
  | missing (failure : Failure)
deriving Repr

/-- One element of a classpath. -/
structure Artifact where
  origin : String
  kind : ArtifactKind
  coordinate : Option Coordinate
  content : ArtifactContent

namespace Artifact

/-- The bytes of an artifact; a directory has none. -/
def read (artifact : Artifact) : Except Failure (List UInt8) :=
  match artifact.content with
  | .bytes content => .ok content
  | .files _ => .ok []
  | .missing failure => .error failure

def unreadable (artifact : Artifact) (verb : String) (failure : Failure) : Failure :=
  .codedWithin .unreadableArchive (verb ++ " " ++ artifact.origin) failure

/-- The kind of an artifact, told by its origin where it is not given. -/
def effectiveKind (artifact : Artifact) : ArtifactKind :=
  if artifact.kind = .unknown "" then
    (ArtifactKind.detect? artifact.origin false).getD artifact.kind
  else artifact.kind

/-- Loads an artifact. -/
def inspect (settings : LoaderSettings) (cancelled : Bool) (artifact : Artifact) :
    Except Failure Jar :=
  match artifact.effectiveKind with
  | .archive =>
    match artifact.read with
    | .ok bytes => Inspector.archive settings cancelled artifact.origin bytes artifact.coordinate
    | .error failure => .error (artifact.unreadable "failed to read" failure)
  | .classFile =>
    match artifact.read with
    | .ok bytes =>
      if cancelled then .error .cancelled
      else (Inspector.classFile settings artifact.origin bytes).map fun jar =>
        { jar with coordinate := artifact.coordinate }
    | .error failure => .error (artifact.unreadable "failed to read" failure)
  | .directory =>
    match artifact.content with
    | .files files =>
      if cancelled && !files.isEmpty then .error .cancelled
      else .ok (Inspector.openFiles settings artifact.origin artifact.coordinate files)
    | .missing failure => .error (artifact.unreadable "failed to walk" failure)
    | .bytes _ => .error (artifact.unreadable "failed to walk" (.plain "not a directory"))
  | .unknown name =>
    .error (artifact.unreadable "failed to inspect"
      (.plain ("unsupported artifact kind: " ++ Text.quote name)))

end Artifact

end ClasspathAudit
