import ClasspathAudit.Loading.Artifact

/-!
Files by path, and the artifacts that locations among them stand for.
-/

namespace ClasspathAudit

/-- The files of a machine under their absolute paths, and directories that exist without files. -/
structure FileSystem where
  files : List (String × List UInt8)
  directories : List String := []

namespace FileSystem

open Text

def file? (fs : FileSystem) (path : String) : Option (List UInt8) :=
  (fs.files.find? (·.1 = path)).map Prod.snd

def below? (directory path : String) : Option String :=
  let start := if hasEnd "/" directory then directory else directory ++ "/"
  if hasStart start path then some (dropStart start path) else none

/-- Whether a directory lies at a path: one that is listed, or one that holds something. -/
def isDirectory (fs : FileSystem) (path : String) : Bool :=
  fs.directories.contains path ||
    (fs.files.map Prod.fst ++ fs.directories).any fun p => (below? path p).isSome

def tree (fs : FileSystem) (directory : String) : List (String × List UInt8) :=
  fs.files.filterMap fun (path, bytes) => (below? directory path).map fun rest => (rest, bytes)

def fileNames (fs : FileSystem) (directory : String) : List String :=
  ((fs.tree directory).map Prod.fst).filter fun name => !name.toList.contains '/'

/-- The address of a file, under which the members of a directory are listed. -/
def address (path : String) : String := "file://localhost" ++ path

def noSuchFile (path : String) : Failure :=
  .plain ("open " ++ path ++ ": no such file or directory")

def resolve (directory path : String) : String :=
  if hasStart "/" path then Path.clean path else Path.join [directory, path]

/-- The content of a file. A failure names the path as it was given. -/
def read (fs : FileSystem) (directory path : String) : Except Failure (List UInt8) :=
  let full := resolve directory path
  match fs.file? full with
  | some bytes => .ok bytes
  | none =>
    if fs.isDirectory full then .error (.plain ("read " ++ path ++ ": is a directory"))
    else .error (noSuchFile path)

/-- Puts a file in the place of what lies at its path. The directory that it belongs in must be there. -/
def write (fs : FileSystem) (directory path : String) (bytes : List UInt8) :
    Except Failure FileSystem :=
  let full := resolve directory path
  let parent := Path.directory full
  if fs.isDirectory full then .error (.plain ("open " ++ path ++ ": is a directory"))
  else if (fs.file? parent).isSome then .error (.plain ("open " ++ path ++ ": not a directory"))
  else if !fs.isDirectory parent then .error (noSuchFile path)
  else .ok { fs with files := fs.files.filter (·.1 ≠ full) ++ [(full, bytes)] }

/-- The directories on the way to a path, the path itself last. -/
def ancestors (path : String) : List String :=
  let segments := splitOnChar '/' path
  (List.range segments.length).map fun n => String.intercalate "/" (segments.take (n + 1))

/-- Makes a directory with those above it. -/
def makeDirectories (fs : FileSystem) (directory path : String) : Except Failure FileSystem :=
  match (ancestors path).find? fun p => (fs.file? (resolve directory p)).isSome with
  | some p => .error (.plain ("mkdir " ++ p ++ ": not a directory"))
  | none => .ok { fs with directories := resolve directory path :: fs.directories }

end FileSystem

/-- Locations in classpath order, with coordinates declared by location or by file name. -/
structure FileSource where
  locations : List String
  coordinates : List (String × Coordinate) := []
  /-- Where relative locations start. -/
  directory : String := "/"

namespace FileSource

/-- The coordinate declared for a location, or else for its file name. -/
def coordinate? (source : FileSource) (location : String) : Option Coordinate :=
  let declared (key : String) := (source.coordinates.find? (·.1 = key)).map Prod.snd
  (declared location).or (declared (Text.Path.base location))

/-- The artifacts at one location. A directory with archives stands for them, in order of their names,
and any other directory for an archive laid out as files; a missing file keeps its place. -/
def artifactsAt (source : FileSource) (fs : FileSystem) (location : String) : List Artifact :=
  let artifact (kind : ArtifactKind) (origin : String) (content : ArtifactContent) : Artifact :=
    { origin, kind, coordinate := source.coordinate? origin, content }
  let full := FileSystem.resolve source.directory location
  match fs.file? full with
  | some bytes =>
    [artifact ((ArtifactKind.detect? location false).getD .archive) location (.bytes bytes)]
  | none =>
    if fs.isDirectory full then
      let archives := (fs.fileNames full).filter fun name =>
        ArtifactKind.detect? name false = some .archive
      match archives.mergeSort fun a b => decide (a ≤ b) with
      | [] => [artifact .directory location (.files (fs.tree full))]
      | names => names.map fun name =>
        let path := Text.Path.join [full, name]
        artifact .archive (FileSystem.address path) (.bytes ((fs.file? path).getD []))
    else [artifact .archive location (.missing (FileSystem.noSuchFile full))]

def artifacts (source : FileSource) (fs : FileSystem) : List Artifact :=
  source.locations.flatMap (source.artifactsAt fs)

end FileSource

end ClasspathAudit
