import ClasspathAudit.Archive.EntryName
import ClasspathAudit.Archive.Manifest
import ClasspathAudit.Archive.Pom
import ClasspathAudit.Archive.Zip
import ClasspathAudit.Bytecode.ClassFile
import ClasspathAudit.Digest.Highway
import ClasspathAudit.Digest.Checksum
import ClasspathAudit.Loading.Settings

/-!
From the entries of an archive to its record. Entries count in order of their names; one that cannot be
read becomes an anomaly of the record and the others go on.
-/

namespace ClasspathAudit

open Archive

/-- A file of an archive, or what prevents reading it. -/
structure Entry where
  name : String
  content : Except Failure (List UInt8)

namespace Inspector

/-- What an entry is taken for. -/
inductive Role where
  | ignored
  | classFile (release : Int) (path : String)
  | nestedJar
  | resource (release : Int) (path : String)
deriving DecidableEq, Repr

/-- The part of an entry in an archive: version directories count only where the manifest says so and
up to the highest release of the settings. -/
def role (settings : LoaderSettings) (multiRelease : Bool) (name : String) : Role :=
  if name = manifestPath ∨ EntryName.isSignature name then .ignored
  else
    let found := EntryName.versioned name
    let place := if found.isVersioned && !multiRelease then ⟨baseRelease, name, false⟩ else found
    if place.isVersioned && decide (settings.maxRelease < place.release) then .ignored
    else if EntryName.isClass place.path && place.release != 0 &&
        (place.isVersioned || !Text.hasStart "META-INF/" place.path) then
      .classFile place.release place.path
    else if EntryName.isArchive name && settings.nestedJars then .nestedJar
    else if settings.resources then
      .resource (if place.release = 0 then baseRelease else place.release) place.path
    else .ignored

def addAnomaly (jar : Jar) (entry : String) (code : ErrorCode) (failure : Failure) : Jar :=
  { jar with anomalies := jar.anomalies ++ [⟨entry, code, failure.text⟩] }

/-- Notes that the contents of an entry cannot be read. -/
def addUnreadable (jar : Jar) (entry : String) (failure : Failure) : Jar :=
  addAnomaly jar entry .unreadableArchive failure

/-- The code under which a class that cannot be used is noted. -/
def classCode (failure : Failure) : ErrorCode := failure.code?.getD .malformedClassFile

/-- The class of a module descriptor without its ending. -/
def isModulePath (path : String) : Bool :=
  path = ClassName.moduleInfo || Text.hasEnd ("/" ++ ClassName.moduleInfo) path

/-- Takes the descriptor of a module; one of a higher release met before stays. -/
def addModule (jar : Jar) (entry : String) (release : Int) (bytes : List UInt8) : Jar :=
  if jar.moduleInfo.any fun m => decide (release < m.release) then jar
  else match ClassFile.parseModule bytes with
    | .ok found => { jar with moduleInfo := some { found with release } }
    | .error failure => addAnomaly jar entry (classCode failure) failure

/-- Adds a class to its layer. A class that is too new is kept as far as it was read, under the name
of its path if it has none. -/
def addClassFile (jar : Jar) (entry : String) (release : Int) (path : String) (bytes : List UInt8) :
    Jar :=
  let stem := Text.dropEnding ".class" path
  if isModulePath stem then
    if stem = ClassName.moduleInfo then addModule jar entry release bytes else jar
  else
    let parsed := ClassFile.parse bytes
    let jar := match parsed.failure? with
      | some failure => addAnomaly jar entry (classCode failure) failure
      | none => jar
    match parsed.class? with
    | some found =>
      let named := if parsed.failure?.isSome && found.name.isEmpty then
        { found with name := EntryName.className path } else found
      jar.addClass release named
    | none => jar

/-- Records an entry as a resource, in the place of one of the same path and no higher release. -/
def addResource (jar : Jar) (release : Int) (path : String) (bytes : List UInt8) : Jar :=
  let found : Resource := ⟨path, Digest.contentHash bytes, bytes.length, release⟩
  { jar with resources := jar.resources.filter (·.path ≠ path) ++ [found] }

/-- Adds an entry to a record. `nested` loads an archive inside the archive. -/
def addEntry (settings : LoaderSettings) (nested : String → List UInt8 → Except Failure Jar)
    (multiRelease : Bool) (jar : Jar) (entry : Entry) : Jar :=
  match role settings multiRelease entry.name, entry.content with
  | .ignored, _ => jar
  | .resource release path, content =>
    if jar.resources.any fun r => r.path = path ∧ release < r.release then jar
    else match content with
      | .ok bytes => addResource jar release path bytes
      | .error failure => addUnreadable jar entry.name failure
  | .classFile release path, .ok bytes => addClassFile jar entry.name release path bytes
  | .nestedJar, .ok bytes =>
    match nested (jar.origin ++ "!/" ++ entry.name) bytes with
    | .ok inner => { jar with nested := jar.nested ++ [inner] }
    | .error failure => addUnreadable jar entry.name failure
  | _, .error failure => addUnreadable jar entry.name failure

/-- The coordinate that a single metadata file of one kind gives; `none` if there is no such file, and
no coordinate if there are several. -/
def metadataCoordinate (matching : String → Bool)
    (parse : String → List UInt8 → Option Coordinate) (entries : List Entry) :
    Option (Option Coordinate) :=
  match entries.filter fun e => matching e.name with
  | [] => none
  | [entry] =>
    match entry.content with
    | .ok bytes => (parse entry.name bytes).map some
    | .error _ => some none
  | _ => some none

def embeddedCoordinate (entries : List Entry) : Option Coordinate :=
  match metadataCoordinate Pom.isProperties Pom.ofProperties entries with
  | some found => found
  | none => (metadataCoordinate Pom.isProject Pom.ofProject entries).getD none

/-- Reads the manifest, the first entry at its path. -/
def addManifest (jar : Jar) (entries : List Entry) : Jar :=
  match entries.find? fun e => e.name = manifestPath with
  | some entry =>
    match entry.content with
    | .ok bytes => { jar with manifest := ManifestText.parse bytes }
    | .error failure => addUnreadable jar entry.name failure
  | none => jar

/-- The module that the manifest names, for an archive without descriptor. -/
def automaticModule? (manifest : Manifest) : Option ModuleDescriptor :=
  let name := Text.trimBlank (manifest.get "Automatic-Module-Name")
  if name.isEmpty then none else some { name, isAutomatic := true }

def build (settings : LoaderSettings) (nested : String → List UInt8 → Except Failure Jar)
    (jar : Jar) (entries : List Entry) : Jar :=
  let entries := entries.mergeSort fun a b => decide (a.name ≤ b.name)
  let jar := addManifest jar entries
  let jar := { jar with coordinate := jar.coordinate.or (embeddedCoordinate entries) }
  let jar := entries.foldl (addEntry settings nested jar.isMultiRelease) jar
  { jar with moduleInfo := jar.moduleInfo.or (automaticModule? jar.manifest) }.init

/-- The entries of an archive, in the order of their encoded names. -/
def zipEntries (bytes : List UInt8) : Except Zip.Fault (List Entry) := do
  let files ← Zip.files bytes
  return (files.mergeSort fun a b => decide (a.name ≤ b.name)).map fun file =>
    { name := Text.decodeUtf8 file.name
      content := file.content.mapError fun fault => .plain fault.message }

/-- The record of an archive from its entries, or from what keeps it from opening. A run that was called
off stops at the first entry. -/
def opened (settings : LoaderSettings) (nested : String → List UInt8 → Except Failure Jar)
    (cancelled : Bool) (jar : Jar) : Except Zip.Fault (List Entry) → Except Failure Jar
  | .ok entries =>
    if cancelled && !entries.isEmpty then .error .cancelled
    else .ok (build settings nested jar entries)
  | .error fault =>
    .error (.codedWithin .unreadableArchive ("failed to open " ++ jar.origin) (.plain fault.message))

/-- Loads an archive whose nested archives are loaded by `nested`. -/
def archiveWith (settings : LoaderSettings) (nested : String → List UInt8 → Except Failure Jar)
    (cancelled : Bool) (origin : String) (bytes : List UInt8) (coordinate : Option Coordinate) :
    Except Failure Jar :=
  opened settings nested cancelled
    { origin, coordinate, size := bytes.length, checksum := Digest.Sha1.hexDigest bytes }
    (zipEntries bytes)

/-- Loads an archive inside others, `depth` bounding how deep archives nest in it. -/
def nestedArchive (settings : LoaderSettings) : (depth : Nat) → String → List UInt8 →
    Except Failure Jar
  | 0, origin, _ => .error (.coded .unreadableArchive ("failed to open " ++ origin))
  | depth + 1, origin, bytes =>
    archiveWith settings (nestedArchive settings depth) false origin bytes none

/-- Loads an archive and those inside it. No archive nests deeper than it is long. -/
def archive (settings : LoaderSettings) (cancelled : Bool) (origin : String) (bytes : List UInt8)
    (coordinate : Option Coordinate) : Except Failure Jar :=
  archiveWith settings (nestedArchive settings bytes.length) cancelled origin bytes coordinate

/-- The last segment of an origin. -/
def lastSegment (origin : String) : String :=
  match Text.splitLast? '/' origin.toList with
  | some (_, last) => String.ofList last
  | none => origin

/-- The record of files that lie open, their sizes added up. -/
def openFiles (settings : LoaderSettings) (origin : String) (coordinate : Option Coordinate)
    (files : List (String × List UInt8)) : Jar :=
  let size := files.foldl (fun n (_, bytes) => n + bytes.length) 0
  build settings (nestedArchive settings size) { origin, coordinate, size }
    (files.map fun (name, bytes) => { name, content := .ok bytes })

def classRecord (settings : LoaderSettings) (origin : String) (bytes : List UInt8) : Jar :=
  build settings (nestedArchive settings bytes.length)
    { origin, size := bytes.length, checksum := Digest.Sha1.hexDigest bytes }
    [{ name := lastSegment origin, content := .ok bytes }]

/-- Loads a single class file, which fails if there is no class to show for it. -/
def classFile (settings : LoaderSettings) (origin : String) (bytes : List UInt8) :
    Except Failure Jar :=
  let jar := classRecord settings origin bytes
  match jar.base.classes, jar.anomalies with
  | [], anomaly :: _ => .error (.coded anomaly.code (origin ++ ": " ++ anomaly.message))
  | _, _ => .ok jar

end Inspector

end ClasspathAudit
