import ClasspathAudit.CommandLine.Input
import Std.Time.DateTime.Timestamp

/-!
The program: it reads the files that a run may need, runs the command line, and writes back what has
changed.
-/

open ClasspathAudit

/-- Adds what lies at a path to the known files: a file, or a directory with all it holds. -/
partial def addPath (cwd path : String) (fs : FileSystem) : IO FileSystem := do
  let full := FileSystem.resolve cwd path
  let place := (← IO.currentDir) / full
  if ← place.isDir then
    let mut known := { fs with directories := full :: fs.directories }
    for entry in ← place.readDir do
      known ← addPath full entry.fileName known
    return known
  else if ← place.pathExists then
    let bytes ← IO.FS.readBinFile place
    return { fs with files := (full, bytes.toList) :: fs.files }
  else return fs

/-- Notes the directory that a path lies in, if there is one. -/
def addParent (cwd path : String) (fs : FileSystem) : IO FileSystem := do
  let parent := Text.Path.directory (FileSystem.resolve cwd path)
  if ← ((← IO.currentDir) / parent).isDir then
    return { fs with directories := parent :: fs.directories }
  else return fs

def addPaths (cwd : String) (paths : List String) (fs : FileSystem) : IO FileSystem := do
  let mut known := fs
  for path in paths.eraseDups do
    known ← addParent cwd path (← addPath cwd path known)
  return known

def freshId : IO String := do
  let bytes := (← IO.getRandomBytes 16).toList
  let marked := bytes.zipIdx.map fun (b, i) =>
    if i = 6 then b &&& 0x0F ||| 0x40 else if i = 8 then b &&& 0x3F ||| 0x80 else b
  let part (start count : Nat) : String := Text.hexBytes ((marked.drop start).take count)
  return String.intercalate "-" [part 0 4, part 4 2, part 6 2, part 8 2, part 10 6]

/-- Writes the files of a run that are not as they were before. -/
def writeChanges (before after : FileSystem) : IO Unit := do
  let cwd ← IO.currentDir
  for (path, bytes) in after.files do
    if before.file? path != some bytes then
      IO.FS.createDirAll (cwd / Text.Path.directory path)
      IO.FS.writeBinFile (cwd / path) ⟨bytes.toArray⟩

def main (args : List String) : IO UInt32 := do
  let start ← IO.monoNanosNow
  let cwd := (← IO.currentDir).toString
  let nanos := (← Std.Time.Timestamp.now).toNanosecondsSinceUnixEpoch.val
  let now : Timestamp := ⟨nanos / 1000000000, (nanos % 1000000000).toNat, 0⟩
  let environment ← SettingSources.variableNames.filterMapM fun name => do
    return (← IO.getEnv name).map (name, ·)
  let configuring ← addPaths cwd (CommandLine.configurationFiles args) ⟨[], [cwd]⟩
  let machine : CommandLine.Machine :=
    { files := configuring, directory := cwd, environment, reportId := ← freshId, now, logTime := now.text }
  let files ← addPaths cwd (CommandLine.inputPaths machine args) configuring
  let elapsed := (← IO.monoNanosNow) - start
  let outcome := CommandLine.run { machine with files, elapsed } args
  writeChanges files outcome.files
  IO.print outcome.printed
  IO.eprint outcome.errors
  return UInt32.ofNat outcome.exitCode
