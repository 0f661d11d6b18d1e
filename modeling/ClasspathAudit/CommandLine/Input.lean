import ClasspathAudit.CommandLine.Run

/-!
What a run has to know of the machine before it starts: first the files that may configure it, then
those that the command line and the configuration name.
-/

namespace ClasspathAudit.CommandLine

/-- The flags and operands of a command line, as far as they can be read. -/
def words (args : List String) : List Given × List String :=
  match findCommand args with
  | .error _ => ([], [])
  | .ok (command, rest) => (parseFlags command.allFlags rest).toOption.getD ([], [])

def configurationFiles (args : List String) : List String :=
  match textOf "config" (words args).1 with
  | "" => ".env" :: ConfigFormat.endings.map fun (ending, _) => Configuration.fileName ++ "." ++ ending
  | location => [location, Text.Path.join [Text.Path.directory location, ".env"]]

/-- The paths that a run may read or write, the configuration being known. -/
def inputPaths (m : Machine) (args : List String) : List String :=
  let (given, operands) := words args
  let c := (configure m given).toOption.getD {}
  let targets := [c.path, textOf "graph" given].filter (· ≠ "")
  configurationFiles args ++ operands ++ c.classpath ++ c.platform ++ [c.store].filter (· ≠ "") ++ targets

end ClasspathAudit.CommandLine
