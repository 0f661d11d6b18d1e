import ClasspathAudit.CommandLine.Flag

/-!
The commands of the program: how one is found among the words of a command line, and what is told of
each on request.
-/

namespace ClasspathAudit.CommandLine

open Text

structure Command where
  name : String
  /-- The words behind the name in a line of usage. -/
  operands : String := ""
  short : String
  long : String := ""
  flags : List Flag := []
  /-- Whether the command does anything but hold others. -/
  runs : Bool := true
  /-- The names of the commands below, with what they do. -/
  below : List (String × String) := []
deriving DecidableEq, Repr

def programName : String := "jarhc"

def sharedFlags : List Flag := [
  ⟨"config", some 'c', .text, "Config file (default: ./jarhc.yaml, .toml or .json when present)"⟩,
  ⟨"format", some 'f', .text, "Output format: yaml or json (default: from output extension)"⟩,
  ⟨"output", some 'o', .text, "Output file (default: stdout)"⟩,
  ⟨"quiet", some 'q', .switch, "Suppress logs"⟩,
  ⟨"store", none, .text, "SQLite report history database"⟩,
  ⟨"verbose", some 'v', .count, "Increase log verbosity (-v info, -vv debug)"⟩]

def analyzeCommand : Command where
  name := "analyze"
  operands := "[jar|dir|class...]"
  short := "Analyze a classpath and write the report"
  long := "Analyze JAR files, exploded directories and class files in classpath order.

Examples:
  # Analyze two JAR files for Java 11 and print YAML
  jarhc analyze --release 11 lib/a.jar lib/b.jar

  # Analyze every JAR of a directory, write JSON and keep history
  jarhc analyze -o report.json --store .jarhc/history.db --label main lib/"
  flags := [
    ⟨"disable", none, .list, "Analyzers to skip"⟩,
    ⟨"enable", none, .list, "Analyzers to run (default: all)"⟩,
    ⟨"fail-on", none, .text, "Exit with an error when findings of this severity exist"⟩,
    ⟨"graph", none, .text, "Write the JAR dependency graph (YAML) to this file"⟩,
    ⟨"label", none, .text, "Report label, e.g. a branch name"⟩,
    ⟨"release", some 'r', .int, "Target Java release (default: from config)"⟩,
    ⟨"severity", none, .text, "Minimal severity of reported findings: info, warning or error"⟩]

def diffCommand : Command where
  name := "diff"
  operands := "<old> <new>"
  short := "Compare two reports"
  long := "Compare two serialized reports, or stored reports by ID when --store is set.

Examples:
  # Compare two report files
  jarhc diff old.yaml new.yaml

  # Compare a report file with the latest stored report labeled main
  jarhc diff --store .jarhc/history.db --latest main new.json"
  flags := [⟨"latest", none, .text, "Use the latest stored report with this label as the old report"⟩]

def versionCommand : Command where
  name := "version"
  short := "Print the version"

def helpCommand : Command where
  name := "help"
  operands := "[command]"
  short := "Help about any command"
  long := "Help provides help for any command in the application.
Simply type jarhc help [path to command] for full details."

def completionCommand : Command where
  name := "completion"
  short := "Generate the autocompletion script for the specified shell"
  long := "Generate the autocompletion script for jarhc for the specified shell.
See each sub-command's help for details on how to use the generated script.
"
  runs := false
  below := ["bash", "fish", "powershell", "zsh"].map fun shell =>
    (shell, "Generate the autocompletion script for " ++ shell)

/-- The commands in the order they are suggested. -/
def commands : List Command :=
  [analyzeCommand, diffCommand, versionCommand, helpCommand, completionCommand]

def rootCommand : Command where
  name := programName
  short := "jarhc - JAR health check"
  long := "jarhc analyzes a Java classpath without loading or running any class. It reports
duplicate and shadowed classes, unresolved dependencies, missing members, incompatible
class versions, split packages, module problems and multi-release JAR inconsistencies."
  runs := false
  below := (commands.map fun c => (c.name, c.short)).mergeSort fun a b => decide (a.1 ≤ b.1)

namespace Command

def isRoot (c : Command) : Bool := c.name = programName

def path (c : Command) : String :=
  if c.isRoot then programName else programName ++ " " ++ c.name

def helpFlag (c : Command) : Flag := ⟨"help", some 'h', .switch, "help for " ++ c.name⟩

def versionFlag : Flag := ⟨"version", none, .switch, "version for " ++ programName⟩

/-- The flags that a command takes once it is found. -/
def allFlags (c : Command) : List Flag :=
  c.flags ++ sharedFlags ++ [c.helpFlag] ++ if c.isRoot then [versionFlag] else []

end Command

/-- Whether a word is a flag whose value is the next word. Flags that are not known count as such. -/
def takesNext (flags : List Flag) (word : String) : Bool :=
  let needsValue (flag : Option Flag) : Bool := flag.all fun f => f.kind.implied?.isNone
  !word.toList.contains '=' &&
    match word.toList with
    | '-' :: '-' :: name => needsValue (named? flags (String.ofList name))
    | ['-', letter] => needsValue (lettered? flags letter)
    | _ => false

/-- The words of a command line that are neither flags nor their values. -/
def operands (flags : List Flag) : List String → List String
  | [] => []
  | word :: rest =>
    if word = "--" then []
    else if takesNext flags word then
      match rest with
      | _ :: next :: rest => operands flags (next :: rest)
      | _ => []
    else if word ≠ "" && !hasStart "-" word then word :: operands flags rest
    else operands flags rest

/-- The command line without the first operand of a name. -/
def withoutFirst (flags : List Flag) (name : String) : List String → List String
  | [] => []
  | word :: rest =>
    if word = "--" then word :: rest
    else if takesNext flags word then
      match rest with
      | value :: rest => word :: value :: withoutFirst flags name rest
      | [] => [word]
    else if word = name then rest
    else word :: withoutFirst flags name rest

/-- The number of single letters to insert, drop or change between two words. -/
def editDistance (s t : List Char) : Nat :=
  let next (row : List Nat) (index : Nat) (c : Char) : List Nat :=
    ((t.zip (row.zip (row.drop 1))).foldl (fun (done : List Nat) (d, diagonal, above) =>
      let left := done.headD 0
      (if c = d then diagonal else 1 + min diagonal (min above left)) :: done) [index + 1]).reverse
  let last := (s.zipIdx).foldl (fun row (c, index) => next row index c) (List.range (t.length + 1))
  last.getLast?.getD 0

/-- The commands that a word may have been meant for; help is never suggested. -/
def suggestions (word : String) : List String :=
  ((commands.map Command.name).filter (· ≠ helpCommand.name)).filter fun name =>
    editDistance (lower word).toList (lower name).toList ≤ 2 || hasStart (lower word) (lower name)

def unknownCommand (word : String) : String :=
  let found := suggestions word
  "unknown command " ++ quote word ++ " for " ++ quote programName ++
    if found.isEmpty then ""
    else "\n\nDid you mean this?\n" ++ String.join (found.map fun name => "\t" ++ name ++ "\n")

/-- The command of a command line and the words that are left for it. -/
def findCommand (args : List String) : Except String (Command × List String) :=
  match operands sharedFlags args with
  | [] => .ok (rootCommand, args)
  | word :: _ =>
    match commands.find? (·.name = word) with
    | some command => .ok (command, withoutFirst sharedFlags word args)
    | none => .error (unknownCommand word)

/-- A flag in a list of flags, without what it does. -/
def flagText (flag : Flag) : String :=
  let name := match flag.letter with
    | some letter => "  -" ++ String.singleton letter ++ ", --" ++ flag.name
    | none => "      --" ++ flag.name
  if flag.kind.placeholder.isEmpty then name else name ++ " " ++ flag.kind.placeholder

def padTo (width : Nat) (s : String) : String :=
  s ++ String.ofList (List.replicate (width - s.length) ' ')

/-- The list of flags, by name and in columns. -/
def flagLines (flags : List Flag) : String :=
  let sorted := flags.mergeSort fun a b => decide (a.name ≤ b.name)
  let width := (sorted.map fun f => (flagText f).length).foldl max 0
  String.intercalate "\n" (sorted.map fun f => padTo (width + 3) (flagText f) ++ f.usage)

namespace Command

/-- How a command is used. -/
def usage (c : Command) : String :=
  let own := if c.isRoot then c.allFlags else c.flags ++ [c.helpFlag]
  let line := c.path ++ (if c.operands.isEmpty then "" else " " ++ c.operands) ++ " [flags]"
  "Usage:" ++ (if c.runs then "\n  " ++ line else "") ++
    (if c.below.isEmpty then ""
      else "\n  " ++ c.path ++ " [command]\n\nAvailable Commands:" ++
        String.join (c.below.map fun (name, short) => "\n  " ++ padTo 11 name ++ " " ++ short)) ++
    "\n\nFlags:\n" ++ flagLines own ++
    (if c.isRoot then "" else "\n\nGlobal Flags:\n" ++ flagLines sharedFlags) ++
    (if c.below.isEmpty then ""
      else "\n\nUse \"" ++ c.path ++ " [command] --help\" for more information about a command.") ++ "\n"

/-- What is told of a command on request. -/
def help (c : Command) : String :=
  let intro := if c.long.isEmpty then c.short else c.long
  String.ofList ((intro.toList.reverse.dropWhile isBlank).reverse) ++ "\n\n" ++ c.usage

end Command

end ClasspathAudit.CommandLine
