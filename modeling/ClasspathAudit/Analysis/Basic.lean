import ClasspathAudit.Graph.MemberLookup
import ClasspathAudit.Report.Basic

/-!
Analyses: each looks at the dependency graph of a classpath and fills one section of the report.
-/

namespace ClasspathAudit

/-- A table to be filled. -/
structure Analysis where
  name : String
  title : String
  description : Graph → String
  columns : List Column
  /-- How many items of work there are; a run that was called off stops before the first. -/
  workItems : Graph → Nat
  rows : Graph → Except Failure (List Row)

namespace Analysis

def stringColumn (name : String) : Column := ⟨name, "string"⟩

def intColumn (name : String) : Column := ⟨name, "int"⟩

def boolColumn (name : String) : Column := ⟨name, "bool"⟩

def listColumn (name : String) : Column := ⟨name, "list"⟩

def keyOf (parts : List String) : String := String.intercalate "|" parts

def row (severity : Severity) (key : String) (cells : List Cell) : Row :=
  { key, severity, cells := some cells }

def run (a : Analysis) (cancelled : Bool) (g : Graph) : Except Failure Section :=
  if cancelled && a.workItems g != 0 then .error .cancelled
  else (a.rows g).map fun rows =>
    { name := a.name
      title := a.title
      description := a.description g
      columns := some a.columns
      rows := some (rows.map some) }

def jars (g : Graph) : List (Jar × Nat) := g.classpath.jars.zipIdx

/-- Every class that a JAR of the graph provides, JAR by JAR and by name. -/
def classes (g : Graph) : List (Jar × Nat × JavaClass) :=
  (jars g).flatMap fun (jar, index) =>
    (g.classpath.classesOf (.listed index)).map fun c => (jar, index, c)

/-- The items of a list without repetition, ascending. -/
def sortedSet (names : List String) : List String :=
  names.eraseDups.mergeSort fun a b => decide (a ≤ b)

def sorted (names : List String) : List String :=
  names.mergeSort fun a b => decide (a ≤ b)

end Analysis

end ClasspathAudit
