import ClasspathAudit.Model.ClassName

/-!
What a Java runtime provides itself, as a list of its modules with their packages.
-/

namespace ClasspathAudit

/-- A module of the runtime: the packages it exports, and single classes beside them. -/
structure PlatformModule where
  name : String
  packages : List String := []
  classes : List String := []
deriving DecidableEq, Repr

/-- The boundary between a classpath and its runtime. -/
structure PlatformList where
  release : Int
  modules : List PlatformModule := []
deriving DecidableEq, Repr

namespace PlatformList

open Text

/-- The first module that exports a package. -/
def exporter? (p : PlatformList) (package : String) : Option PlatformModule :=
  p.modules.find? fun m => m.packages.contains package

/-- Whether the runtime provides a package. Packages of the language itself always belong to the
runtime, because no class path may define them. -/
def containsPackage (p : PlatformList) (package : String) : Bool :=
  package = "java" || hasStart "java." package || (p.exporter? package).isSome

def containsClass (p : PlatformList) (name : String) : Bool :=
  p.modules.any (·.classes.contains name) || p.containsPackage (ClassName.package name)

/-- The module of a package, empty for a package the runtime does not provide. -/
def moduleOf (p : PlatformList) (package : String) : String :=
  match p.exporter? package with
  | some m => m.name
  | none => if hasStart "java." package then "java.base" else ""

def moduleNames (p : PlatformList) : List String :=
  (p.modules.map PlatformModule.name).mergeSort fun a b => decide (a ≤ b)

def hasModule (p : PlatformList) (name : String) : Bool := p.modules.any (·.name = name)

/-- Of several lists the one with the highest release up to the wanted one, or else the oldest; the
first of equals. -/
def select (lists : List PlatformList) (release : Int) : Option PlatformList :=
  let best := lists.foldl (fun best p =>
    if p.release ≤ release ∧ best.all (fun b => decide (b.release < p.release)) then some p
    else best) (none : Option PlatformList)
  let oldest := lists.foldl (fun oldest p =>
    if oldest.all fun b => decide (p.release < b.release) then some p else oldest) none
  best.or oldest

end PlatformList

end ClasspathAudit
