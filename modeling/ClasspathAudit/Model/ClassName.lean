import ClasspathAudit.Text.Split

/-!
Names of classes. The internal form inside class files separates packages by slashes, the external
form by dots; a nested class is its enclosing class, a dollar sign and more.
-/

namespace ClasspathAudit.ClassName

open Text

def external (internal : String) : String :=
  String.ofList (internal.toList.map fun c => if c = '/' then '.' else c)

def internal (external : String) : String :=
  String.ofList (external.toList.map fun c => if c = '.' then '/' else c)

/-- The package, empty for the unnamed one. -/
def package (name : String) : String :=
  match splitLast? '.' name.toList with
  | some (before, _) => String.ofList before
  | none => ""

def simple (name : String) : String :=
  match splitLast? '.' name.toList with
  | some (_, after) => String.ofList after
  | none => name

/-- How a package is shown: the unnamed one has a name of its own. -/
def displayPackage (package : String) : String :=
  if package.isEmpty then "(default)" else package

/-- The outermost class around a nested one: the simple name ends before its first dollar sign,
unless it begins with one. -/
def topLevel (name : String) : String :=
  let (before, simple) := match splitLast? '.' name.toList with
    | some (package, simple) => (package ++ ['.'], simple)
    | none => ([], name.toList)
  match simple.takeWhile (· ≠ '$') with
  | [] => name
  | outer => String.ofList (before ++ outer)

def moduleInfo : String := "module-info"

def object : String := "java.lang.Object"

end ClasspathAudit.ClassName
