import ClasspathAudit.Analysis.Basic

/-!
Analyses of references: those that nothing provides, those that several JARs provide, the uses between
JARs and the rules of modules.
-/

namespace ClasspathAudit.Analysis

def jarName (g : Graph) (index : Nat) : String := String.join (g.classpath.displayNames [index])

def unresolvedDependencies : Analysis where
  name := "unresolved_dependencies"
  title := "Unresolved Dependencies"
  description := fun _ => "Classes referenced but not found."
  columns := [stringColumn "JAR file", stringColumn "Class name", stringColumn "Missing class"]
  workItems := fun g => g.unresolved.length
  rows := fun g => .ok (g.unresolved.map fun e =>
    row .error (keyOf [jarName g e.sourceJar, e.source.name, e.target])
      [.string (jarName g e.sourceJar), .string e.source.name, .string e.target])

def ambiguousDependencies : Analysis where
  name := "ambiguous_dependencies"
  title := "Ambiguous Dependencies"
  description := fun _ => "Referenced classes found in more than one JAR file."
  columns := [stringColumn "Class name", stringColumn "Provider", listColumn "Shadowed",
    listColumn "Referenced by"]
  workItems := fun g => g.ambiguous.length
  rows := fun g => .ok ((sortedSet (g.ambiguous.map Edge.target)).filterMap fun name =>
    let own := g.ambiguous.filter (·.target = name)
    own.head?.map fun first =>
      row .warning name
        [.string name,
          .string (String.join (g.classpath.displayNames first.resolution.providerIndex?.toList)),
          .list (g.classpath.displayNames first.resolution.shadowed),
          .list (g.classpath.displayNames (own.map Edge.sourceJar).eraseDups)])

def jarDependencies : Analysis where
  name := "jar_dependencies"
  title := "JAR Dependencies"
  description := fun _ => "Dependencies between JAR files based on class references."
  columns := [stringColumn "JAR file", listColumn "Uses", listColumn "Used by"]
  workItems := fun g => g.classpath.jars.length
  rows := fun g => .ok (((jars g).filter fun (jar, _) => !jar.unreadable).map fun (jar, index) =>
    row .info jar.displayName
      [.string jar.displayName, .list (g.classpath.displayNames (g.dependencies index)),
        .list (g.classpath.displayNames (g.dependents index))])

/-- Whether a required module is neither on the classpath nor in the platform. -/
def isModuleMissing (g : Graph) (name : String) : Bool :=
  (g.classpath.moduleJar? name).isNone && name ≠ "java.base" && !g.boundary.any (·.hasModule name)

/-- The packages of other modules that a JAR uses though they are not exported to it. -/
def unexportedUses (g : Graph) (jar : Jar) (index : Nat) : List String :=
  sortedSet ((g.edges.filter (·.sourceJar = index)).filterMap fun e => do
    let provider ← e.resolution.providerIndex?
    let other ← g.classpath.jar? provider
    let descriptor ← other.moduleInfo
    let package := ClassName.package e.target
    if provider = index || !other.isNamedModule || descriptor.isExported package jar.moduleName then none
    else some (ClassName.displayPackage package ++ " (" ++ other.moduleName ++ ")"))

def moduleRow (jar : Jar) (severity : Severity) (issue detail : String) : Row :=
  row severity (keyOf [jar.displayName, issue, detail])
    [.string jar.displayName, .string jar.moduleName, .string issue, .string detail]

def moduleRows (g : Graph) (jar : Jar) (index : Nat) : List Row :=
  match jar.moduleInfo with
  | none => []
  | some descriptor =>
    if descriptor.isAutomatic then []
    else
      ((descriptor.requires.filter fun r => isModuleMissing g r.name).map fun r =>
        moduleRow jar (if r.isStatic then .warning else .error) "required module not found" r.name) ++
      (unexportedUses g jar index).map (moduleRow jar .error "package not exported")

def modules : Analysis where
  name := "modules"
  title := "Modules"
  description := fun _ => "Module descriptor checks for modular JAR files."
  columns := [stringColumn "JAR file", stringColumn "Module", stringColumn "Issue", stringColumn "Detail"]
  workItems := fun g => g.classpath.jars.length
  rows := fun g => .ok ((jars g).flatMap fun (jar, index) => moduleRows g jar index)

end ClasspathAudit.Analysis
