import ClasspathAudit.Analysis.Basic
import ClasspathAudit.Bytecode.Version

/-!
Analyses of single classes: their versions, classes and resources found twice, classes that the platform
has too, members that are missing and parents that cannot be.
-/

namespace ClasspathAudit.Analysis

def majorsOf (found : List JavaClass) : List Int :=
  ((found.map JavaClass.major).eraseDups).mergeSort fun a b => decide (b ≤ a)

def classVersionsRow (release : Int) (jar : Jar) (found : List JavaClass) : Row :=
  let highest := found.foldl (fun most c => max most c.major) 0
  row (if release < Version.releaseOf highest then .error else .info) jar.displayName
    [.string jar.displayName, .int highest, .string (Version.javaVersion highest),
      .list ((majorsOf found).map fun major =>
        s!"{Version.javaVersion major} ({found.countP fun c => c.major = major})")]

def classVersions : Analysis where
  name := "class_versions"
  title := "Class Versions"
  description := fun g =>
    s!"Java class file format information, target release: Java {g.classpath.release}."
  columns := [stringColumn "JAR file", intColumn "Max major", stringColumn "Java version",
    listColumn "Classes per version"]
  workItems := fun g => g.classpath.jars.length
  rows := fun g => .ok ((jars g).filterMap fun (jar, index) =>
    match g.classpath.classesOf (.listed index) with
    | [] => none
    | found => some (classVersionsRow g.classpath.release jar found))

def duplicateClasses : Analysis where
  name := "duplicate_classes"
  title := "Duplicate Classes"
  description := fun _ => "Classes found in more than one JAR file."
  columns := [stringColumn "Class name", stringColumn "Winner", listColumn "Shadowed",
    boolColumn "Identical"]
  workItems := fun g => g.classpath.duplicates.length
  rows := fun g => .ok (g.classpath.duplicates.map fun d =>
    row (if d.identical then .warning else .error) d.name
      [.string d.name, .string (String.join (g.classpath.displayNames [d.winner])),
        .list (g.classpath.displayNames d.shadowed), .bool d.identical])

/-- Whether a resource counts as content: not metadata of the archive, except registered services. -/
def isContent (path : String) : Bool :=
  (!Text.hasStart "META-INF/" path || Text.hasStart "META-INF/services/" path) &&
    !Text.hasEnd "/" path

def duplicateResources : Analysis where
  name := "duplicate_resources"
  title := "Duplicate Resources"
  description := fun _ => "Resources found in more than one JAR file."
  columns := [stringColumn "Resource", listColumn "JAR files", boolColumn "Identical"]
  workItems := fun g => g.classpath.jars.length
  rows := fun g =>
    let found := g.classpath.jars.flatMap fun jar =>
      (jar.resources.filter fun r => isContent r.path).map fun r => (r.path, jar.displayName, r.hash)
    .ok ((sortedSet (found.map (·.1))).filterMap fun path =>
      let own := found.filter (·.1 = path)
      let hashes := own.map (·.2.2)
      let identical := hashes.all fun h => some h == hashes.head?
      if own.length < 2 then none
      else some (row (if identical then .info else .warning) path
        [.string path, .list (own.map (·.2.1)), .bool identical]))

def platformShadowed : Analysis where
  name := "platform_shadowed"
  title := "Platform Classes"
  description := fun _ => "Classes also provided by the Java runtime."
  columns := [stringColumn "Class name", listColumn "JAR files", stringColumn "Platform module"]
  workItems := fun g => if g.boundary.isSome then g.classpath.classCount else 0
  rows := fun g => match g.boundary with
    | none => .ok []
    | some boundary => .ok ((g.classpath.classNames.filter boundary.containsClass).map fun name =>
        row (if Text.hasStart "java." name then .error else .warning) name
          [.string name, .list (g.classpath.displayNames (g.classpath.providersOf name)),
            .string (boundary.moduleOf (ClassName.package name))])

/-- What is wrong with a member reference, if anything. -/
def memberProblem? (status : MemberStatus) : Option String :=
  match status with
  | .missing => some "not found"
  | .inaccessible => some "not accessible"
  | _ => none

/-- The references of a class, of equal texts the first. -/
def distinctRefs (c : JavaClass) : List MemberRef :=
  c.memberRefs.foldl (fun kept ref =>
    if kept.any fun k => k.text = ref.text then kept else kept ++ [ref]) []

def missingMembers : Analysis where
  name := "missing_members"
  title := "Missing Members"
  description := fun _ => "Fields and methods referenced but not found or not accessible."
  columns := [stringColumn "JAR file", stringColumn "Class name", stringColumn "Kind",
    stringColumn "Missing member", stringColumn "Problem"]
  workItems := fun g => (classes g).length
  rows := fun g => .ok (((classes g).filter fun (_, _, c) => !c.degraded).flatMap fun (jar, index, c) =>
    (distinctRefs c).filterMap fun ref =>
      (memberProblem? (g.lookup (some (.listed index)) (some c) ref)).map fun problem =>
        row .error (keyOf [jar.displayName, c.name, ref.text])
          [.string jar.displayName, .string c.name, .string ref.kind.text, .string ref.text,
            .string problem])

/-- Whether a class is the body of a constant of the enum `parent`. -/
def isConstantBody (c parent : JavaClass) : Bool :=
  c.access.has .isEnum && Text.hasStart (parent.name ++ "$") c.name

def superclassIssues (g : Graph) (index : Nat) (c : JavaClass) : List String :=
  if c.superName.isEmpty then []
  else if (g.resolve (some (.listed index)) c.superName).isUnresolved then
    ["Superclass not found: " ++ c.superName]
  else match g.classOf? (some (.listed index)) c.superName with
    | none => []
    | some parent =>
      (if parent.access.has .isFinal then ["Superclass is final: " ++ parent.name] else []) ++
      (if parent.access.has .isAnnotationType then ["Superclass is an annotation: " ++ parent.name]
        else if parent.isInterface then ["Superclass is an interface: " ++ parent.name]
        else if parent.access.has .isEnum && !isConstantBody c parent then
          ["Superclass is an enum: " ++ parent.name]
        else []) ++
      (if Graph.canAccessClass c parent then [] else ["Superclass is not accessible: " ++ parent.name])

def interfaceIssues (g : Graph) (index : Nat) (c : JavaClass) (name : String) : List String :=
  if (g.resolve (some (.listed index)) name).isUnresolved then ["Interface not found: " ++ name]
  else match g.classOf? (some (.listed index)) name with
    | none => []
    | some parent =>
      (if parent.access.has .isAnnotationType then ["Interface is an annotation: " ++ parent.name]
        else if parent.isInterface then []
        else if parent.access.has .isEnum then ["Interface is an enum: " ++ parent.name]
        else if parent.access.has .isAbstract then ["Interface is an abstract class: " ++ parent.name]
        else ["Interface is a class: " ++ parent.name]) ++
      (if Graph.canAccessClass c parent then [] else ["Interface is not accessible: " ++ parent.name])

def classHierarchy : Analysis where
  name := "class_hierarchy"
  title := "Class Hierarchy"
  description := fun _ => "Problems with class hierarchy."
  columns := [stringColumn "JAR file", stringColumn "Class name", listColumn "Issues"]
  workItems := fun g => (classes g).length
  rows := fun g => .ok (((classes g).filter fun (_, _, c) => !c.degraded).filterMap fun (jar, index, c) =>
    match superclassIssues g index c ++ c.interfaces.flatMap (interfaceIssues g index c) with
    | [] => none
    | issues => some (row .error (keyOf [jar.displayName, c.name])
        [.string jar.displayName, .string c.name, .list (sorted issues)]))

end ClasspathAudit.Analysis
