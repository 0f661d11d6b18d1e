import ClasspathAudit.Analysis.Basic

/-!
Analyses of packages: those spread over several JARs, and JARs with packages of unrelated roots.
-/

namespace ClasspathAudit.Analysis

def splitPackages : Analysis where
  name := "split_packages"
  title := "Split Packages"
  description := fun _ => "Packages found in more than one JAR file."
  columns := [stringColumn "Package", listColumn "JAR files"]
  workItems := fun g => g.classpath.packages.length
  rows := fun g => .ok (g.classpath.packages.filterMap fun package =>
    let holders := g.classpath.holdersOf package
    let names := g.classpath.displayNames holders
    if holders.length < 2 then none
    else some (row .warning (keyOf [package, String.intercalate "," names])
      [.string (ClassName.displayPackage package), .list names]))

/-- The first segments of a package. -/
def leadingSegments (count : Nat) (package : String) : String :=
  String.intercalate "." ((Text.splitOnChar '.' package).take count)

/-- The root of a package: two segments under the common top-level domains, one otherwise. -/
def rootOf (package : String) : String :=
  let domains := ["org.", "com.", "net."]
  leadingSegments (if domains.any fun d => Text.hasStart d package then 2 else 1) package

/-- The roots of some packages; one that is not itself among the packages is shown with a star. -/
def rootPackages (packages : List String) : List String :=
  sortedSet (packages.map fun package =>
    let root := rootOf package
    if !root.isEmpty && !packages.contains root then root ++ ".*" else ClassName.displayPackage root)

def packageIssues (g : Graph) (packages : List String) : List String :=
  let split := packages.filter fun package => 1 < (g.classpath.holdersOf package).length
  let roots := rootPackages packages
  split.map (fun package => "Split Package: " ++ ClassName.displayPackage package) ++
    (if 1 < roots.length then ["Fat JAR: " ++ String.intercalate ", " roots] else [])

def packagesRow (g : Graph) (jar : Jar) (packages : List String) : Row :=
  let issues := packageIssues g packages
  row (if issues.isEmpty then .info else .warning) jar.displayName
    [.string jar.displayName, .int packages.length, .list (packages.map ClassName.displayPackage),
      .list issues]

def packages : Analysis where
  name := "packages"
  title := "Packages"
  description := fun _ => "List of packages per JAR file."
  columns := [stringColumn "JAR file", intColumn "Count", listColumn "Packages", listColumn "Issues"]
  workItems := fun g => g.classpath.jars.length
  rows := fun g => .ok ((jars g).filterMap fun (jar, index) =>
    match sortedSet ((g.classpath.classesOf (.listed index)).map JavaClass.package) with
    | [] => none
    | found => some (packagesRow g jar found))

end ClasspathAudit.Analysis
