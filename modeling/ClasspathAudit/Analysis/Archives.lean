import ClasspathAudit.Analysis.Basic
import ClasspathAudit.Version.Semantic

/-!
Analyses of the archives themselves: what they are, what is wrong with them, what their manifests say
and which artifacts come in several versions.
-/

namespace ClasspathAudit.Analysis

def moduleCell (jar : Jar) : String :=
  if !jar.moduleName.isEmpty && !jar.isNamedModule then jar.moduleName ++ " (automatic)"
  else jar.moduleName

def jarFilesRow (g : Graph) (jar : Jar) (index : Nat) : Row :=
  row (if jar.unreadable then .error else .info) jar.displayName
    [.string jar.displayName, .string jar.artifactName, .string jar.version,
      .string ((jar.coordinate.map Coordinate.text).getD ""), .int jar.size,
      .int (g.classpath.classesOf (.listed index)).length, .string jar.checksum,
      .list (if jar.isMultiRelease then jar.releases.map fun r => s!"Java {r}" else []),
      .string (moduleCell jar), .int jar.anomalies.length]

def jarFiles : Analysis where
  name := "jar_files"
  title := "JAR Files"
  description := fun _ => "List of JAR files found in the classpath."
  columns := [stringColumn "JAR file", stringColumn "Artifact", stringColumn "Version",
    stringColumn "Coordinate", intColumn "Size", intColumn "Classes", stringColumn "Checksum (SHA-1)",
    listColumn "Multi-release", stringColumn "Module", intColumn "Anomalies"]
  workItems := fun g => g.classpath.jars.length
  rows := fun g => .ok ((jars g).map fun (jar, index) => jarFilesRow g jar index)

def anomalyRow (jar : Jar) (anomaly : Anomaly) : Row :=
  row (if anomaly.code = .unreadableArchive then .error else .warning)
    (keyOf [jar.displayName, anomaly.entry, anomaly.code.name])
    [.string jar.displayName, .string anomaly.entry, .string anomaly.code.name, .string anomaly.message]

def anomalies : Analysis where
  name := "anomalies"
  title := "Anomalies"
  description := fun _ => "Archives and entries skipped or only partially analyzed."
  columns := [stringColumn "JAR file", stringColumn "Entry", stringColumn "Code", stringColumn "Message"]
  workItems := fun g => g.classpath.jars.length
  rows := fun g => .ok (g.classpath.jars.flatMap fun jar => jar.anomalies.map (anomalyRow jar))

/-- An artifact with the versions it comes in and the JARs it is found in, both in classpath order. -/
structure ArtifactUse where
  name : String
  versions : List String
  jarNames : List String

def artifactUses (g : Graph) : List ArtifactUse :=
  let named := g.classpath.jars.filter fun jar => !jar.artifactName.isEmpty && !jar.version.isEmpty
  (sortedSet (named.map Jar.artifactName)).map fun name =>
    let own := named.filter (·.artifactName = name)
    { name, versions := (own.map Jar.version).eraseDups, jarNames := own.map Jar.displayName }

def artifactVersions : Analysis where
  name := "artifact_versions"
  title := "Artifact Versions"
  description := fun _ => "Artifacts found in more than one version."
  columns := [stringColumn "Artifact", listColumn "Versions", listColumn "JAR files",
    stringColumn "Highest version"]
  workItems := fun g => g.classpath.jars.length
  rows := fun g =>
    .ok (((artifactUses g).filter fun use => 1 < use.versions.length).map fun use =>
      row .warning use.name
        [.string use.name, .list use.versions, .list use.jarNames, .string (Version.highest use.versions)])

def runtimeAttributes : List String := ["Main-Class", "Class-Path"]

def implementationAttributes : List String :=
  ["Implementation-Title", "Implementation-Version", "Implementation-Build", "Implementation-Build-Id",
    "Implementation-Vendor", "Implementation-Vendor-Id", "Implementation-URL"]

def specificationAttributes : List String :=
  ["Specification-Title", "Specification-Version", "Specification-Vendor"]

def presentAttributes (manifest : Manifest) (names : List String) : List String :=
  names.filterMap fun name =>
    (manifest.find? (·.1 = name)).map fun (_, value) => name ++ ": " ++ value

/-- The attributes that belong to no other group; headers of bundles are left out. -/
def generalAttributes (manifest : Manifest) : List String :=
  let grouped := runtimeAttributes ++ implementationAttributes ++ specificationAttributes
  sorted ((manifest.filter fun (name, _) =>
    !grouped.contains name && !Text.hasStart "Bundle-" name).map fun (name, value) =>
      name ++ ": " ++ value)

def jarManifests : Analysis where
  name := "jar_manifests"
  title := "JAR Manifests"
  description := fun _ => "Information found in META-INF/MANIFEST.MF."
  columns := [stringColumn "JAR file", listColumn "General", listColumn "Runtime",
    listColumn "Implementation", listColumn "Specification"]
  workItems := fun g => g.classpath.jars.length
  rows := fun g =>
    .ok ((g.classpath.jars.filter fun jar => !jar.manifest.isEmpty).map fun jar =>
      row .info jar.displayName
        [.string jar.displayName, .list (generalAttributes jar.manifest),
          .list (presentAttributes jar.manifest runtimeAttributes),
          .list (presentAttributes jar.manifest implementationAttributes),
          .list (presentAttributes jar.manifest specificationAttributes)])

end ClasspathAudit.Analysis
