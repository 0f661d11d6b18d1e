import ClasspathAudit.Analysis.Basic

/-!
The analysis of release layers. A class of a version directory should differ from the one it replaces in
its body only: classes that the base lacks, and visible members that change or disappear, are findings.
-/

namespace ClasspathAudit.Analysis

/-- What happened to a member from one layer to the next. -/
inductive MemberChange where
  | changed (before after : Member)
  | removed (before : Member)
deriving DecidableEq, Repr

/-- The visible members that a newer version of a class lacks. One whose name is used once in each
version counts as changed. -/
def memberChanges (previous current : List Member) : List MemberChange :=
  let visible (members : List Member) := members.filter fun m => m.access.visible
  let gone := (visible previous).filter fun m =>
    !(visible current).any fun c => c.signature = m.signature
  gone.map fun m =>
    match (visible current).filter (·.name = m.name), (visible previous).countP (·.name = m.name) with
    | [candidate], 1 => .changed m candidate
    | _, _ => .removed m

/-- A finding in one layer: the kind of change and its detail. -/
structure LayerFinding where
  severity : Severity
  change : String
  detail : String

def ofMemberChange (kind : String) : MemberChange → LayerFinding
  | .changed before after =>
    ⟨.error, kind ++ " changed", before.signature ++ " -> " ++ after.signature⟩
  | .removed before => ⟨.error, kind ++ " removed", before.signature⟩

/-- The findings on a class of a layer above the base, against the class it replaces. -/
def layerFindings (jar : Jar) (release : Int) (c : JavaClass) : List LayerFinding :=
  match jar.effectiveClass? c.name (release - 1) with
  | some previous =>
    (memberChanges previous.methods c.methods).map (ofMemberChange "method") ++
      (memberChanges previous.fields c.fields).map (ofMemberChange "field")
  | none =>
    if (jar.base.get? c.name).isNone then [⟨.warning, "class added", s!"Java {release}"⟩] else []

/-- The classes of the layers above the base, layer by layer and by name. -/
def layeredClasses (jar : Jar) : List (Int × JavaClass) :=
  (jar.layers.filter (·.release ≠ baseRelease)).flatMap fun layer =>
    (layer.names.filterMap layer.get?).map fun c => (layer.release, c)

def layerRow (jar : Jar) (release : Int) (name : String) (finding : LayerFinding) : Row :=
  row finding.severity
    (keyOf [jar.displayName, toString release, name, finding.change, finding.detail])
    [.string jar.displayName, .int release, .string name, .string finding.change,
      .string finding.detail]

def multiReleaseJars (g : Graph) : List Jar := g.classpath.jars.filter Jar.isMultiRelease

def multiRelease : Analysis where
  name := "multi_release"
  title := "Multi-release JARs"
  description := fun _ => "Differences between release layers of multi-release JAR files."
  columns := [stringColumn "JAR file", intColumn "Release", stringColumn "Class name",
    stringColumn "Change", stringColumn "Detail"]
  workItems := fun g => ((multiReleaseJars g).flatMap layeredClasses).length
  rows := fun g => .ok ((multiReleaseJars g).flatMap fun jar =>
    ((layeredClasses jar).filter fun (_, c) => !c.isModuleInfo).flatMap fun (release, c) =>
      (layerFindings jar release c).map (layerRow jar release c.name))

end ClasspathAudit.Analysis
