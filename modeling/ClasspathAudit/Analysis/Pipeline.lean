import ClasspathAudit.Analysis.Archives
import ClasspathAudit.Analysis.Classes
import ClasspathAudit.Analysis.Dependencies
import ClasspathAudit.Analysis.Packages
import ClasspathAudit.Analysis.ReleaseLayers

/-!
Running a choice of analyses and putting the report together.
-/

namespace ClasspathAudit

/-- Which analyses run and which findings stay. -/
structure AnalysisSettings where
  /-- Findings below are dropped. -/
  severity : Severity := ⟨""⟩
  /-- The analyses to run, all if empty. -/
  enable : List String := []
  disable : List String := []
  workers : Int := 0
deriving DecidableEq, Repr

namespace Analysis

/-- All analyses in the order of the report. -/
def registry : List Analysis :=
  [jarFiles, anomalies, classVersions, duplicateClasses, duplicateResources, platformShadowed,
    unresolvedDependencies, ambiguousDependencies, missingMembers, classHierarchy, splitPackages,
    packages, multiRelease, modules, jarDependencies, artifactVersions, jarManifests]

def names : List String := registry.map Analysis.name

/-- The analyses that the settings choose, in their own order; without settings all of them. -/
def enabled (analyses : List Analysis) (settings : Option AnalysisSettings) :
    Except Failure (List Analysis) :=
  match settings with
  | none => .ok analyses
  | some settings =>
    let known := analyses.map Analysis.name
    match (settings.enable ++ settings.disable).find? fun name => !known.contains name with
    | some name => .error (.coded .invalidConfig ("unknown analyzer: " ++ name))
    | none => .ok (analyses.filter fun a =>
        (settings.enable.isEmpty || settings.enable.contains a.name) &&
          !settings.disable.contains a.name)

/-- What goes into a report beside its sections. -/
structure Heading where
  id : String
  title : String := "JAR Health Check"
  label : String := ""
  generatedAt : Timestamp

/-- Runs the analyses in order. The first that fails fails the run. -/
def runAll (g : Graph) : List Analysis → Except Failure (List Section)
  | [] => .ok []
  | a :: rest =>
    match a.run false g with
    | .error failure => .error (.within ("analyzer " ++ a.name ++ " failed") failure)
    | .ok found => (runAll g rest).map (found :: ·)

def report (analyses : List Analysis) (settings : Option AnalysisSettings) (heading : Heading)
    (cancelled : Bool) (g : Graph) : Except Failure Report := do
  let chosen ← enabled analyses settings
  if cancelled then .error .cancelled
  else
    let sections ← runAll g chosen
    let threshold := (settings.map (·.severity)).getD ⟨""⟩
    return {
      id := heading.id
      title := heading.title
      label := heading.label
      summary := {
        jars := g.classpath.jars.length
        classes := g.classpath.classCount
        release := g.classpath.release
        generatedAt := heading.generatedAt }
      sections := some (sections.map fun s => some (s.atLeast threshold)) }

end Analysis

end ClasspathAudit
