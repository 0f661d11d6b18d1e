import ClasspathAudit.Loading.Loader
import ClasspathAudit.Logging.Record

/-!
What is logged while a classpath is loaded.
-/

namespace ClasspathAudit

def Jar.skipRecord (origin : String) (anomaly : Anomaly) : LogRecord where
  level := .warn
  message := "entry skipped"
  attributes := [("origin", .text origin), ("entry", .text anomaly.entry),
    ("code", .text anomaly.code.name), ("error", .text anomaly.message)]

/-- What is logged of an archive: first the manifest, then entry by entry in order of their names, with
those of nested archives in their place. -/
def Jar.logRecords : Jar → List LogRecord
  | ⟨origin, _, _, _, _, _, anomalies, _, _, _, nested⟩ =>
    let own := anomalies.map fun a =>
      (if a.entry = Archive.manifestPath then "" else a.entry, [Jar.skipRecord origin a])
    ((own ++ nestedRecords origin nested).mergeSort fun a b => decide (a.1 ≤ b.1)).flatMap Prod.snd
where
  nestedRecords (outer : String) : List Jar → List (String × List LogRecord)
    | [] => []
    | jar :: rest =>
      (Text.dropStart (outer ++ "!/") jar.origin, Jar.logRecords jar) :: nestedRecords outer rest

namespace Loader

/-- What is logged of an artifact. -/
def artifactRecords (settings : LoaderSettings) (artifact : Artifact) : List LogRecord :=
  match artifact.inspect settings false with
  | .ok jar => jar.logRecords
  | .error failure =>
    let before := match artifact.effectiveKind, artifact.content with
      | .classFile, .bytes bytes => (Inspector.classRecord settings artifact.origin bytes).logRecords
      | _, _ => []
    before ++ [{
      level := .warn
      message := "artifact unreadable"
      attributes := [("origin", .text artifact.origin), ("error", .text failure.text)] }]

end Loader

end ClasspathAudit
