import ClasspathAudit.Loading.Artifact

/-!
Loading a classpath. Each artifact keeps its position: one that cannot be loaded leaves a record that
says why, and an archive is followed by those inside it. Artifacts may be loaded side by side: each has
a place for its record, and the tasks that fill the places may finish in any order.
-/

namespace ClasspathAudit

/-- A record and, after it, those nested in it. -/
def Jar.flatten : Jar → List Jar
  | jar@⟨_, _, _, _, _, _, _, _, _, _, nested⟩ => jar :: flattenAll nested
where
  flattenAll : List Jar → List Jar
    | [] => []
    | jar :: rest => Jar.flatten jar ++ flattenAll rest

namespace Loader

/-- The record that stands for an artifact that could not be loaded. -/
def failed (artifact : Artifact) (failure : Failure) : Jar :=
  Jar.init {
    origin := artifact.origin
    coordinate := artifact.coordinate
    unreadable := true
    anomalies := [⟨"", failure.code?.getD .unreadableArchive, failure.text⟩] }

/-- The record of an artifact, loadable or not. -/
def record (settings : LoaderSettings) (artifact : Artifact) : Jar :=
  match artifact.inspect settings false with
  | .ok jar => jar
  | .error failure => failed artifact failure

/-- The classpath of the records of `count` artifacts. It fails when none of them is readable. -/
def collect (count : Nat) (records : List Jar) : Except Failure (List Jar) :=
  let jars := records.flatMap Jar.flatten
  if jars.all (·.unreadable) then
    .error (.coded .emptyClasspath s!"no readable artifact among {count}")
  else .ok jars

def load (settings : LoaderSettings) (cancelled : Bool) (artifacts : List Artifact) :
    Except Failure (List Jar) :=
  if cancelled then .error .cancelled
  else collect artifacts.length (artifacts.map (record settings))

/-- The places after the task of the artifact at `index` has finished. -/
def finishTask (settings : LoaderSettings) (artifacts : List Artifact) (places : List (Option Jar))
    (index : Nat) : List (Option Jar) :=
  match artifacts[index]? with
  | some artifact => places.set index (some (record settings artifact))
  | none => places

/-- The records of a classpath whose tasks finish in the given order. -/
def loadInOrder (settings : LoaderSettings) (order : List Nat) (artifacts : List Artifact) :
    Except Failure (List Jar) :=
  let places := order.foldl (finishTask settings artifacts) (List.replicate artifacts.length none)
  collect artifacts.length (places.filterMap id)

end Loader

end ClasspathAudit
