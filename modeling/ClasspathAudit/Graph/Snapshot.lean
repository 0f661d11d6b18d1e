import ClasspathAudit.Document.Basic
import ClasspathAudit.Graph.Basic

/-!
The graph at the level of JARs: a node for each JAR and for each missing class, and a link for all the
references between two nodes. In what is written of it, the properties of a node or a link are sorted by
name.
-/

namespace ClasspathAudit

inductive SnapshotNode where
  | jar (name origin : String) (classes : Nat) (moduleName : String) (unreadable : Bool)
  | missing (name : String)
deriving DecidableEq, Repr

inductive LinkKind where
  | uses
  | unresolved
deriving DecidableEq, Repr

def LinkKind.text : LinkKind → String
  | uses => "uses"
  | unresolved => "unresolved"

structure SnapshotLink where
  source : String
  target : String
  kind : LinkKind
  references : Nat
deriving DecidableEq, Repr

structure Snapshot where
  nodes : List SnapshotNode
  links : List SnapshotLink
deriving DecidableEq, Repr

namespace Snapshot

/-- Counts a reference, in the link that exists for it or in a new one at the end. -/
def count (source target : String) (kind : LinkKind) : List SnapshotLink → List SnapshotLink
  | [] => [⟨source, target, kind, 1⟩]
  | link :: rest =>
    if link.kind.text ++ "|" ++ link.source ++ "|" ++ link.target =
        kind.text ++ "|" ++ source ++ "|" ++ target then
      { link with references := link.references + 1 } :: rest
    else link :: count source target kind rest

def jarNode (cp : Classpath) (jar : Jar) (index : Nat) : SnapshotNode :=
  .jar jar.displayName jar.origin (cp.classesOf (.listed index)).length jar.moduleName jar.unreadable

def jarName (cp : Classpath) (index : Nat) : String :=
  ((cp.jar? index).map Jar.displayName).getD ""

def linkOf? (cp : Classpath) (e : Edge) : Option (String × String × LinkKind) :=
  let source := jarName cp e.sourceJar
  match e.resolution.isUnresolved, e.resolution.providerIndex? with
  | true, _ => some (source, e.target, .unresolved)
  | false, some provider =>
    if provider = e.sourceJar then none else some (source, jarName cp provider, .uses)
  | false, none => none

end Snapshot

def Graph.snapshot (g : Graph) : Snapshot where
  nodes := g.classpath.jars.zipIdx.map (fun (jar, index) => Snapshot.jarNode g.classpath jar index) ++
    (g.unresolved.map Edge.target).eraseDups.map SnapshotNode.missing
  links := (g.edges.filterMap (Snapshot.linkOf? g.classpath)).foldl
    (fun links (source, target, kind) => Snapshot.count source target kind links) []

def SnapshotNode.document : SnapshotNode → Document
  | .jar name origin classes moduleName unreadable =>
    .record [("id", .text name), ("type", .text "jar"),
      ("properties", .record ([("classes", .int classes)] ++
        Document.textField "module" moduleName ++ [("origin", .text origin)] ++
        (if unreadable then [("unreadable", .bool true)] else [])))]
  | .missing name => .record [("id", .text name), ("type", .text "missing")]

def SnapshotLink.document (link : SnapshotLink) : Document :=
  .record [("source", .text link.source), ("target", .text link.target),
    ("type", .text link.kind.text), ("properties", .record [("references", .int link.references)])]

namespace Snapshot

/-- A list that is absent when it is empty. -/
def listOf {α : Type} (item : α → Document) (items : List α) : Document :=
  if items.isEmpty then .absentList else .list (items.map item)

def document (s : Snapshot) : Document :=
  .record [("nodes", listOf SnapshotNode.document s.nodes), ("links", listOf SnapshotLink.document s.links)]

end Snapshot

end ClasspathAudit
