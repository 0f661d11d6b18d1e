import ClasspathAudit.Classpath.Basic
import ClasspathAudit.Error
import ClasspathAudit.Platform.List
import Std.Data.TreeSet

/-!
The dependency graph: every reference of every class on a classpath, with what it stands for. A name
belongs to the platform first, then to the JAR that refers to it, then to the first JAR that provides it.
-/

namespace ClasspathAudit

/-- What a reference stands for. -/
inductive Resolution where
  | platform
  | unresolved
  | resolved (provider : JarRef)
  /-- Several JARs provide the class: the first is used and hides the others. -/
  | ambiguous (provider : Nat) (shadowed : List Nat)

namespace Resolution

def outcome : Resolution → String
  | platform => "platform"
  | unresolved => "unresolved"
  | resolved _ => "resolved"
  | ambiguous _ _ => "ambiguous"

def provider? : Resolution → Option JarRef
  | platform => none
  | unresolved => none
  | resolved provider => some provider
  | ambiguous provider _ => some (.listed provider)

def providerIndex? (r : Resolution) : Option Nat :=
  match r.provider? with
  | some (.listed index) => some index
  | _ => none

def shadowed : Resolution → List Nat
  | ambiguous _ others => others
  | _ => []

def isUnresolved : Resolution → Bool
  | unresolved => true
  | _ => false

def isAmbiguous : Resolution → Bool
  | ambiguous _ _ => true
  | _ => false

end Resolution

/-- A reference from a class to a name. -/
structure Edge where
  source : JavaClass
  /-- The position of the JAR that provides the source. -/
  sourceJar : Nat
  target : String
  resolution : Resolution

def Edge.isCrossJar (e : Edge) : Bool :=
  e.resolution.providerIndex?.any (· ≠ e.sourceJar)

/-- Which JARs use which others: by the position of a JAR, the positions of those that it uses and of those
that use it. -/
structure Usage where
  uses : Array (Std.TreeSet Nat)
  usedBy : Array (Std.TreeSet Nat)

namespace Usage

def usesOf (usage : Usage) (user : Nat) : Std.TreeSet Nat := usage.uses[user]?.getD {}

def usersOf (usage : Usage) (provider : Nat) : Std.TreeSet Nat := usage.usedBy[provider]?.getD {}

/-- None of `count` JARs uses another. -/
def unused (count : Nat) : Usage where
  uses := .replicate count {}
  usedBy := .replicate count {}

/-- Marks a use with both of its JARs, which must be among those that there are marks for. -/
def mark? (usage : Usage) (user provider : Nat) : Option Usage :=
  if user < usage.uses.size ∧ provider < usage.usedBy.size then
    some { uses := usage.uses.modify user (·.insert provider)
           usedBy := usage.usedBy.modify provider (·.insert user) }
  else none

/-- Marks what an edge tells: a use, if a JAR other than its own provides the target. -/
def addEdge? (usage : Usage) (e : Edge) : Option Usage :=
  match e.resolution.provider? with
  | none => some usage
  | some (.listed provider) =>
    if provider = e.sourceJar then some usage else usage.mark? e.sourceJar provider
  | some (.unlisted _) => none

def addEdge (usage : Usage) (e : Edge) : Usage := (usage.addEdge? e).getD usage

end Usage

structure Graph where
  classpath : Classpath
  boundary : Option PlatformList
  /-- JARs in classpath order, classes by name, references in the order of the class. -/
  edges : List Edge

namespace Graph

/-- What a name stands for when a record refers to it. -/
def resolveIn (cp : Classpath) (boundary : Option PlatformList) (source : Option JarRef)
    (name : String) : Resolution :=
  if boundary.any (·.containsClass name) then .platform
  else match source.filter fun ref => (cp.classIn? ref name).isSome with
    | some ref => .resolved ref
    | none =>
      match cp.providersOf name with
      | [] => .unresolved
      | [provider] => .resolved (.listed provider)
      | provider :: others => .ambiguous provider others

def edgesOf (cp : Classpath) (boundary : Option PlatformList) (index : Nat) : List Edge :=
  (cp.classesOf (.listed index)).flatMap fun source =>
    source.references.map fun target =>
      { source, sourceJar := index, target
        resolution := resolveIn cp boundary (some (.listed index)) target }

def build (classpath : Classpath) (boundary : Option PlatformList) : Graph where
  classpath
  boundary
  edges := (List.range classpath.jars.length).flatMap (edgesOf classpath boundary)

/-- The graph of a classpath, unless the run was called off. -/
def buildUnless (cancelled : Bool) (classpath : Classpath) (boundary : Option PlatformList) :
    Except Failure Graph :=
  if cancelled then .error .cancelled else .ok (build classpath boundary)

def resolve (g : Graph) (source : Option JarRef) (name : String) : Resolution :=
  resolveIn g.classpath g.boundary source name

def unresolved (g : Graph) : List Edge := g.edges.filter (·.resolution.isUnresolved)

def ambiguous (g : Graph) : List Edge := g.edges.filter (·.resolution.isAmbiguous)

/-- The edges of a class that a JAR of the classpath provides. -/
def edgesFrom (g : Graph) (index : Nat) (name : String) : List Edge :=
  g.edges.filter fun e => e.sourceJar = index ∧ e.source.name = name

/-- The uses between the JARs of the classpath, edge by edge. -/
def usage (g : Graph) : Usage :=
  g.edges.foldl Usage.addEdge (.unused g.classpath.jars.length)

/-- The JARs that a JAR uses, by position and ascending. -/
def dependencies (g : Graph) (index : Nat) : List Nat :=
  (g.usage.usesOf index).toList

/-- The JARs that use a JAR, by position and ascending. -/
def dependents (g : Graph) (index : Nat) : List Nat :=
  (g.usage.usersOf index).toList

/-- The class that a name stands for, for a record that refers to it. -/
def classOf? (g : Graph) (source : Option JarRef) (name : String) : Option JavaClass :=
  (g.resolve source name).provider?.bind fun provider => g.classpath.classIn? provider name

end Graph

end ClasspathAudit
