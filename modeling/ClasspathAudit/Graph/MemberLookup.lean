import ClasspathAudit.Graph.Access

/-!
Finding the member that a symbolic reference means: in its owner, or in the superclasses and interfaces
of the owner.
-/

namespace ClasspathAudit

/-- What became of a member reference. -/
inductive MemberStatus where
  | found
  /-- Part of the hierarchy is not on the classpath or only partly read. -/
  | unknown
  | missing
  /-- Declared, but not for the class that refers to it. -/
  | inaccessible
deriving DecidableEq, Repr

def MemberStatus.text : MemberStatus → String
  | found => "found"
  | unknown => "unknown"
  | missing => "missing"
  | inaccessible => "inaccessible"

/-- The declaration that a search came upon. -/
inductive Finding where
  | declared (owner : JavaClass) (member : Member)
  /-- A member that every class has. -/
  | universal
  | unknown
  | missing
deriving DecidableEq, Repr

namespace Finding

def isFound : Finding → Bool
  | declared _ _ => true
  | universal => true
  | _ => false

end Finding

namespace Graph

def objectMethods : List String :=
  ["<init>()V", "hashCode()I", "equals(Ljava/lang/Object;)Z", "toString()Ljava/lang/String;",
    "getClass()Ljava/lang/Class;", "clone()Ljava/lang/Object;", "finalize()V", "notify()V",
    "notifyAll()V", "wait()V", "wait(J)V", "wait(JI)V"]

def declaredMember? (c : JavaClass) (ref : MemberRef) : Option Member :=
  if ref.kind = .field then c.field? ref.name ref.descriptor else c.method? ref.name ref.descriptor

/-- One round of a search through several parents, `enter` searching one of them. A declaration ends
the search; what could not be seen is remembered. -/
def visit (enter : String → List String → Finding × List String) (reached : Finding × List String)
    (parent : String) : Finding × List String :=
  if reached.1.isFound then reached
  else
    let next := enter parent reached.2
    if next.1.isFound || next.1 = .unknown then next else (reached.1, next.2)

/-- Searches a member from `owner` upwards, depth first; visited names are not entered again. A parent
is looked up from the JAR that provides its child. -/
def search (g : Graph) (ref : MemberRef) :
    (fuel : Nat) → (source : Option JarRef) → (owner : String) → (visited : List String) →
      Finding × List String
  | 0, _, _, visited => (.missing, visited)
  | fuel + 1, source, owner, visited =>
    if visited.contains owner then (.missing, visited)
    else
      let visited := owner :: visited
      if owner = ClassName.object then
        if ref.kind ≠ .field ∧ objectMethods.contains (ref.name ++ ref.descriptor) then
          (.universal, visited)
        else (.missing, visited)
      else match (g.resolve source owner).provider? with
        | none => (.unknown, visited)
        | some provider =>
          match (g.classpath.classIn? provider owner).filter fun c => !c.degraded with
          | none => (.unknown, visited)
          | some c =>
            match declaredMember? c ref with
            | some member => (.declared c member, visited)
            | none => c.parents.foldl (visit (search g ref fuel (some provider))) (.missing, visited)

/-- What a reference from a record finds. -/
def find (g : Graph) (source : Option JarRef) (ref : MemberRef) : Finding :=
  (search g ref (g.searchBound source) source ref.owner []).1

/-- What becomes of a reference from a record, and from a class in it where one is given. -/
def lookup (g : Graph) (source : Option JarRef) (c : Option JavaClass) (ref : MemberRef) :
    MemberStatus :=
  match g.find source ref with
  | .declared owner member =>
    if c.all fun c => g.canAccessMember source c owner member then .found else .inaccessible
  | .universal => .found
  | .unknown => .unknown
  | .missing => .missing

end Graph

end ClasspathAudit
