import ClasspathAudit.Graph.Basic

/-!
Which classes and members a class may use.
-/

namespace ClasspathAudit

/-- The superclass, if there is one, and the interfaces. -/
def JavaClass.parents (c : JavaClass) : List String :=
  if c.superName.isEmpty then c.interfaces else c.superName :: c.interfaces

namespace Graph

/-- Public classes can be used from everywhere, others from their own package. -/
def canAccessClass (source target : JavaClass) : Bool :=
  target.access.has .isPublic || source.name = target.name || source.package = target.package

/-- Searches the ancestors of a class for a name, depth first; classes of the visited names are not
entered again. Answers whether it was found and which names are visited by then. -/
def searchAncestors (g : Graph) (source : Option JarRef) (target : String) :
    (fuel : Nat) → JavaClass → (visited : List String) → Bool × List String
  | 0, _, visited => (false, visited)
  | fuel + 1, c, visited =>
    if visited.contains c.name then (false, visited)
    else
      let visited := c.name :: visited
      if c.parents.contains target then (true, visited)
      else c.parents.foldl (fun (found, visited) parent =>
        if found then (found, visited)
        else match g.classOf? source parent with
          | some parentClass => searchAncestors g source target fuel parentClass visited
          | none => (found, visited)) (false, visited)

/-- How many classes a search can enter: one of each name on the classpath, those of the record that
the search starts from, and its start. -/
def searchBound (g : Graph) (source : Option JarRef) : Nat :=
  g.classpath.classCount + (match source with
    | some ref => (g.classpath.classesOf ref).length
    | none => 0) + 2

def isSubclass (g : Graph) (source : Option JarRef) (c : JavaClass) (target : String) : Bool :=
  (searchAncestors g source target (g.searchBound source) c []).1

/-- Whether a class of a record may use a member that `owner` declares. Nested classes share the
members of their outermost class; protected members are for subclasses. -/
def canAccessMember (g : Graph) (source : Option JarRef) (c owner : JavaClass) (member : Member) :
    Bool :=
  if member.access.has .isPublic then true
  else if ClassName.topLevel c.name = ClassName.topLevel owner.name then true
  else if member.access.has .isPrivate then false
  else if c.package = owner.package then true
  else if member.access.has .isProtected then g.isSubclass source c owner.name
  else false

end Graph

end ClasspathAudit
