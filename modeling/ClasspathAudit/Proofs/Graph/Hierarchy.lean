import ClasspathAudit.Graph.MemberLookup
import ClasspathAudit.Proofs.Classpath.Providers

/-!
The hierarchy that a member is searched in. On a classpath with one provider at most for each name, all
JARs see the same hierarchy, and one step of the search is told by what a name stands for in it.
-/

namespace ClasspathAudit.Graph

/-- The class whose supertypes belong to a hierarchy with it. The root of all classes has none, and a
class that was not fully read does not count. -/
def expanded? (g : Graph) (source : Option JarRef) (name : String) : Option JavaClass :=
  if name = ClassName.object then none
  else (g.classOf? source name).filter fun c => !c.degraded

/-- The names that are reached from an owner through superclasses and interfaces. -/
inductive Hierarchy (g : Graph) (source : Option JarRef) (owner : String) : String → Prop where
  | owner : Hierarchy g source owner owner
  | parent {name parent : String} {c : JavaClass} (reached : Hierarchy g source owner name)
      (expands : g.expanded? source name = some c) (listed : parent ∈ c.parents) :
      Hierarchy g source owner parent

/-- The class of a name cannot be seen, or not fully. -/
def Outside (g : Graph) (source : Option JarRef) (name : String) : Prop :=
  g.resolve source name = .platform ∨ g.resolve source name = .unresolved ∨
    ∃ c, g.classOf? source name = some c ∧ c.degraded = true

/-- The class of a name declares the member, or it is the root of all classes and has the member. -/
def Answers (g : Graph) (source : Option JarRef) (ref : MemberRef) (name : String) : Prop :=
  (∃ c, g.expanded? source name = some c ∧ (declaredMember? c ref).isSome = true) ∨
    name = ClassName.object ∧ ref.kind ≠ .field ∧ objectMethods.contains (ref.name ++ ref.descriptor)

/-- From every JAR of the classpath a name stands for the same class, which is there. -/
structure Uniform (g : Graph) (source : Option JarRef) : Prop where
  resolves : ∀ position name, g.resolve (some (.listed position)) name = g.resolve source name
  provides : ∀ name provider, (g.resolve source name).provider? = some provider →
    (∃ position, provider = .listed position) ∧ (∃ c, g.classpath.classIn? provider name = some c) ∧
      name ∈ g.classpath.classNames

section

variable {g : Graph} {source : Option JarRef} {ref : MemberRef}

theorem search_source (uniform : Uniform g source) (position fuel : Nat) (owner : String)
    (visited : List String) :
    search g ref fuel (some (.listed position)) owner visited =
      search g ref fuel source owner visited := by
  cases fuel with
  | zero => rfl
  | succ fuel => rw [search, search, uniform.resolves]

theorem classOf?_eq_none (uniform : Uniform g source) {name : String} :
    g.classOf? source name = none ↔ (g.resolve source name).provider? = none := by
  rw [classOf?]
  cases provided : (g.resolve source name).provider? with
  | none => simp
  | some provider =>
    obtain ⟨_, ⟨c, shows⟩, _⟩ := uniform.provides name provider provided
    simp [shows]

/-- The search of a name, by what the name stands for. -/
theorem search_succ (uniform : Uniform g source) (fuel : Nat) (owner : String)
    (visited : List String) :
    search g ref (fuel + 1) source owner visited =
      if owner ∈ visited then (.missing, visited)
      else if owner = ClassName.object then
        (if ref.kind ≠ .field ∧ objectMethods.contains (ref.name ++ ref.descriptor) then .universal
          else .missing, owner :: visited)
      else match g.expanded? source owner with
        | none => (.unknown, owner :: visited)
        | some c => match declaredMember? c ref with
          | some member => (.declared c member, owner :: visited)
          | none => c.parents.foldl (visit (search g ref fuel source)) (.missing, owner :: visited) := by
  rw [search]
  by_cases known : owner ∈ visited
  · rw [if_pos known, if_pos (List.contains_iff_mem.mpr known)]
  rw [if_neg known, if_neg (mt List.contains_iff_mem.mp known)]
  by_cases root : owner = ClassName.object
  · simp only [if_pos root]
    split <;> rfl
  simp only [if_neg root, expanded?, classOf?]
  cases provided : (g.resolve source owner).provider? with
  | none => rfl
  | some provider =>
    obtain ⟨⟨position, rfl⟩, _⟩ := uniform.provides owner provider provided
    have enter : search g ref fuel (some (.listed position)) = search g ref fuel source := by
      funext parent visited
      exact search_source uniform position fuel parent visited
    simp only [Option.bind_some]
    cases (g.classpath.classIn? (.listed position) owner).filter fun c => !c.degraded with
    | none => rfl
    | some c =>
      cases declared : declaredMember? c ref with
      | some member => simp only [declared]
      | none => simp only [declared, enter]

theorem Hierarchy.trans {owner name name' : String} (reached : Hierarchy g source owner name)
    (reached' : Hierarchy g source name name') : Hierarchy g source owner name' := by
  induction reached' with
  | owner => exact reached
  | parent _ expands listed ih => exact .parent ih expands listed

theorem not_expanded_of_outside (name : String) (outside : Outside g source name) :
    g.expanded? source name = none := by
  rw [expanded?]
  split
  · rfl
  · rcases outside with platform | unresolved | ⟨c, shows, degraded⟩
    · rw [classOf?, platform]
      rfl
    · rw [classOf?, unresolved]
      rfl
    · simp [shows, degraded]

theorem outside_of_not_expanded (uniform : Uniform g source) {name : String}
    (other : name ≠ ClassName.object) (closed : g.expanded? source name = none) :
    Outside g source name := by
  rw [expanded?, if_neg other] at closed
  cases shows : g.classOf? source name with
  | none =>
    rw [classOf?_eq_none uniform] at shows
    cases stands : g.resolve source name with
    | platform => exact .inl stands
    | unresolved => exact .inr (.inl stands)
    | resolved provider =>
      rw [stands] at shows
      cases shows
    | ambiguous provider others =>
      rw [stands] at shows
      cases shows
  | some c =>
    rw [shows] at closed
    refine .inr (.inr ⟨c, shows, ?_⟩)
    simpa using closed

theorem mem_classNames_of_expanded (uniform : Uniform g source) {name : String} {c : JavaClass}
    (expands : g.expanded? source name = some c) : name ∈ g.classpath.classNames := by
  rw [expanded?] at expands
  split at expands
  · cases expands
  · have shows := (Option.filter_eq_some_iff.mp expands).1
    obtain ⟨provider, provided, _⟩ := Option.bind_eq_some_iff.mp shows
    exact (uniform.provides name provider provided).2.2

end

section

variable {jars : List Jar} {release : Int} {boundary : Option PlatformList}

/-- With one provider at most for each name, it does not matter which JAR refers to the name. -/
theorem resolveIn_listed
    (unique : ∀ name, ((Classpath.new jars release).providersOf name).length ≤ 1)
    (position : Nat) (name : String) :
    resolveIn (Classpath.new jars release) boundary (some (.listed position)) name =
      if boundary.any (·.containsClass name) then .platform
      else match (Classpath.new jars release).providersOf name with
        | [] => .unresolved
        | provider :: _ => .resolved (.listed provider) := by
  have single := unique name
  rw [resolveIn]
  split
  · rfl
  · cases shows : (Classpath.new jars release).classIn? (.listed position) name with
    | some c =>
      have member := Classpath.mem_providersOf.mpr ⟨c, shows⟩
      simp only [Option.filter, shows]
      match listed : (Classpath.new jars release).providersOf name with
      | [] =>
        rw [listed] at member
        cases member
      | [provider] =>
        rw [listed, List.mem_singleton] at member
        rw [member]
        rfl
      | _ :: _ :: _ =>
        rw [listed] at single
        simp at single
    | none =>
      simp only [Option.filter, shows]
      match listed : (Classpath.new jars release).providersOf name with
      | [] => rfl
      | [provider] => rfl
      | _ :: _ :: _ =>
        rw [listed] at single
        simp at single

theorem uniform_of_unique
    (unique : ∀ name, ((Classpath.new jars release).providersOf name).length ≤ 1)
    (position : Nat) :
    Uniform (build (Classpath.new jars release) boundary) (some (.listed position)) where
  resolves other name := by
    rw [resolve, resolve]
    exact (resolveIn_listed unique other name).trans (resolveIn_listed unique position name).symm
  provides name provider provided := by
    have resolved : (build (Classpath.new jars release) boundary).resolve (some (.listed position)) name =
        _ := resolveIn_listed unique position name
    rw [resolved] at provided
    split at provided
    · cases provided
    · split at provided
      · cases provided
      next first others listed =>
        cases provided
        have member : first ∈ (Classpath.new jars release).providersOf name := by
          rw [listed]
          exact List.mem_cons_self
        exact ⟨⟨first, rfl⟩, Classpath.mem_providersOf.mp member, Classpath.mem_classNames member⟩

end

end ClasspathAudit.Graph
