import ClasspathAudit.Proofs.Graph.Exploration

/-!
What a member lookup answers. The search enters each name once and stops at the first declaration; it
still tells for the whole hierarchy whether a class declares the member, and else whether some part of
the hierarchy could not be seen.
-/

namespace ClasspathAudit.Graph

section

variable {g : Graph} {source : Option JarRef} {ref : MemberRef}

theorem unvisited_lt_searchBound : g.unvisited [] < g.searchBound source := by
  have names : g.unvisited [] ≤ g.classpath.classNames.length := by
    rw [unvisited, List.toFinset_nil, Finset.sdiff_empty]
    exact List.toFinset_card_le _
  unfold searchBound Classpath.classCount
  omega

/-- Some name of the hierarchy answers for the member. -/
def Declared (g : Graph) (source : Option JarRef) (ref : MemberRef) : Prop :=
  ∃ name, Hierarchy g source ref.owner name ∧ Answers g source ref name

/-- Some name of the hierarchy is not seen. The root of all classes is known without being seen. -/
def Obscured (g : Graph) (source : Option JarRef) (ref : MemberRef) : Prop :=
  ∃ name, Hierarchy g source ref.owner name ∧ name ≠ ClassName.object ∧ Outside g source name

theorem Explored.hierarchy {result : Finding × List String}
    (explored : Explored g source ref [ref.owner] (.missing, []) result) {name : String} :
    name ∈ result.2 ↔ Hierarchy g source ref.owner name := by
  constructor
  · intro member
    obtain ⟨_, single, path⟩ := explored.reached name member List.not_mem_nil
    rw [List.mem_singleton.mp single] at path
    exact path
  · intro path
    induction path with
    | owner => exact explored.covers (List.mem_singleton_self _)
    | parent _ expands listed ih => exact explored.closed _ ih List.not_mem_nil _ expands listed

/-- What a search with enough fuel comes to, by the hierarchy as a whole. -/
theorem find_cases (ref : MemberRef) (uniform : Uniform g source) :
    ((g.find source ref).isFound = true ∧ Declared g source ref) ∨
      ((g.find source ref).isFound = false ∧ ¬ Declared g source ref ∧
        (g.find source ref = .unknown ↔ Obscured g source ref)) := by
  rcases search_outcome ref uniform (g.searchBound source) ref.owner [] unvisited_lt_searchBound with
      ⟨found, target, single, name, path, answers⟩ | explored
  · rw [List.mem_singleton.mp single] at path
    exact .inl ⟨found, name, path, answers⟩
  · refine .inr ⟨explored.settled, ?_, ?_⟩
    · rintro ⟨name, path, answers⟩
      exact explored.silent name (explored.hierarchy.mpr path) List.not_mem_nil answers
    · rw [find, explored.unseen]
      constructor
      · rintro (before | ⟨name, member, _, hidden⟩)
        · cases before
        · exact ⟨name, explored.hierarchy.mp member, hidden⟩
      · rintro ⟨name, path, hidden⟩
        exact .inr ⟨name, explored.hierarchy.mpr path, List.not_mem_nil, hidden⟩

/-- The answer to a lookup, by the hierarchy as a whole. -/
theorem lookup_cases (ref : MemberRef) (uniform : Uniform g source) :
    (g.lookup source none ref = .found ∧ Declared g source ref) ∨
      (g.lookup source none ref = .unknown ∧ ¬ Declared g source ref ∧ Obscured g source ref) ∨
      (g.lookup source none ref = .missing ∧ ¬ Declared g source ref ∧ ¬ Obscured g source ref) := by
  rw [lookup]
  rcases find_cases ref uniform with ⟨found, declared⟩ | ⟨settled, undeclared, unseen⟩
  · cases finding : g.find source ref with
    | declared owner member => exact .inl ⟨rfl, declared⟩
    | universal => exact .inl ⟨rfl, declared⟩
    | unknown =>
      rw [finding] at found
      cases found
    | missing =>
      rw [finding] at found
      cases found
  · cases finding : g.find source ref with
    | declared owner member =>
      rw [finding] at settled
      cases settled
    | universal =>
      rw [finding] at settled
      cases settled
    | unknown => exact .inr (.inl ⟨rfl, undeclared, unseen.mp finding⟩)
    | missing =>
      refine .inr (.inr ⟨rfl, undeclared, fun obscured => ?_⟩)
      rw [unseen.mpr obscured] at finding
      cases finding

end

/-- A class of the given name and supertypes without members. -/
def bareClass (name superName : String) (interfaces : List String) : JavaClass where
  name
  major := 52
  minor := 0
  access := ⟨0x21⟩
  superName
  interfaces
  methods := []
  fields := []
  annotations := []
  references := []
  memberRefs := []
  hash := 0
  size := 0
  degraded := false

/-- JARs of one class each. -/
def singles (classes : List JavaClass) : List Jar :=
  classes.map fun c => { origin := c.name ++ ".jar", layers := [{ release := 8, classes := [c] }] }

/-- Two classes that descend from each other, and two interfaces that meet above them; the second
one has a parent that no JAR provides. -/
def loop : List Jar :=
  singles [bareClass "app.Sub" "app.Base" ["app.Left", "app.Right"],
    bareClass "app.Base" "app.Sub" [],
    bareClass "app.Left" ClassName.object ["app.Top"],
    bareClass "app.Right" "" ["app.Top", "gone.Away"],
    bareClass "app.Top" "" []]

/-- A class right below the root of all classes, on a classpath without a platform. -/
def lone : List Jar := singles [bareClass "app.Main" ClassName.object []]

end ClasspathAudit.Graph
