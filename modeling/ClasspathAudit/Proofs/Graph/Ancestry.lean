import ClasspathAudit.Proofs.Graph.MemberSearch

/-!
The classes above an owner, each with the JAR that provides it. Where several JARs provide a name, the
name can stand for several classes of one hierarchy, but the search enters it once. What the search
reports as missing is missing if the hierarchy has one class at most of each name, and may be declared
otherwise.
-/

namespace ClasspathAudit.Graph

/-- For a record, a name stands for the class that a JAR provides. -/
structure Stands (g : Graph) (source : Option JarRef) (name : String) (provider : JarRef)
    (c : JavaClass) : Prop where
  provided : (g.resolve source name).provider? = some provider
  shown : g.classpath.classIn? provider name = some c

/-- The classes that are reached from an owner through superclasses and interfaces. A parent is looked
up from the JAR that provides its child; the root of all classes is no parent. -/
inductive Ancestry (g : Graph) (source : Option JarRef) (owner : String) :
    JarRef → JavaClass → Prop where
  | owner {provider : JarRef} {c : JavaClass} (stands : Stands g source owner provider c) :
      Ancestry g source owner provider c
  | parent {child provider : JarRef} {c d : JavaClass} {parent : String}
      (reached : Ancestry g source owner child c) (listed : parent ∈ c.parents)
      (other : parent ≠ ClassName.object) (stands : Stands g (some child) parent provider d) :
      Ancestry g source owner provider d

/-- The classes of one name that belong to the hierarchy all come from one JAR. -/
def Coherent (g : Graph) (source : Option JarRef) (owner : String) : Prop :=
  ∀ provider provider' c c', Ancestry g source owner provider c →
    Ancestry g source owner provider' c' → c.name = c'.name → provider = provider'

/-- What a JAR on the classpath refers to is provided by a JAR on the classpath. -/
def Grounded (g : Graph) : Prop :=
  ∀ position name provider, (g.resolve (some (.listed position)) name).provider? = some provider →
    (∃ position', provider = .listed position') ∧
      (∃ c, g.classpath.classIn? provider name = some c) ∧ name ∈ g.classpath.classNames

section

variable {jars : List Jar} {release : Int} {boundary : Option PlatformList}

theorem grounded_build : Grounded (build (Classpath.new jars release) boundary) := by
  intro position name provider provided
  have listed : ∃ position', provider = .listed position' ∧
      position' ∈ (Classpath.new jars release).providersOf name := by
    change (resolveIn (Classpath.new jars release) boundary (some (.listed position)) name).provider? =
      some provider at provided
    generalize resolution : resolveIn _ _ _ _ = outcome at provided
    rw [resolveIn] at resolution
    split at resolution
    · subst resolution
      cases provided
    split at resolution
    next own shows =>
      subst resolution
      cases provided
      obtain ⟨same, shown⟩ := Option.filter_eq_some_iff.mp shows
      cases same
      exact ⟨position, rfl, Classpath.mem_providersOf.mpr (Option.isSome_iff_exists.mp shown)⟩
    next =>
      split at resolution
      · subst resolution
        cases provided
      next first only =>
        subst resolution
        cases provided
        exact ⟨first, rfl, by simp [only]⟩
      next first others _ several =>
        subst resolution
        cases provided
        exact ⟨first, rfl, by simp [several]⟩
  obtain ⟨position', rfl, member⟩ := listed
  exact ⟨⟨position', rfl⟩, Classpath.mem_providersOf.mp member, Classpath.mem_classNames member⟩

end

section

variable {g : Graph} {source : Option JarRef} {root : String} {ref : MemberRef}

theorem Stands.name {name : String} {position : Nat} {c : JavaClass}
    (stands : Stands g source name (.listed position) c) : c.name = name := by
  have shown := stands.shown
  rw [Classpath.classIn?, Classpath.classAt?, if_pos rfl] at shown
  simpa using List.find?_some shown

theorem Stands.listed (grounded : Grounded g) {position : Nat} {name : String} {provider : JarRef}
    {c : JavaClass} (stands : Stands g (some (.listed position)) name provider c) :
    ∃ place, provider = .listed place ∧ c.name = name := by
  obtain ⟨⟨place, rfl⟩, _⟩ := grounded position name provider stands.provided
  exact ⟨place, rfl, stands.name⟩

/-- A class that a search is done with: all its parents are known by name. -/
structure Settled (ref : MemberRef) (known : List String) (c : JavaClass) : Prop where
  whole : c.degraded = false
  undeclared : declaredMember? c ref = none
  followed : c.parents ⊆ known

theorem Settled.mono {known known' : List String} {c : JavaClass} (settled : Settled ref known c)
    (grown : known ⊆ known') : Settled ref known' c :=
  ⟨settled.whole, settled.undeclared, List.Subset.trans settled.followed grown⟩

/-- What a search that missed the member has added to the visited names: each new one but the root of
all classes names a class of the hierarchy that the search is done with. -/
structure Cleared (g : Graph) (source : Option JarRef) (root : String) (ref : MemberRef)
    (targets before after : List String) : Prop where
  grows : before ⊆ after
  covers : targets ⊆ after
  settled : ∀ name ∈ after, name ∉ before → name ≠ ClassName.object →
    ∃ provider c, Ancestry g source root provider c ∧ c.name = name ∧ Settled ref after c

theorem Cleared.still {targets visited : List String} (known : targets ⊆ visited) :
    Cleared g source root ref targets visited visited :=
  ⟨List.Subset.refl _, known, fun _ member fresh => absurd member fresh⟩

theorem Cleared.append {targets targets' before middle after : List String}
    (first : Cleared g source root ref targets before middle)
    (second : Cleared g source root ref targets' middle after) :
    Cleared g source root ref (targets ++ targets') before after where
  grows := List.Subset.trans first.grows second.grows
  covers := List.append_subset.mpr
    ⟨List.Subset.trans first.covers second.grows, second.covers⟩
  settled name member fresh other := by
    by_cases early : name ∈ middle
    · obtain ⟨provider, c, reached, named, settled⟩ := first.settled name early fresh other
      exact ⟨provider, c, reached, named, settled.mono second.grows⟩
    · exact second.settled name member early other

theorem visit_missing {enter : String → List String → Finding × List String}
    {start : Finding × List String} {parent : String}
    (missing : (visit enter start parent).1 = .missing) :
    start.1 = .missing ∧ (enter parent start.2).1 = .missing ∧
      (visit enter start parent).2 = (enter parent start.2).2 := by
  rw [visit] at missing ⊢
  split at missing
  next found => simp [missing, Finding.isFound] at found
  next =>
    simp only at missing ⊢
    split at missing
    next seen => simp [missing, Finding.isFound] at seen
    next open' unseen =>
      have entered : (enter parent start.2).1 = .missing := by
        cases finding : (enter parent start.2).1 <;> simp_all [Finding.isFound]
      exact ⟨missing, entered, by simp [open', unseen]⟩

theorem foldl_visit_missing {enter : String → List String → Finding × List String}
    {parents : List String} {start : Finding × List String}
    (missing : (parents.foldl (visit enter) start).1 = .missing) : start.1 = .missing := by
  induction parents generalizing start with
  | nil => exact missing
  | cons parent parents ih => exact (visit_missing (ih missing)).1

/-- The loop over the parents misses the member only if the search of each parent does. -/
theorem foldl_visit_cleared {enter : String → List String → Finding × List String}
    {parents : List String} {start : Finding × List String}
    (entering : ∀ parent ∈ parents, ∀ visited, start.2 ⊆ visited →
      (enter parent visited).1 = .missing →
        Cleared g source root ref [parent] visited (enter parent visited).2)
    (missing : (parents.foldl (visit enter) start).1 = .missing) :
    Cleared g source root ref parents start.2 (parents.foldl (visit enter) start).2 := by
  induction parents generalizing start with
  | nil => exact Cleared.still (List.nil_subset _)
  | cons parent parents ih =>
    rw [List.foldl_cons] at missing ⊢
    obtain ⟨_, entered, visited⟩ := visit_missing (foldl_visit_missing missing)
    have first := entering parent List.mem_cons_self start.2 (List.Subset.refl _) entered
    rw [← visited] at first
    refine first.append (ih ?_ missing)
    intro later inside visited grown
    exact entering later (List.mem_cons_of_mem parent inside) visited
      (List.Subset.trans first.grows grown)

/-- How a search misses the member: the name was entered before, it is the root of all classes, or its
class was seen in full and does not declare the member, and the search went on to its parents. -/
theorem search_missing (grounded : Grounded g) {fuel position : Nat} {owner : String}
    {visited : List String}
    (missing : (search g ref (fuel + 1) (some (.listed position)) owner visited).1 = .missing) :
    (owner ∈ visited ∧ (search g ref (fuel + 1) (some (.listed position)) owner visited).2 = visited) ∨
    (owner = ClassName.object ∧
      (search g ref (fuel + 1) (some (.listed position)) owner visited).2 = owner :: visited) ∨
    (owner ∉ visited ∧ owner ≠ ClassName.object ∧ ∃ provider c,
      Stands g (some (.listed position)) owner (.listed provider) c ∧ c.degraded = false ∧
      declaredMember? c ref = none ∧
      search g ref (fuel + 1) (some (.listed position)) owner visited =
        c.parents.foldl (visit (search g ref fuel (some (.listed provider))))
          (.missing, owner :: visited)) := by
  rw [search] at missing ⊢
  by_cases known : owner ∈ visited
  · rw [if_pos (List.contains_iff_mem.mpr known)]
    exact .inl ⟨known, rfl⟩
  rw [if_neg (mt List.contains_iff_mem.mp known)] at missing ⊢
  by_cases top : owner = ClassName.object
  · rw [if_pos top]
    refine .inr (.inl ⟨top, ?_⟩)
    split <;> rfl
  simp only [if_neg top] at missing ⊢
  refine .inr (.inr ⟨known, top, ?_⟩)
  cases provided : (g.resolve (some (.listed position)) owner).provider? with
  | none => simp [provided] at missing
  | some provider =>
    obtain ⟨⟨place, rfl⟩, ⟨c, shown⟩, _⟩ := grounded position owner provider provided
    by_cases degraded : c.degraded = true
    · simp [provided, shown, Option.filter, degraded] at missing
    have whole : c.degraded = false := by simpa using degraded
    cases declares : declaredMember? c ref with
    | some member => simp [provided, shown, Option.filter, whole, declares] at missing
    | none =>
      exact ⟨place, c, ⟨provided, shown⟩, whole, declares,
        by simp [shown, Option.filter, whole, declares]⟩

/-- With fuel for the names not yet visited, a search that misses the member is done with all names
that it has visited. -/
theorem search_cleared (grounded : Grounded g) (fuel position : Nat) (owner : String)
    (visited : List String) (enough : g.unvisited visited < fuel)
    (placed : ∀ provider c, Stands g (some (.listed position)) owner provider c →
      owner ≠ ClassName.object → Ancestry g source root provider c)
    (missing : (search g ref fuel (some (.listed position)) owner visited).1 = .missing) :
    Cleared g source root ref [owner] visited
      (search g ref fuel (some (.listed position)) owner visited).2 := by
  -- on the fuel: a name that is entered is one of the names not yet visited, and then no longer
  induction fuel generalizing position owner visited with
  | zero => omega
  | succ fuel ih =>
    rcases search_missing grounded missing with ⟨known, same⟩ | ⟨top, added⟩ |
      ⟨fresh, other, provider, c, stands, whole, undeclared, continued⟩
    · rw [same]
      exact Cleared.still (by simpa using known)
    · rw [added]
      refine ⟨List.subset_cons_self _ _, by simp, ?_⟩
      intro name member unseen below
      exact absurd ((List.mem_cons.mp member).resolve_right unseen ▸ top) below
    · have reached := placed _ c stands other
      have listed := (grounded position owner _ stands.provided).2.2
      have fewer := unvisited_cons_lt listed fresh
      rw [continued] at missing ⊢
      have rest : Cleared g source root ref c.parents (owner :: visited)
          (c.parents.foldl (visit (search g ref fuel (some (.listed provider))))
            (.missing, owner :: visited)).2 := by
        refine foldl_visit_cleared ?_ missing
        intro parent inside visited' grown missed
        have fewer' : g.unvisited visited' ≤ g.unvisited (owner :: visited) := unvisited_le grown
        refine ih provider parent visited' (by omega) ?_ missed
        intro provider' d above below
        exact .parent reached inside below above
      refine ⟨List.Subset.trans (List.subset_cons_self _ _) rest.grows,
        by simpa using rest.grows List.mem_cons_self, ?_⟩
      intro name member unseen below
      by_cases same : name = owner
      · exact ⟨_, c, reached, stands.name.trans same.symm, whole, undeclared, rest.covers⟩
      · exact rest.settled name member (by simp [same, unseen]) below

theorem Stands.unique {name : String} {provider provider' : JarRef} {c c' : JavaClass}
    (stands : Stands g source name provider c) (stands' : Stands g source name provider' c') :
    provider = provider' ∧ c = c' := by
  have same : provider = provider' := by simpa [stands.provided] using stands'.provided
  subst same
  exact ⟨rfl, by simpa [stands.shown] using stands'.shown⟩

/-- A class of the hierarchy is the one that a JAR on the classpath shows under its name. -/
theorem Ancestry.shown (grounded : Grounded g) {position : Nat} {provider : JarRef} {c : JavaClass}
    (reached : Ancestry g (some (.listed position)) root provider c) :
    ∃ place, provider = .listed place ∧ g.classpath.classIn? (.listed place) c.name = some c := by
  induction reached with
  | owner stands =>
    obtain ⟨place, rfl, named⟩ := stands.listed grounded
    exact ⟨place, rfl, named ▸ stands.shown⟩
  | parent _ _ _ stands ih =>
    obtain ⟨child, rfl, _⟩ := ih
    obtain ⟨place, rfl, named⟩ := stands.listed grounded
    exact ⟨place, rfl, named ▸ stands.shown⟩

/-- In a coherent hierarchy, a search that is done with the names it visited is done with every
class. -/
theorem Cleared.ancestry (grounded : Grounded g) {position : Nat} {after : List String}
    (coherent : Coherent g (some (.listed position)) root) (below : root ≠ ClassName.object)
    (cleared : Cleared g (some (.listed position)) root ref [root] [] after) {provider : JarRef}
    {c : JavaClass} (reached : Ancestry g (some (.listed position)) root provider c) :
    Settled ref after c := by
  -- the class that the search met under the name is this one, as no other JAR has one here
  have met : ∀ {provider c}, Ancestry g (some (.listed position)) root provider c →
      c.name ∈ after → c.name ≠ ClassName.object → Settled ref after c := by
    intro provider c reached visited other
    obtain ⟨provider', c', reached', same, settled⟩ :=
      cleared.settled c.name visited List.not_mem_nil other
    obtain ⟨place, rfl, shown⟩ := reached.shown grounded
    obtain ⟨place', rfl, shown'⟩ := reached'.shown grounded
    cases coherent _ _ _ _ reached reached' same.symm
    rw [same, shown] at shown'
    cases shown'
    exact settled
  induction reached with
  | owner stands =>
    obtain ⟨_, _, named⟩ := stands.listed grounded
    apply met (.owner stands)
    · rw [named]
      exact cleared.covers (List.mem_singleton_self root)
    · rw [named]
      exact below
  | parent reached listed other stands ih =>
    obtain ⟨_, rfl, _⟩ := reached.shown grounded
    obtain ⟨_, _, named⟩ := stands.listed grounded
    apply met (.parent reached listed other stands)
    · rw [named]
      exact ih.followed listed
    · rw [named]
      exact other

theorem find_of_lookup_missing (missing : g.lookup source none ref = .missing) :
    g.find source ref = .missing := by
  rw [lookup] at missing
  cases finding : g.find source ref <;> simp [finding] at missing
  rfl

end

/-- If the hierarchy of an owner has one class at most of each name, a member that is reported missing
is declared by none of its classes, and all of them were seen in full. The members of the root of all
classes are known without a search. -/
theorem lookup_missing_sound (jars : List Jar) (release : Int) (boundary : Option PlatformList)
    (position : Nat) (ref : MemberRef) (below : ref.owner ≠ ClassName.object)
    (coherent : Coherent (build (Classpath.new jars release) boundary) (some (.listed position))
      ref.owner)
    (missing : (build (Classpath.new jars release) boundary).lookup (some (.listed position)) none
      ref = .missing)
    (provider : JarRef) (c : JavaClass)
    (reached : Ancestry (build (Classpath.new jars release) boundary) (some (.listed position))
      ref.owner provider c) :
    declaredMember? c ref = none ∧ c.degraded = false := by
  have cleared := search_cleared grounded_build _ position ref.owner [] unvisited_lt_searchBound
    (fun _ _ stands _ => Ancestry.owner stands) (find_of_lookup_missing missing)
  have settled := cleared.ancestry grounded_build coherent below reached
  exact ⟨settled.undeclared, settled.whole⟩

theorem provider?_of_index {resolution : Resolution} {position : Nat}
    (found : resolution.providerIndex? = some position) :
    resolution.provider? = some (.listed position) := by
  rw [Resolution.providerIndex?] at found
  split at found
  next index provided =>
    rw [provided, Option.some.inj found]
  next => cases found

/-- A classpath by what its JARs show. -/
def showing (jars : List Jar) (effective : List (List JavaClass)) : Classpath where
  jars := jars
  release := baseRelease
  effective := effective.toArray
  providers := Classpath.indexBy JavaClass.name effective
  packageHolders := Classpath.indexBy JavaClass.package effective
  modules := jars.zipIdx.foldl (fun index (jar, position) =>
    if jar.moduleName.isEmpty then index else index.insertIfNew jar.moduleName position) {}

/-- A JAR with classes in its base layer only. -/
def bundle (classes : List JavaClass) : Jar :=
  { origin := "bundle.jar", layers := [{ release := baseRelease, classes }] }

theorem effective_bundle_pair {a b : JavaClass} (ascending : a.name < b.name) :
    (bundle [a, b]).effective baseRelease = [a, b] := by
  have below : ¬ b.name ≤ a.name := String.not_le.mpr ascending
  have distinct : a.name ≠ b.name := by
    intro same
    simp [same] at ascending
  simp [bundle, Jar.effective, Jar.layersUpTo, Layer.add, List.mergeSort, below, distinct]

theorem effective_bundle_single (a : JavaClass) : (bundle [a]).effective baseRelease = [a] := by
  simp [bundle, Jar.effective, Jar.layersUpTo, Layer.add]

theorem new_eq_showing {jars : List Jar} {effective : List (List JavaClass)}
    (shown : jars.map (·.effective baseRelease) = effective) :
    Classpath.new jars baseRelease = showing jars effective := by
  subst shown
  rfl

/-- An interface in the version that declares a method. -/
def runnableUnit : JavaClass :=
  { bareClass "lib.Unit" ClassName.object [] with methods := [⟨"run", "()V", ⟨0x401⟩⟩] }

/-- An interface in two versions, of which the hierarchy has the first only. -/
def shaded : List (List JavaClass) :=
  [[bareClass "app.Main" "lib.Base" []],
    [bareClass "lib.Base" ClassName.object ["lib.Unit"], bareClass "lib.Unit" ClassName.object []],
    [runnableUnit]]

theorem new_shaded :
    Classpath.new (shaded.map bundle) baseRelease = showing (shaded.map bundle) shaded := by
  apply new_eq_showing
  simp only [shaded, List.map_cons, List.map_nil, effective_bundle_single]
  rw [effective_bundle_pair (by decide +kernel)]

theorem ancestry_shaded {provider : JarRef} {c : JavaClass}
    (reached : Ancestry (build (showing (shaded.map bundle) shaded) none) (some (.listed 0))
      "app.Main" provider c) :
    (provider = .listed 0 ∧ c = bareClass "app.Main" "lib.Base" []) ∨
      (provider = .listed 1 ∧ c = bareClass "lib.Base" ClassName.object ["lib.Unit"]) ∨
      (provider = .listed 1 ∧ c = bareClass "lib.Unit" ClassName.object []) := by
  have main : Stands (build (showing (shaded.map bundle) shaded) none) (some (.listed 0)) "app.Main"
      (.listed 0) (bareClass "app.Main" "lib.Base" []) :=
    ⟨provider?_of_index (by decide +kernel), by decide +kernel⟩
  have base : Stands (build (showing (shaded.map bundle) shaded) none) (some (.listed 0)) "lib.Base"
      (.listed 1) (bareClass "lib.Base" ClassName.object ["lib.Unit"]) :=
    ⟨provider?_of_index (by decide +kernel), by decide +kernel⟩
  have unit : Stands (build (showing (shaded.map bundle) shaded) none) (some (.listed 1)) "lib.Unit"
      (.listed 1) (bareClass "lib.Unit" ClassName.object []) :=
    ⟨provider?_of_index (by decide +kernel), by decide +kernel⟩
  induction reached with
  | owner stands => exact .inl (stands.unique main)
  | parent _ listed other stands ih =>
    rcases ih with ⟨rfl, rfl⟩ | ⟨rfl, rfl⟩ | ⟨rfl, rfl⟩
    · obtain rfl : _ = "lib.Base" := by simpa [JavaClass.parents, bareClass] using listed
      exact .inr (.inl (stands.unique base))
    · obtain rfl | rfl : _ = ClassName.object ∨ _ = "lib.Unit" := by
        simpa [JavaClass.parents, bareClass, ClassName.object] using listed
      · exact absurd rfl other
      · exact .inr (.inr (stands.unique unit))
    · obtain rfl : _ = ClassName.object := by
        simpa [JavaClass.parents, bareClass, ClassName.object] using listed
      exact absurd rfl other

theorem lookup_missing_shaded :
    let g := build (Classpath.new (shaded.map bundle) baseRelease) none
    let ref : MemberRef := ⟨.method, "app.Main", "run", "()V"⟩
    Coherent g (some (.listed 0)) ref.owner ∧ g.lookup (some (.listed 0)) none ref = .missing ∧
      ∀ provider c, Ancestry g (some (.listed 0)) ref.owner provider c →
        declaredMember? c ref = none ∧ c.degraded = false := by
  intro g ref
  have coherent : Coherent g (some (.listed 0)) ref.owner := by
    intro provider provider' c c' reached reached' same
    simp only [g, ref, new_shaded] at reached reached'
    rcases ancestry_shaded reached with ⟨rfl, rfl⟩ | ⟨rfl, rfl⟩ | ⟨rfl, rfl⟩ <;>
      rcases ancestry_shaded reached' with ⟨rfl, rfl⟩ | ⟨rfl, rfl⟩ | ⟨rfl, rfl⟩ <;>
      simp [bareClass] at same ⊢
  have missing : g.lookup (some (.listed 0)) none ref = .missing := by
    simp only [g, ref, new_shaded]
    decide +kernel
  exact ⟨coherent, missing,
    lookup_missing_sound (shaded.map bundle) baseRelease none 0 ref (by decide) coherent missing⟩

/-- A class inherits an interface on two ways that end in JARs with a version of it each; only the
second version declares the method. -/
def rivals : List (List JavaClass) :=
  [[bareClass "app.Main" "lib.Base" ["lib.Task"]],
    [bareClass "lib.Base" ClassName.object ["lib.Unit"], bareClass "lib.Unit" ClassName.object []],
    [bareClass "lib.Task" ClassName.object ["lib.Unit"], runnableUnit]]

theorem new_rivals :
    Classpath.new (rivals.map bundle) baseRelease = showing (rivals.map bundle) rivals := by
  apply new_eq_showing
  simp only [rivals, List.map_cons, List.map_nil, effective_bundle_single]
  rw [effective_bundle_pair (by decide +kernel), effective_bundle_pair (by decide +kernel)]

/-- A declaration in the second of two classes of one name is reported missing. -/
theorem lookup_misses_second_version :
    ¬ ∀ (jars : List Jar) (release : Int) (boundary : Option PlatformList) (position : Nat)
      (ref : MemberRef),
      let g := build (Classpath.new jars release) boundary
      g.lookup (some (.listed position)) none ref = .missing →
        ∀ provider c, Ancestry g (some (.listed position)) ref.owner provider c →
          declaredMember? c ref = none := by
  intro claimed
  have refuted := claimed (rivals.map bundle) baseRelease none 0 ⟨.method, "app.Main", "run", "()V"⟩
  simp only [new_rivals] at refuted
  have main : Stands (build (showing (rivals.map bundle) rivals) none) (some (.listed 0)) "app.Main"
      (.listed 0) (bareClass "app.Main" "lib.Base" ["lib.Task"]) :=
    ⟨provider?_of_index (by decide +kernel), by decide +kernel⟩
  have task : Stands (build (showing (rivals.map bundle) rivals) none) (some (.listed 0)) "lib.Task"
      (.listed 2) (bareClass "lib.Task" ClassName.object ["lib.Unit"]) :=
    ⟨provider?_of_index (by decide +kernel), by decide +kernel⟩
  have unit : Stands (build (showing (rivals.map bundle) rivals) none) (some (.listed 2)) "lib.Unit"
      (.listed 2) runnableUnit := ⟨provider?_of_index (by decide +kernel), by decide +kernel⟩
  have reached := Ancestry.parent (.parent (.owner main) (by decide) (by decide) task) (by decide)
    (by decide) unit
  have undeclared := refuted (by decide +kernel) _ _ reached
  have declares : declaredMember? runnableUnit ⟨.method, "app.Main", "run", "()V"⟩ ≠ none := by
    decide +kernel
  exact declares undeclared

end ClasspathAudit.Graph
