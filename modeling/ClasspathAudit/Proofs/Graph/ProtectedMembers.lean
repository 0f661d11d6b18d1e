import ClasspathAudit.Proofs.Graph.SupertypeSearch

/-!
Protected members that a class inherits. The search for a member looks each parent up from the JAR of
its child, the access rule all of them from the JAR of the class that refers to the member. Where both
see the same classes, an inherited member is never refused.
-/

namespace ClasspathAudit.Graph

section

variable {g : Graph} {source : Option JarRef} {root : String} {ref : MemberRef}
variable {owner : JavaClass} {member : Member}

theorem foldl_visit_declared {enter : String → List String → Finding × List String}
    {parents : List String} {start : Finding × List String} (settled : start.1.isFound = false)
    (found : (parents.foldl (visit enter) start).1 = .declared owner member) :
    ∃ parent ∈ parents, ∃ visited, (enter parent visited).1 = .declared owner member := by
  induction parents generalizing start with
  | nil =>
    rw [show start.1 = .declared owner member from found] at settled
    cases settled
  | cons parent parents ih =>
    rw [List.foldl_cons] at found
    cases entered : (visit enter start parent).1.isFound with
    | false =>
      obtain ⟨other, inside, visited, finds⟩ := ih entered found
      exact ⟨other, List.mem_cons_of_mem parent inside, visited, finds⟩
    | true =>
      rw [foldl_visit_found entered, visit, settled] at found
      refine ⟨parent, List.mem_cons_self, start.2, ?_⟩
      simp only [Bool.false_eq_true, if_false] at found
      split at found
      · exact found
      · rw [show start.1 = .declared owner member from found] at settled
        cases settled

/-- A declaration that a search comes upon belongs to a class of the hierarchy. -/
theorem search_declared (grounded : Grounded g) {fuel position : Nat} {name : String}
    {visited : List String}
    (placed : ∀ provider c, Stands g (some (.listed position)) name provider c →
      name ≠ ClassName.object → Ancestry g source root provider c)
    (found : (search g ref fuel (some (.listed position)) name visited).1 = .declared owner member) :
    ∃ provider, Ancestry g source root provider owner ∧ declaredMember? owner ref = some member := by
  -- on the fuel: the declaration is that of the class entered, or one above a parent of it
  induction fuel generalizing position name visited with
  | zero => cases found
  | succ fuel ih =>
    rw [search] at found
    split at found
    · cases found
    split at found
    · split at found <;> cases found
    next other =>
      split at found
      · cases found
      next provider provided =>
        obtain ⟨⟨place, rfl⟩, -, -⟩ := grounded position name provider provided
        split at found
        · cases found
        next c whole =>
          have stands : Stands g (some (.listed position)) name (.listed place) c :=
            ⟨provided, (Option.filter_eq_some_iff.mp whole).1⟩
          have reached := placed _ c stands other
          split at found
          next declared declares =>
            cases found
            exact ⟨_, reached, declares⟩
          next =>
            obtain ⟨parent, listed, visited', finds⟩ := foldl_visit_declared rfl found
            refine ih ?_ finds
            intro provider' d above below
            exact .parent reached listed below above

end

/-- Every class of a hierarchy sees its parents as the record does from which the hierarchy is seen. -/
def Concordant (g : Graph) (source : Option JarRef) (root : String) : Prop :=
  ∀ provider c, Ancestry g source root provider c →
    ∀ parent ∈ c.parents, parent ≠ ClassName.object →
      g.classOf? (some provider) parent = g.classOf? source parent

section

variable {g : Graph} {source : Option JarRef} {c owner : JavaClass} {member : Member}

theorem Stands.classOf? {name : String} {provider : JarRef}
    (stands : Stands g source name provider c) : g.classOf? source name = some c := by
  rw [Graph.classOf?, stands.provided]
  exact stands.shown

/-- In a concordant hierarchy the record sees every class above the one it refers from. -/
theorem Ancestry.above {provider : JarRef}
    (own : ∀ e, g.classOf? source c.name = some e → e = c)
    (concordant : Concordant g source c.name) (reached : Ancestry g source c.name provider owner) :
    Above g source c owner := by
  induction reached with
  | owner stands =>
    rw [own _ stands.classOf?]
    exact .self
  | parent reached listed other stands ih =>
    have seen := concordant _ _ reached _ listed other
    exact .parent ih listed (seen ▸ stands.classOf?)

/-- Who may use a member that is protected and no more. -/
theorem canAccessMember_protected_iff (isProtected : member.access.has .isProtected = true)
    (notPrivate : member.access.has .isPrivate = false) :
    g.canAccessMember source c owner member = true ↔
      member.access.has .isPublic = true ∨
        ClassName.topLevel c.name = ClassName.topLevel owner.name ∨ c.package = owner.package ∨
        g.isSubclass source c owner.name = true := by
  rw [canAccessMember, isProtected, notPrivate]
  simp only [Bool.false_eq_true, if_false, if_true]
  split
  next shared => simp [shared]
  next notPublic =>
    split
    next nested => simp [nested]
    next apart =>
      split
      next neighbours => simp [neighbours]
      next => simp_all

theorem lookup_declared {ref : MemberRef} (finds : g.find source ref = .declared owner member) :
    g.lookup source (some c) ref =
      if g.canAccessMember source c owner member then .found else .inaccessible := by
  rw [lookup, finds]
  rfl

end

/-- A protected member that a class inherits is found or refused to it. It is found where it is public as
well, where both classes are of one outermost class or of one package, and where the class, as its own JAR
sees it, descends from the one that declares the member. In a concordant hierarchy the last is the case. -/
theorem lookup_protected (jars : List Jar) (release : Int) (boundary : Option PlatformList)
    (position : Nat) (c : JavaClass) (ref : MemberRef) (owner : JavaClass) (member : Member)
    (shown : (Classpath.new jars release).classIn? (.listed position) c.name = some c)
    (own : ref.owner = c.name)
    (finds : (build (Classpath.new jars release) boundary).find (some (.listed position)) ref =
      .declared owner member)
    (isProtected : member.access.has .isProtected = true)
    (notPrivate : member.access.has .isPrivate = false) :
    let g := build (Classpath.new jars release) boundary
    let source : Option JarRef := some (.listed position)
    (g.lookup source (some c) ref = .found ∨ g.lookup source (some c) ref = .inaccessible) ∧
    (g.lookup source (some c) ref = .found ↔ member.access.has .isPublic = true ∨
      ClassName.topLevel c.name = ClassName.topLevel owner.name ∨ c.package = owner.package ∨
      Inherits g source c owner.name) ∧
    (Concordant g source c.name → g.lookup source (some c) ref = .found) := by
  intro g source
  have listed : c.name ∈ g.classpath.classNames :=
    Classpath.mem_classNames (Classpath.mem_providersOf.mpr ⟨c, shown⟩)
  have permitted : g.lookup source (some c) ref = .found ↔ member.access.has .isPublic = true ∨
      ClassName.topLevel c.name = ClassName.topLevel owner.name ∨ c.package = owner.package ∨
      Inherits g source c owner.name := by
    rw [← isSubclass_iff grounded_build listed (classOf?_own shown),
      ← canAccessMember_protected_iff isProtected notPrivate, lookup_declared finds]
    split <;> simp_all
  refine ⟨?_, permitted, fun concordant => permitted.mpr ?_⟩
  · rw [lookup_declared finds]
    split
    · exact .inl rfl
    · exact .inr rfl
  · obtain ⟨provider, reached, -⟩ := search_declared grounded_build
      (fun _ _ stands _ => Ancestry.owner stands) finds
    rw [own] at reached
    cases reached.above (classOf?_own shown) concordant with
    | self => exact .inr (.inl rfl)
    | parent above parent stands =>
      rw [(classOf?_listed grounded_build stands).1]
      exact .inr (.inr (.inr ⟨_, above, parent⟩))

/-- A class with a protected method. -/
def guardedRoot : JavaClass :=
  { bareClass "core.Root" ClassName.object [] with methods := [⟨"run", "()V", .isProtected⟩] }

/-- A protected method two classes up, and a second version of the class between that nobody sees. -/
def lineage : List (List JavaClass) :=
  [[bareClass "app.Main" "lib.Base" []], [bareClass "lib.Base" "core.Root" []], [guardedRoot],
    [bareClass "lib.Base" ClassName.object []]]

theorem new_lineage :
    Classpath.new (lineage.map bundle) baseRelease = showing (lineage.map bundle) lineage := by
  apply new_eq_showing
  simp only [lineage, List.map_cons, List.map_nil, effective_bundle_single]

theorem concordant_lineage :
    Concordant (build (showing (lineage.map bundle) lineage) none) (some (.listed 0)) "app.Main" := by
  have main : Stands (build (showing (lineage.map bundle) lineage) none) (some (.listed 0)) "app.Main"
      (.listed 0) (bareClass "app.Main" "lib.Base" []) :=
    ⟨provider?_of_index (by decide +kernel), by decide +kernel⟩
  have base : Stands (build (showing (lineage.map bundle) lineage) none) (some (.listed 0)) "lib.Base"
      (.listed 1) (bareClass "lib.Base" "core.Root" []) :=
    ⟨provider?_of_index (by decide +kernel), by decide +kernel⟩
  have top : Stands (build (showing (lineage.map bundle) lineage) none) (some (.listed 1)) "core.Root"
      (.listed 2) guardedRoot := ⟨provider?_of_index (by decide +kernel), by decide +kernel⟩
  have reached : ∀ provider c,
      Ancestry (build (showing (lineage.map bundle) lineage) none) (some (.listed 0)) "app.Main"
        provider c →
      provider = .listed 0 ∧ c = bareClass "app.Main" "lib.Base" [] ∨
        provider = .listed 1 ∧ c = bareClass "lib.Base" "core.Root" [] ∨ c = guardedRoot := by
    intro provider c reached
    induction reached with
    | owner stands => exact .inl (stands.unique main)
    | parent _ listed other stands ih =>
      rcases ih with ⟨rfl, rfl⟩ | ⟨rfl, rfl⟩ | rfl
      · obtain rfl : _ = "lib.Base" := by simpa [JavaClass.parents, bareClass] using listed
        exact .inr (.inl (stands.unique base))
      · obtain rfl : _ = "core.Root" := by simpa [JavaClass.parents, bareClass] using listed
        exact .inr (.inr (stands.unique top).2)
      · obtain rfl : _ = ClassName.object := by
          simpa [JavaClass.parents, guardedRoot, bareClass, ClassName.object] using listed
        exact absurd rfl other
  intro provider c seen parent listed other
  rcases reached provider c seen with ⟨rfl, rfl⟩ | ⟨rfl, rfl⟩ | rfl
  · rfl
  · obtain rfl : parent = "core.Root" := by simpa [JavaClass.parents, bareClass] using listed
    decide +kernel
  · obtain rfl : parent = ClassName.object := by
      simpa [JavaClass.parents, guardedRoot, bareClass, ClassName.object] using listed
    exact absurd rfl other

theorem lookup_protected_lineage :
    let g := build (Classpath.new (lineage.map bundle) baseRelease) none
    let c := bareClass "app.Main" "lib.Base" []
    let ref : MemberRef := ⟨.method, "app.Main", "run", "()V"⟩
    g.classpath.classIn? (.listed 0) c.name = some c ∧
      g.find (some (.listed 0)) ref = .declared guardedRoot ⟨"run", "()V", .isProtected⟩ ∧
      Concordant g (some (.listed 0)) c.name ∧ g.lookup (some (.listed 0)) (some c) ref = .found := by
  intro g c ref
  have shown : g.classpath.classIn? (.listed 0) c.name = some c := by
    simp only [g, build, new_lineage]
    decide +kernel
  have finds :
      g.find (some (.listed 0)) ref = .declared guardedRoot ⟨"run", "()V", .isProtected⟩ := by
    simp only [g, new_lineage]
    decide +kernel
  have concordant : Concordant g (some (.listed 0)) c.name := by
    simp only [g, new_lineage]
    exact concordant_lineage
  have answers := lookup_protected (lineage.map bundle) baseRelease none 0 c ref guardedRoot
    ⟨"run", "()V", .isProtected⟩ shown rfl finds (by decide) (by decide)
  exact ⟨shown, finds, concordant, answers.2.2 concordant⟩

/-- A class whose JAR has a version of its own of a class further up: there it has another parent than in
the version that the hierarchy is made of. -/
def disagreement : List (List JavaClass) :=
  [[bareClass "app.Main" "lib.Base" [], bareClass "lib.Unit" ClassName.object []],
    [bareClass "lib.Base" "lib.Unit" [], bareClass "lib.Unit" "core.Root" []], [guardedRoot]]

theorem new_disagreement : Classpath.new (disagreement.map bundle) baseRelease =
    showing (disagreement.map bundle) disagreement := by
  apply new_eq_showing
  simp only [disagreement, List.map_cons, List.map_nil, effective_bundle_single]
  rw [effective_bundle_pair (by decide +kernel), effective_bundle_pair (by decide +kernel)]

/-- A class is refused a protected member that it inherits. -/
theorem inherited_protected_refused :
    ¬ ∀ (jars : List Jar) (release : Int) (boundary : Option PlatformList) (position : Nat)
      (c : JavaClass) (ref : MemberRef) (owner : JavaClass) (member : Member),
      let g := build (Classpath.new jars release) boundary
      g.classpath.classIn? (.listed position) c.name = some c → ref.owner = c.name →
        g.find (some (.listed position)) ref = .declared owner member →
        member.access.has .isProtected = true → member.access.has .isPrivate = false →
        g.lookup (some (.listed position)) (some c) ref = .found := by
  intro claimed
  have refuted := claimed (disagreement.map bundle) baseRelease none 0
    (bareClass "app.Main" "lib.Base" []) ⟨.method, "app.Main", "run", "()V"⟩ guardedRoot
    ⟨"run", "()V", .isProtected⟩
  simp only [build, new_disagreement] at refuted
  exact absurd (refuted (by decide +kernel) rfl (by decide +kernel) (by decide) (by decide))
    (by decide +kernel)

end ClasspathAudit.Graph
