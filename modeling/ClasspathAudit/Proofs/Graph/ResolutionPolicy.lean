import ClasspathAudit.Proofs.Classpath.Indices
import ClasspathAudit.Proofs.Graph.Merging

/-!
What the edges of a graph say. Every reference of every class has an edge, and each edge is told by the
JARs alone: the platform comes first, then the JAR that refers, then the first JAR that has the class.
-/

namespace ClasspathAudit.Graph

/-- The JARs that show a class of a name, by position. -/
def providing (jars : List Jar) (release : Int) (name : String) : List Nat :=
  positions (fun jar => (jar.effectiveClass? name release).isSome) jars

/-- A resolution is the one that the policy prescribes when the JAR at a position refers to a name. -/
structure ByPolicy (jars : List Jar) (release : Int) (boundary : Option PlatformList) (source : Nat)
    (name : String) (resolution : Resolution) : Prop where
  platform : resolution = .platform ↔ boundary.any (·.containsClass name) = true
  own : resolution = .resolved (.listed source) ↔
    boundary.any (·.containsClass name) = false ∧ source ∈ providing jars release name
  unresolved : resolution = .unresolved ↔
    boundary.any (·.containsClass name) = false ∧ providing jars release name = []
  only : ∀ provider, provider ≠ source → (resolution = .resolved (.listed provider) ↔
    boundary.any (·.containsClass name) = false ∧ source ∉ providing jars release name ∧
      providing jars release name = [provider])
  first : ∀ provider others, resolution = .ambiguous provider others ↔
    boundary.any (·.containsClass name) = false ∧ source ∉ providing jars release name ∧
      providing jars release name = provider :: others ∧ others ≠ []

/-- The resolution of a name from what decides it: whether the platform has it, and who provides it. -/
def prescribed (inside : Bool) (source : Nat) (providers : List Nat) : Resolution :=
  if inside then .platform
  else if source ∈ providers then .resolved (.listed source)
  else match providers with
    | [] => .unresolved
    | [provider] => .resolved (.listed provider)
    | provider :: others => .ambiguous provider others

section

variable {inside : Bool} {source provider : Nat} {providers others : List Nat}

theorem prescribed_platform : prescribed inside source providers = .platform ↔ inside = true := by
  rw [prescribed.eq_def]
  cases inside with
  | true => simp
  | false =>
    simp only [Bool.false_eq_true, if_false, iff_false]
    split
    · simp
    · split <;> simp

theorem prescribed_unresolved : prescribed inside source providers = .unresolved ↔
    inside = false ∧ providers = [] := by
  rw [prescribed.eq_def]
  cases inside with
  | true => simp
  | false =>
    simp only [Bool.false_eq_true, if_false, true_and]
    split
    next own => simp [List.ne_nil_of_mem own]
    next => split <;> simp

theorem prescribed_own : prescribed inside source providers = .resolved (.listed source) ↔
    inside = false ∧ source ∈ providers := by
  rw [prescribed.eq_def]
  cases inside with
  | true => simp
  | false =>
    simp only [Bool.false_eq_true, if_false, true_and]
    split
    next own => simp [own]
    next foreign =>
      split
      · simp
      next provider =>
        simp only [List.mem_singleton] at foreign
        simp [foreign, Ne.symm foreign]
      next => simp [foreign]

theorem prescribed_only (other : provider ≠ source) :
    prescribed inside source providers = .resolved (.listed provider) ↔
      inside = false ∧ source ∉ providers ∧ providers = [provider] := by
  rw [prescribed.eq_def]
  cases inside with
  | true => simp
  | false =>
    simp only [Bool.false_eq_true, if_false, true_and]
    split
    next own => simp [own, Ne.symm other]
    next foreign =>
      split
      · simp
      next only =>
        simp only [Resolution.resolved.injEq, JarRef.listed.injEq, List.cons.injEq, and_true]
        exact ⟨fun same => ⟨foreign, same⟩, And.right⟩
      next several =>
        simp only [reduceCtorEq, List.cons.injEq, false_iff, not_and]
        exact fun _ _ => several

theorem prescribed_first : prescribed inside source providers = .ambiguous provider others ↔
    inside = false ∧ source ∉ providers ∧ providers = provider :: others ∧ others ≠ [] := by
  rw [prescribed.eq_def]
  cases inside with
  | true => simp
  | false =>
    simp only [Bool.false_eq_true, if_false, true_and]
    split
    next own => simp [own]
    next foreign =>
      split
      · simp
      · simp
      next several =>
        simp only [foreign, not_false_iff, true_and, Resolution.ambiguous.injEq, List.cons.injEq]
        constructor
        · rintro ⟨rfl, rfl⟩
          exact ⟨⟨rfl, rfl⟩, several⟩
        · exact And.left

end

section

variable {jars : List Jar} {release : Int} {boundary : Option PlatformList} {position : Nat}
variable {name : String}

theorem resolveIn_new : resolveIn (Classpath.new jars release) boundary (some (.listed position)) name =
    prescribed (boundary.any (·.containsClass name)) position
      ((Classpath.new jars release).providersOf name) := by
  rw [resolveIn, prescribed.eq_def]
  split
  · rfl
  by_cases own : position ∈ (Classpath.new jars release).providersOf name
  · obtain ⟨c, shown⟩ := Classpath.mem_providersOf.mp own
    rw [if_pos own, Option.filter_some_pos (by rw [shown, Option.isSome_some])]
  · have absent : ((Classpath.new jars release).classIn? (.listed position) name).isSome = false := by
      rw [← Bool.not_eq_true, Option.isSome_iff_exists, ← Classpath.mem_providersOf]
      exact own
    rw [if_neg own]
    rcases (Classpath.new jars release).providersOf name with _ | ⟨provider, _ | ⟨second, others⟩⟩
    · simp [Option.filter_some, absent]
    · simp [Option.filter_some, absent]
    · simp [Option.filter_some, absent]

theorem resolveIn_byPolicy (keyed : ∀ jar ∈ jars, jar.Keyed) :
    ByPolicy jars (max release baseRelease) boundary position name
      (resolveIn (Classpath.new jars release) boundary (some (.listed position)) name) := by
  rw [resolveIn_new, Classpath.providersOf_eq keyed]
  exact ⟨prescribed_platform, prescribed_own, prescribed_unresolved, fun _ => prescribed_only,
    fun _ _ => prescribed_first⟩

end

/-- The policy leaves no choice, and whom it names has the class. -/
theorem ByPolicy.provider_mem {jars : List Jar} {release : Int} {boundary : Option PlatformList}
    {source : Nat} {name : String} {resolution : Resolution} {provider : JarRef}
    (told : ByPolicy jars release boundary source name resolution)
    (named : resolution.provider? = some provider) :
    ∃ position ∈ providing jars release name, provider = .listed position := by
  -- the cases of the policy in their order; each of them fixes the resolution
  by_cases inside : boundary.any (·.containsClass name) = true
  · rw [told.platform.mpr inside] at named
    cases named
  have outside := Bool.eq_false_iff.mpr inside
  by_cases own : source ∈ providing jars release name
  · rw [told.own.mpr ⟨outside, own⟩] at named
    cases named
    exact ⟨source, own, rfl⟩
  match provided : providing jars release name with
  | [] =>
    rw [told.unresolved.mpr ⟨outside, provided⟩] at named
    cases named
  | [only] =>
    have other : only ≠ source := by
      rintro rfl
      exact own (provided ▸ List.mem_singleton_self only)
    rw [(told.only only other).mpr ⟨outside, own, provided⟩] at named
    cases named
    exact ⟨only, List.mem_singleton_self only, rfl⟩
  | first :: second :: others =>
    rw [(told.first first (second :: others)).mpr ⟨outside, own, provided, by simp⟩] at named
    cases named
    exact ⟨first, List.mem_cons_self, rfl⟩

/-- Who refers to what: JAR by JAR, class by class, in the order in which each class does. -/
def referrals (jars : List Jar) (release : Int) : List (Nat × JavaClass × String) :=
  jars.zipIdx.flatMap fun (jar, position) =>
    (jar.effective release).flatMap fun c => c.references.map fun target => (position, c, target)

/-- The edges of a graph are the referrals of the JARs, each resolved by the policy. -/
structure Follows (g : Graph) (jars : List Jar) (release : Int) (boundary : Option PlatformList) :
    Prop where
  referred : g.edges.map (fun e => (e.sourceJar, e.source, e.target)) = referrals jars release
  /-- The classes that refer are those that their JAR shows, by name. -/
  sources : ∀ jar ∈ jars, ∀ c, c ∈ jar.effective release ↔
    jar.effectiveClass? c.name release = some c
  sources_ascending : ∀ jar ∈ jars, (jar.effective release).Pairwise fun a b => a.name < b.name
  policy : ∀ e ∈ g.edges, ByPolicy jars release boundary e.sourceJar e.target e.resolution
  provided : ∀ e ∈ g.edges, ∀ provider, e.resolution.provider? = some provider →
    ∃ position jar, provider = .listed position ∧ jars[position]? = some jar ∧
      (jar.effectiveClass? e.target release).isSome = true
  unresolved : g.unresolved = g.edges.filter fun e => e.resolution.outcome = "unresolved"
  ambiguous : g.ambiguous = g.edges.filter fun e => e.resolution.outcome = "ambiguous"
  outgoing : ∀ position jar, jars[position]? = some jar → ∀ c ∈ jar.effective release,
    g.edgesFrom position c.name = g.edges.filter fun e => e.sourceJar = position ∧ e.source = c

section

variable {jars : List Jar} {release : Int} {boundary : Option PlatformList} {position : Nat}
variable {e : Edge}

theorem build_referred :
    (build (Classpath.new jars release) boundary).edges.map
        (fun e => (e.sourceJar, e.source, e.target)) =
      referrals jars (max release baseRelease) := by
  have numbers : List.range jars.length = jars.zipIdx.map Prod.snd := by
    rw [List.zipIdx_map_snd, List.range_eq_range']
  have each : ∀ entry ∈ jars.zipIdx,
      (edgesOf (Classpath.new jars release) boundary entry.2).map
          (fun e => (e.sourceJar, e.source, e.target)) =
        (entry.1.effective (max release baseRelease)).flatMap fun c =>
          c.references.map fun target => (entry.2, c, target) := by
    intro entry member
    rw [edgesOf, Classpath.classesOf_listed (List.mem_zipIdx_iff_getElem?.mp member),
      List.map_flatMap]
    simp only [List.map_map]
    rfl
  calc
    _ = (List.range jars.length).flatMap fun position =>
          (edgesOf (Classpath.new jars release) boundary position).map
            fun e => (e.sourceJar, e.source, e.target) := List.map_flatMap ..
    _ = jars.zipIdx.flatMap fun entry =>
          (edgesOf (Classpath.new jars release) boundary entry.2).map
            fun e => (e.sourceJar, e.source, e.target) := by rw [numbers, List.flatMap_map]
    _ = referrals jars (max release baseRelease) := List.flatMap_congr each

theorem mem_build_edges (member : e ∈ (build (Classpath.new jars release) boundary).edges) :
    (∃ jar, jars[e.sourceJar]? = some jar ∧ e.source ∈ jar.effective (max release baseRelease)) ∧
      e.resolution = resolveIn (Classpath.new jars release) boundary (some (.listed e.sourceJar))
        e.target := by
  simp only [build, List.mem_flatMap, List.mem_range, edgesOf, List.mem_map] at member
  obtain ⟨position, inside, source, shown, target, -, rfl⟩ := member
  have listed : jars[position]? = some (jars.get ⟨position, inside⟩) := List.getElem?_eq_getElem inside
  rw [Classpath.classesOf_listed listed] at shown
  exact ⟨⟨_, listed, shown⟩, rfl⟩

/-- A JAR shows one class of a name, so that the name tells the class an edge comes from. -/
theorem edgesFrom_build {jar : Jar} (keyed : jar.Keyed) (listed : jars[position]? = some jar)
    {c : JavaClass} (shown : c ∈ jar.effective (max release baseRelease)) :
    (build (Classpath.new jars release) boundary).edgesFrom position c.name =
      (build (Classpath.new jars release) boundary).edges.filter fun e =>
        e.sourceJar = position ∧ e.source = c := by
  apply List.filter_congr
  intro e member
  rw [decide_eq_decide]
  refine and_congr_right fun here => ⟨fun same => ?_, fun same => same ▸ rfl⟩
  obtain ⟨⟨jar', listed', shown'⟩, -⟩ := mem_build_edges member
  rw [here, listed, Option.some.injEq] at listed'
  subst listed'
  rw [keyed.mem_effective] at shown shown'
  rw [same, shown, Option.some.injEq] at shown'
  exact shown'.symm

theorem build_follows (keyed : ∀ jar ∈ jars, jar.Keyed) :
    Follows (build (Classpath.new jars release) boundary) jars (max release baseRelease) boundary := by
  have policy : ∀ e ∈ (build (Classpath.new jars release) boundary).edges,
      ByPolicy jars (max release baseRelease) boundary e.sourceJar e.target e.resolution := by
    intro e member
    rw [(mem_build_edges member).2]
    exact resolveIn_byPolicy keyed
  refine ⟨build_referred, ?_, ?_, policy, ?_, ?_, ?_, ?_⟩
  · intro jar listed c
    exact (keyed jar listed).mem_effective
  · intro jar _
    exact Jar.effective_ascending
  · intro e member provider named
    obtain ⟨position, provides, rfl⟩ := (policy e member).provider_mem named
    obtain ⟨jar, listed, shown⟩ := mem_positions.mp provides
    exact ⟨position, jar, rfl, listed, shown⟩
  · apply List.filter_congr
    intro e _
    cases e.resolution <;> rfl
  · apply List.filter_congr
    intro e _
    cases e.resolution <;> rfl
  · intro position jar listed c shown
    exact edgesFrom_build (keyed jar (List.mem_of_getElem? listed)) listed shown

end

/-- The graph of a classpath is the policy applied to every reference, and it is the same for every
number of workers and every order in which they finish. -/
theorem build_follows_policy (jars : List Jar) (release : Int) (boundary : Option PlatformList)
    (keyed : ∀ jar ∈ jars, jar.Keyed) (processors : Nat) (positive : 0 < processors) :
    ∃ g, buildUnless false (Classpath.new jars release) boundary = .ok g ∧
      Follows g jars (max release 8) boundary ∧
      ∀ (requests : List Int)
        (schedule : TaskGroup.Schedule (workerLimit processors requests) jars.length),
        TaskGroup.Ended (workerLimit processors requests) (schedule.state (2 * jars.length)) ∧
          (mergedInOrder (Classpath.new jars release) boundary schedule.order).Agrees g := by
  refine ⟨build (Classpath.new jars release) boundary, rfl, build_follows keyed, ?_⟩
  intro requests schedule
  have room := workerLimit_pos positive requests
  exact ⟨schedule.ended room, schedule_agrees (Classpath.new jars release) boundary room schedule⟩

/-- A JAR that refers to the platform, to itself, to the next one, to both that follow and to none. -/
def shop : List Jar :=
  [((({ origin := "shop.jar" } : Jar).addClass 8 { Classpath.stampedClass "shop.Cart" 1 with
        references := ["java.lang.Object", "lib.Gone", "lib.Money", "lib.Unit", "shop.Item"] }).addClass 8
      (Classpath.stampedClass "shop.Item" 2)).init,
    ((({ origin := "money.jar" } : Jar).addClass 8 (Classpath.stampedClass "lib.Money" 3)).addClass 8
      (Classpath.stampedClass "lib.Unit" 4)).init,
    (({ origin := "unit.jar" } : Jar).addClass 9 (Classpath.stampedClass "lib.Unit" 5)).init]

theorem build_follows_policy_shop :
    (∀ jar ∈ shop, jar.Keyed) ∧ 0 < 4 ∧
      ∃ g, buildUnless false (Classpath.new shop 11) (some { release := 11 }) = .ok g ∧
        Follows g shop 11 (some { release := 11 }) ∧
        ∃ schedule : TaskGroup.Schedule (workerLimit 4 [0, 2]) 3,
          (mergedInOrder (Classpath.new shop 11) (some { release := 11 }) schedule.order).Agrees g := by
  have fresh : ∀ origin : String, ({ origin } : Jar).Keyed := by
    intro origin layer member
    cases member
  have keyed : ∀ jar ∈ shop, jar.Keyed := by
    simp only [shop, List.forall_mem_cons, List.not_mem_nil, false_imp_iff, implies_true, and_true]
    exact ⟨(((fresh _).addClass 8).addClass 8).init, (((fresh _).addClass 8).addClass 8).init,
      ((fresh _).addClass 9).init⟩
  obtain ⟨g, built, follows, same⟩ :=
    build_follows_policy shop 11 (some { release := 11 }) keyed 4 (by decide)
  obtain ⟨schedule⟩ := TaskGroup.Schedule.exists_schedule (workerLimit 4 [0, 2]) 3
  exact ⟨keyed, by decide, g, built, follows, schedule, (same [0, 2] schedule).2⟩

end ClasspathAudit.Graph
