import ClasspathAudit.Graph.Basic
import ClasspathAudit.Proofs.Classpath.Indices

/-!
Uses between JARs. Every edge is marked with both of its JARs, in two arrays side by side; read back, the
marks of a JAR are what the edges tell, on either side.
-/

namespace ClasspathAudit

theorem Resolution.isUnresolved_iff {r : Resolution} :
    r.isUnresolved = true ↔ r = .unresolved := by
  cases r <;> simp [isUnresolved]

theorem Resolution.providerIndex?_eq_some_iff {r : Resolution} {position : Nat} :
    r.providerIndex? = some position ↔ r.provider? = some (.listed position) := by
  rw [providerIndex?]
  split
  next index provided => rw [provided, Option.some.injEq, Option.some.injEq, JarRef.listed.injEq]
  next other =>
    refine iff_of_false (fun none => nomatch none) (fun provided => other position provided)

namespace Classpath

/-- Whoever provides a name is one of the JARs. -/
class Listed (cp : Classpath) : Prop where
  provider_lt : ∀ name, ∀ position ∈ cp.providersOf name, position < cp.jars.length

instance (jars : List Jar) (release : Int) : (new jars release).Listed where
  provider_lt _ _ := providersOf_lt

end Classpath

/-- The edge leads from one of `count` JARs to another one of them. -/
structure Edge.Uses (count : Nat) (e : Edge) (user provider : Nat) : Prop where
  source : e.sourceJar = user
  provided : e.resolution.provider? = some (.listed provider)
  apart : user ≠ provider
  user_lt : user < count
  provider_lt : provider < count

theorem Edge.uses_iff {count user provider other : Nat} {e : Edge}
    (provided : e.resolution.provider? = some (.listed other)) :
    e.Uses count user provider ↔
      (e.sourceJar = user ∧ other = provider) ∧ other ≠ e.sourceJar ∧ e.sourceJar < count ∧
        other < count := by
  constructor
  · rintro ⟨rfl, same, apart, user_lt, provider_lt⟩
    cases provided.symm.trans same
    exact ⟨⟨rfl, rfl⟩, apart.symm, user_lt, provider_lt⟩
  · rintro ⟨⟨rfl, rfl⟩, apart, user_lt, provider_lt⟩
    exact ⟨rfl, provided, apart.symm, user_lt, provider_lt⟩

namespace Usage

/-- The marks of `count` JARs, which tell the same uses on either side. -/
structure Marks (count : Nat) (told : Nat → Nat → Prop) (usage : Usage) : Prop where
  uses_size : usage.uses.size = count
  usedBy_size : usage.usedBy.size = count
  uses : ∀ user provider, provider ∈ usage.usesOf user ↔ told user provider
  usedBy : ∀ user provider, user ∈ usage.usersOf provider ↔ told user provider

theorem unused_marks (count : Nat) : Marks count (fun _ _ => False) (unused count) := by
  have empty : ∀ (index position : Nat),
      position ∉ (Array.replicate count (∅ : Std.TreeSet Nat))[index]?.getD ∅ := by
    intro index position
    rw [Array.getElem?_replicate]
    split <;> exact Std.TreeSet.not_mem_emptyc
  refine ⟨Array.size_replicate, Array.size_replicate, ?_, ?_⟩
  · exact fun user provider => iff_false_intro (empty user provider)
  · exact fun user provider => iff_false_intro (empty provider user)

theorem mem_modify {marks : Array (Std.TreeSet Nat)} {index : Nat} (inside : index < marks.size)
    (marked other position : Nat) :
    position ∈ (marks.modify index (·.insert marked))[other]?.getD {} ↔
      position ∈ marks[other]?.getD {} ∨ index = other ∧ marked = position := by
  rw [Array.getElem?_modify]
  split
  next here =>
    subst here
    rw [Array.getElem?_eq_getElem inside]
    simp [or_comm]
  next elsewhere => simp [elsewhere]

section

variable {count user provider : Nat} {told : Nat → Nat → Prop} {usage : Usage}

theorem Marks.congr {told' : Nat → Nat → Prop} (marks : Marks count told usage)
    (same : ∀ user provider, told user provider ↔ told' user provider) : Marks count told' usage :=
  ⟨marks.uses_size, marks.usedBy_size, fun user provider => (marks.uses user provider).trans (same ..),
    fun user provider => (marks.usedBy user provider).trans (same ..)⟩

theorem Marks.mark? (marks : Marks count told usage) (user_lt : user < count)
    (provider_lt : provider < count) :
    ∃ usage', usage.mark? user provider = some usage' ∧
      Marks count (fun user' provider' =>
        told user' provider' ∨ user = user' ∧ provider = provider') usage' := by
  have room : user < usage.uses.size ∧ provider < usage.usedBy.size := by
    rw [marks.uses_size, marks.usedBy_size]
    exact ⟨user_lt, provider_lt⟩
  refine ⟨_, if_pos room, ?_⟩
  refine ⟨?_, ?_, ?_, ?_⟩
  · rw [Array.size_modify, marks.uses_size]
  · rw [Array.size_modify, marks.usedBy_size]
  · intro user' provider'
    rw [← marks.uses]
    exact mem_modify room.1 provider user' provider'
  · intro user' provider'
    rw [← marks.usedBy, and_comm]
    exact mem_modify room.2 user provider' user'

theorem Marks.mark?_eq_none (marks : Marks count told usage)
    (outside : ¬ (user < count ∧ provider < count)) : usage.mark? user provider = none := by
  rw [Usage.mark?, marks.uses_size, marks.usedBy_size, if_neg outside]

theorem Marks.still (marks : Marks count told usage) {e : Edge}
    (silent : ∀ user provider, ¬ e.Uses count user provider) (same : usage.addEdge e = usage) :
    Marks count (fun user provider => told user provider ∨ e.Uses count user provider)
      (usage.addEdge e) := by
  rw [same]
  exact marks.congr fun user provider => (or_iff_left (silent user provider)).symm

/-- Of an edge to no listed JAR nothing is marked. -/
theorem Marks.addEdge_elsewhere (marks : Marks count told usage) {e : Edge}
    (elsewhere : ∀ provider, e.resolution.provider? ≠ some (.listed provider)) :
    Marks count (fun user provider => told user provider ∨ e.Uses count user provider)
      (usage.addEdge e) := by
  refine marks.still (fun user provider uses => elsewhere provider uses.provided) ?_
  rw [Usage.addEdge, addEdge?]
  cases provided : e.resolution.provider? with
  | none => rfl
  | some other =>
    cases other with
    | listed provider => exact absurd provided (elsewhere provider)
    | unlisted jar => rfl

/-- An edge adds the use that it tells, if there is one, on both sides. -/
theorem Marks.addEdge (marks : Marks count told usage) (e : Edge) :
    Marks count (fun user provider => told user provider ∨ e.Uses count user provider)
      (usage.addEdge e) := by
  match provided : e.resolution.provider? with
  | none => exact marks.addEdge_elsewhere (by simp [provided])
  | some (.unlisted jar) => exact marks.addEdge_elsewhere (by simp [provided])
  | some (.listed provider) =>
    by_cases own : provider = e.sourceJar
    · refine marks.still (fun user other uses => ?_) ?_
      · exact ((Edge.uses_iff provided).mp uses).2.1 own
      · simp [Usage.addEdge, addEdge?, provided, own]
    · by_cases room : e.sourceJar < count ∧ provider < count
      · obtain ⟨usage', marked, marks'⟩ := marks.mark? room.1 room.2
        have added : usage.addEdge e = usage' := by
          simp [Usage.addEdge, addEdge?, provided, own, marked]
        rw [added]
        exact marks'.congr fun user other => by simp [Edge.uses_iff provided, own, room]
      · refine marks.still (fun user other uses => ?_) ?_
        · exact room ((Edge.uses_iff provided).mp uses).2.2
        · simp [Usage.addEdge, addEdge?, provided, own, marks.mark?_eq_none room]

/-- The marks of all edges are the uses that any of them tells. -/
theorem Marks.foldl_addEdge (marks : Marks count told usage) (edges : List Edge) :
    Marks count (fun user provider =>
      told user provider ∨ ∃ e ∈ edges, e.Uses count user provider)
      (edges.foldl Usage.addEdge usage) := by
  induction edges generalizing told usage with
  | nil => exact marks.congr fun user provider => by simp
  | cons e edges ih =>
    exact (ih (marks.addEdge e)).congr fun user provider => by
      rw [List.exists_mem_cons_iff, or_assoc]

/-- An edge whose JARs are all there is marked without asking for any other. -/
theorem Marks.addEdge?_eq_some (marks : Marks count told usage) {e : Edge}
    (source : e.sourceJar < count)
    (listed : ∀ provider, e.resolution.provider? = some provider →
      ∃ position < count, provider = .listed position) :
    usage.addEdge? e = some (usage.addEdge e) := by
  have marked : (usage.addEdge? e).isSome = true := by
    match provided : e.resolution.provider? with
    | none => rw [addEdge?, provided, Option.isSome_some]
    | some provider =>
      obtain ⟨position, inside, rfl⟩ := listed provider provided
      obtain ⟨usage', marked, -⟩ := marks.mark? source inside
      rw [addEdge?, provided]
      dsimp only
      split
      · rfl
      · rw [marked, Option.isSome_some]
  obtain ⟨usage', added⟩ := Option.isSome_iff_exists.mp marked
  rw [Usage.addEdge, added, Option.getD_some]

theorem Marks.foldlM_addEdge? (marks : Marks count told usage) {edges : List Edge}
    (sources : ∀ e ∈ edges, e.sourceJar < count)
    (listed : ∀ e ∈ edges, ∀ provider, e.resolution.provider? = some provider →
      ∃ position < count, provider = .listed position) :
    edges.foldlM addEdge? usage = some (edges.foldl Usage.addEdge usage) := by
  induction edges generalizing told usage with
  | nil => rfl
  | cons e edges ih =>
    rw [List.forall_mem_cons] at sources listed
    rw [List.foldlM_cons, marks.addEdge?_eq_some sources.1 listed.1]
    exact ih (marks.addEdge e) sources.2 listed.2

end

end Usage

namespace Graph

section

variable {g : Graph} {user provider : Nat}

theorem usage_marks (g : Graph) : Usage.Marks g.classpath.jars.length
    (fun user provider => ∃ e ∈ g.edges, e.Uses g.classpath.jars.length user provider) g.usage :=
  ((Usage.unused_marks _).foldl_addEdge g.edges).congr fun _ _ => by rw [false_or]

theorem mem_dependencies_iff : provider ∈ g.dependencies user ↔
    ∃ e ∈ g.edges, e.Uses g.classpath.jars.length user provider := by
  rw [dependencies, Std.TreeSet.mem_toList, (usage_marks g).uses]

theorem mem_dependents_iff : user ∈ g.dependents provider ↔
    ∃ e ∈ g.edges, e.Uses g.classpath.jars.length user provider := by
  rw [dependents, Std.TreeSet.mem_toList, (usage_marks g).usedBy]

theorem dependencies_ascending (g : Graph) (user : Nat) : (g.dependencies user).Pairwise (· < ·) :=
  Std.TreeSet.ordered_toList.imp Nat.compare_eq_lt.mp

theorem dependents_ascending (g : Graph) (provider : Nat) :
    (g.dependents provider).Pairwise (· < ·) :=
  Std.TreeSet.ordered_toList.imp Nat.compare_eq_lt.mp

theorem provider_of_resolveIn {cp : Classpath} {boundary : Option PlatformList} {source : Nat}
    {name : String} {provider : JarRef}
    (provided : (resolveIn cp boundary (some (.listed source)) name).provider? = some provider) :
    provider = .listed source ∨ ∃ position ∈ cp.providersOf name, provider = .listed position := by
  rw [resolveIn] at provided
  split at provided
  · cases provided
  split at provided
  next ref own =>
    cases provided
    exact .inl (Option.some.inj (Option.filter_eq_some_iff.mp own).1).symm
  next =>
    split at provided
    next => cases provided
    next only providers =>
      cases provided
      exact .inr ⟨only, providers ▸ List.mem_singleton_self only, rfl⟩
    next first others _ providers =>
      cases provided
      exact .inr ⟨first, providers ▸ List.mem_cons_self, rfl⟩

section

variable {cp : Classpath} {boundary : Option PlatformList} {e : Edge}

theorem sourceJar_lt (member : e ∈ (build cp boundary).edges) :
    e.sourceJar < cp.jars.length := by
  simp only [build, List.mem_flatMap, List.mem_range, edgesOf, List.mem_map] at member
  obtain ⟨position, inside, source, -, target, -, rfl⟩ := member
  exact inside

/-- Whom an edge names as provider is on the classpath, if all providers are. -/
theorem provider_listed [cp.Listed] (member : e ∈ (build cp boundary).edges) {provider : JarRef}
    (provided : e.resolution.provider? = some provider) :
    ∃ position < cp.jars.length, provider = .listed position := by
  simp only [build, List.mem_flatMap, List.mem_range, edgesOf, List.mem_map] at member
  obtain ⟨position, inside, c, -, target, -, rfl⟩ := member
  rcases provider_of_resolveIn provided with own | ⟨other, provides, same⟩
  · exact ⟨position, inside, own⟩
  · exact ⟨other, Classpath.Listed.provider_lt target other provides, same⟩

/-- Where all providers are on the classpath, so are the JARs of every use that an edge tells. -/
theorem uses_build [cp.Listed] (user provider : Nat) :
    (user ≠ provider ∧ ∃ e ∈ (build cp boundary).edges,
        e.sourceJar = user ∧ e.resolution.provider? = some (.listed provider)) ↔
      ∃ e ∈ (build cp boundary).edges, e.Uses cp.jars.length user provider := by
  constructor
  · rintro ⟨apart, e, member, rfl, provided⟩
    obtain ⟨position, inside, same⟩ := provider_listed member provided
    obtain rfl := JarRef.listed.inj same
    exact ⟨e, member, rfl, provided, apart, sourceJar_lt member, inside⟩
  · rintro ⟨e, member, uses⟩
    exact ⟨uses.apart, e, member, uses.source, uses.provided⟩

end

/-- The uses between the JARs of a classpath are what its edges tell, read from either side. -/
structure Projects (g : Graph) (count : Nat) : Prop where
  /-- Whom an edge names as provider is on the classpath. -/
  listed : ∀ e ∈ g.edges, e.sourceJar < count ∧
    ∀ provider, e.resolution.provider? = some provider → ∃ position < count, provider = .listed position
  /-- No edge asks for the marks of a JAR outside the classpath. -/
  inside : g.edges.foldlM Usage.addEdge? (.unused count) = some g.usage
  uses : ∀ user provider, provider ∈ g.dependencies user ↔
    user ≠ provider ∧ ∃ e ∈ g.edges, e.sourceJar = user ∧
      e.resolution.provider? = some (.listed provider)
  inverse : ∀ user provider, provider ∈ g.dependencies user ↔ user ∈ g.dependents provider
  /-- In the order of the classpath, and no JAR twice. -/
  ascending : ∀ position, (g.dependencies position).Pairwise (· < ·) ∧
    (g.dependents position).Pairwise (· < ·)
  bounded : ∀ position, (∀ other ∈ g.dependencies position, other < count) ∧
    ∀ other ∈ g.dependents position, other < count
  foreign : ∀ position, position ∉ g.dependencies position ∧ position ∉ g.dependents position

/-- What JARs use and what uses them is the projection of the edges, in both directions. -/
theorem build_projects (jars : List Jar) (release : Int) (boundary : Option PlatformList) :
    Projects (build (Classpath.new jars release) boundary) jars.length where
  listed _ member := ⟨sourceJar_lt member, fun _ => provider_listed member⟩
  inside := (Usage.unused_marks _).foldlM_addEdge? (fun _ => sourceJar_lt) fun _ member _ =>
    provider_listed member
  uses _ _ := mem_dependencies_iff.trans (uses_build ..).symm
  inverse _ _ := mem_dependencies_iff.trans mem_dependents_iff.symm
  ascending position := ⟨dependencies_ascending _ position, dependents_ascending _ position⟩
  bounded position := by
    simp only [mem_dependencies_iff, mem_dependents_iff]
    exact ⟨fun _ ⟨_, _, uses⟩ => uses.provider_lt, fun _ ⟨_, _, uses⟩ => uses.user_lt⟩
  foreign position := by
    simp only [mem_dependencies_iff, mem_dependents_iff]
    exact ⟨fun ⟨_, _, uses⟩ => uses.apart rfl, fun ⟨_, _, uses⟩ => uses.apart rfl⟩

end

end Graph

end ClasspathAudit
