import ClasspathAudit.Proofs.Graph.ResolutionPolicy

/-!
More JARs at the end of a classpath. Records are known by position, so that those in front keep theirs;
what they refer to keeps its provider, and a JAR behind them provides only what none of them does.
-/

namespace ClasspathAudit

theorem positions_append {α : Type} (test : α → Bool) (items more : List α) :
    positions test (items ++ more) =
      positions test items ++ (positions test more).map (items.length + ·) := by
  have shifted : more.zipIdx items.length =
      more.zipIdx.map fun entry => (entry.1, items.length + entry.2) := by
    rw [List.zipIdx_eq_map_add]
  rw [positions, List.zipIdx_append, Nat.zero_add, List.filter_append, List.map_append, shifted,
    List.filter_map, List.map_map, positions, positions, List.map_map]
  rfl

namespace Classpath

/-- The JARs behind provide a name after those in front. -/
theorem providersOf_append (jars more : List Jar) (release : Int) (name : String) :
    ∃ added : List Nat,
    (new (jars ++ more) release).providersOf name =
      (new jars release).providersOf name ++ added.map (jars.length + ·) ∧
    ∀ position ∈ added, position < more.length := by
  simp only [providersOf, new, getD_indexBy, positions_map, positions_append]
  exact ⟨_, rfl, fun position => lt_of_mem_positions⟩

end Classpath

namespace Graph

/-- A resolution over `count` JARs beside the one with `more` JARs behind them. -/
structure Extends (count more : Nat) (before after : Resolution) : Prop where
  platform : after = .platform ↔ before = .platform
  provided : ∀ provider, before.provider? = some provider →
    after.provider? = some provider ∧ ∃ position < count, provider = .listed position
  shadowed : ∃ added : List Nat, after.shadowed = before.shadowed ++ added.map (count + ·) ∧
    ∀ position ∈ added, position < more
  unprovided : before = .unresolved → ∀ provider, after.provider? = some provider →
    ∃ position < more, provider = .listed (count + position)

/-- An edge beside the one of the same reference once there are more JARs. -/
structure Kept (count more : Nat) (before after : Edge) : Prop where
  sourceJar : after.sourceJar = before.sourceJar
  source : after.source = before.source
  target : after.target = before.target
  resolution : Extends count more before.resolution after.resolution

section

variable {inside : Bool} {source count more : Nat} {providers added : List Nat}

theorem provider?_prescribed (foreign : source ∉ providers) :
    (prescribed false source providers).provider? = providers.head?.map .listed := by
  rw [prescribed.eq_def, if_neg Bool.false_ne_true, if_neg foreign]
  rcases providers with _ | ⟨first, _ | ⟨second, others⟩⟩ <;> rfl

theorem shadowed_prescribed (foreign : source ∉ providers) :
    (prescribed false source providers).shadowed = providers.tail := by
  rw [prescribed.eq_def, if_neg Bool.false_ne_true, if_neg foreign]
  rcases providers with _ | ⟨first, _ | ⟨second, others⟩⟩ <;> rfl

/-- A reference that neither the platform nor its own JAR answers keeps its providers in front. -/
theorem prescribed_extends_foreign (listed : source < count) (foreign : source ∉ providers)
    (front : ∀ position ∈ providers, position < count)
    (behind : ∀ position ∈ added, position < more) :
    Extends count more (prescribed false source providers)
      (prescribed false source (providers ++ added.map (count + ·))) := by
  have foreign' : source ∉ providers ++ added.map (count + ·) := by
    rw [List.mem_append, List.mem_map]
    rintro (own | ⟨position, -, rfl⟩)
    · exact foreign own
    · omega
  refine ⟨?_, ?_, ?_, ?_⟩
  · simp only [prescribed_platform]
  · intro provider
    rw [provider?_prescribed foreign, provider?_prescribed foreign']
    cases providers with
    | nil => exact fun none => nomatch none
    | cons first others =>
      rintro ⟨⟩
      exact ⟨rfl, first, front first List.mem_cons_self, rfl⟩
  · rw [shadowed_prescribed foreign, shadowed_prescribed foreign']
    cases providers with
    | nil =>
      refine ⟨added.tail, ?_, fun position later => behind position (List.mem_of_mem_tail later)⟩
      rw [List.nil_append, List.tail_nil, List.nil_append, List.map_tail]
    | cons first others => exact ⟨added, rfl, behind⟩
  · intro unresolved provider
    rw [(prescribed_unresolved.mp unresolved).2] at foreign' ⊢
    rw [provider?_prescribed foreign']
    cases added with
    | nil => exact fun none => nomatch none
    | cons first others =>
      rintro ⟨⟩
      exact ⟨first, behind first List.mem_cons_self, rfl⟩

theorem prescribed_extends (listed : source < count)
    (front : ∀ position ∈ providers, position < count)
    (behind : ∀ position ∈ added, position < more) :
    Extends count more (prescribed inside source providers)
      (prescribed inside source (providers ++ added.map (count + ·))) := by
  cases inside with
  | true =>
    rw [prescribed_platform.mpr rfl, prescribed_platform.mpr rfl]
    exact ⟨Iff.rfl, fun _ none => (nomatch none), ⟨[], rfl, by simp⟩, fun other => (nomatch other)⟩
  | false =>
    by_cases own : source ∈ providers
    · rw [prescribed_own.mpr ⟨rfl, own⟩, prescribed_own.mpr ⟨rfl, List.mem_append_left _ own⟩]
      refine ⟨by simp, ?_, ⟨[], rfl, by simp⟩, fun other => nomatch other⟩
      rintro provider ⟨⟩
      exact ⟨rfl, source, listed, rfl⟩
    · exact prescribed_extends_foreign listed own front behind

end

section

variable {jars more : List Jar} {release : Int} {boundary : Option PlatformList} {position : Nat}

/-- A JAR in front refers to the same names, and more may provide them. -/
theorem edgesOf_append (listed : position < jars.length) :
    edgesOf (Classpath.new (jars ++ more) release) boundary position =
      (edgesOf (Classpath.new jars release) boundary position).map fun e =>
        { e with resolution := resolveIn (Classpath.new (jars ++ more) release) boundary
                   (some (.listed e.sourceJar)) e.target } := by
  have here : jars[position]? = some jars[position] := List.getElem?_eq_getElem listed
  have there : (jars ++ more)[position]? = some jars[position] := by
    rw [List.getElem?_append_left listed, here]
  rw [edgesOf, edgesOf, Classpath.classesOf_listed here, Classpath.classesOf_listed there,
    List.map_flatMap]
  simp only [List.map_map]
  rfl

theorem resolveIn_extends (listed : position < jars.length) (name : String) :
    Extends jars.length more.length
      (resolveIn (Classpath.new jars release) boundary (some (.listed position)) name)
      (resolveIn (Classpath.new (jars ++ more) release) boundary (some (.listed position)) name) := by
  obtain ⟨added, providers, behind⟩ := Classpath.providersOf_append jars more release name
  rw [resolveIn_new, resolveIn_new, providers]
  exact prescribed_extends listed (fun _ => Classpath.providersOf_lt) behind

/-- The edges of the JARs in front come first, each for the same reference as before. -/
theorem edges_append (jars more : List Jar) (release : Int) (boundary : Option PlatformList) :
    ∃ kept added : List Edge,
      (build (Classpath.new (jars ++ more) release) boundary).edges = kept ++ added ∧
      List.Forall₂ (Kept jars.length more.length)
        (build (Classpath.new jars release) boundary).edges kept ∧
      ∀ e ∈ added, jars.length ≤ e.sourceJar := by
  have length : (Classpath.new (jars ++ more) release).jars.length = jars.length + more.length :=
    List.length_append
  refine ⟨(List.range jars.length).flatMap
      (edgesOf (Classpath.new (jars ++ more) release) boundary),
    ((List.range more.length).map (jars.length + ·)).flatMap
      (edgesOf (Classpath.new (jars ++ more) release) boundary), ?_, ?_, ?_⟩
  · rw [build, length, List.range_add, List.flatMap_append]
  · rw [List.flatMap_congr fun position listed => edgesOf_append (List.mem_range.mp listed),
      ← List.map_flatMap, List.forall₂_map_right_iff]
    change List.Forall₂ _ (build (Classpath.new jars release) boundary).edges
      (build (Classpath.new jars release) boundary).edges
    rw [List.forall₂_same]
    intro e member
    obtain ⟨⟨jar, here, -⟩, resolved⟩ := mem_build_edges member
    refine ⟨rfl, rfl, rfl, ?_⟩
    rw [resolved]
    exact resolveIn_extends (List.getElem?_eq_some_iff.mp here).1 e.target
  · intro e member
    simp only [List.mem_flatMap, List.mem_map, edgesOf] at member
    obtain ⟨_, ⟨position, -, rfl⟩, source, -, target, -, rfl⟩ := member
    exact Nat.le_add_right jars.length position

end

section

variable {count more : Nat}

/-- What is unresolved with more JARs was so with fewer. -/
theorem Extends.unresolved {before after : Resolution} (wider : Extends count more before after)
    (unresolved : after = .unresolved) : before = .unresolved := by
  subst unresolved
  cases before with
  | platform => exact nomatch wider.platform.mpr rfl
  | unresolved => rfl
  | resolved provider => exact nomatch (wider.provided provider rfl).1
  | ambiguous provider others => exact nomatch (wider.provided (.listed provider) rfl).1

theorem Kept.eq_of_unresolved {before after : Edge} (kept : Kept count more before after)
    (unresolved : after.resolution = .unresolved) : after = before := by
  have same : after.resolution = before.resolution := by
    rw [unresolved, kept.resolution.unresolved unresolved]
  cases before
  cases after
  rw [Edge.mk.injEq]
  exact ⟨kept.source, kept.sourceJar, kept.target, same⟩

theorem unresolved_sublist {before after : List Edge}
    (kept : List.Forall₂ (Kept count more) before after) :
    (after.filter (·.resolution.isUnresolved)).Sublist
      (before.filter (·.resolution.isUnresolved)) := by
  induction kept with
  | nil => exact .slnil
  | @cons b a before after first _ ih =>
    by_cases unresolved : a.resolution.isUnresolved = true
    · obtain rfl := first.eq_of_unresolved (Resolution.isUnresolved_iff.mp unresolved)
      rw [List.filter_cons_of_pos (p := fun e : Edge => e.resolution.isUnresolved) unresolved,
        List.filter_cons_of_pos (p := fun e : Edge => e.resolution.isUnresolved) unresolved]
      exact ih.cons_cons a
    · rw [List.filter_cons_of_neg (p := fun e : Edge => e.resolution.isUnresolved) unresolved]
      exact ih.trans ((List.sublist_cons_self b before).filter _)

end

/-- JARs behind those of a classpath change none of its choices. Their edges come after the ones that
were there, and each of those refers from the same class of the same JAR to the same name as before,
to the same provider if it had one; who else provides the name stands behind the ones known. What
remains unresolved was so before. -/
theorem build_append (jars more : List Jar) (release : Int) (boundary : Option PlatformList) :
    (∃ kept added : List Edge,
      (build (Classpath.new (jars ++ more) release) boundary).edges = kept ++ added ∧
      List.Forall₂ (Kept jars.length more.length)
        (build (Classpath.new jars release) boundary).edges kept ∧
      ∀ e ∈ added, jars.length ≤ e.sourceJar) ∧
    ((build (Classpath.new (jars ++ more) release) boundary).unresolved.filter
      (·.sourceJar < jars.length)).Sublist
        (build (Classpath.new jars release) boundary).unresolved := by
  refine ⟨edges_append jars more release boundary, ?_⟩
  obtain ⟨kept, added, edges, same, later⟩ := edges_append jars more release boundary
  have none : (added.filter (·.resolution.isUnresolved)).filter (·.sourceJar < jars.length) = [] := by
    rw [List.filter_eq_nil_iff]
    intro e member
    have behind := later e (List.mem_of_mem_filter member)
    simp only [decide_eq_true_eq]
    omega
  rw [unresolved, edges, List.filter_append, List.filter_append, none, List.append_nil]
  exact List.filter_sublist.trans (unresolved_sublist same)

end Graph

end ClasspathAudit
