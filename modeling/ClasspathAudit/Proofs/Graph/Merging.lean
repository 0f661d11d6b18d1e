import ClasspathAudit.Proofs.Concurrency.TaskGroup
import ClasspathAudit.Proofs.Graph.JarUsage

/-!
Building a graph side by side. Each JAR has a place for its edges, and the tasks that fill the places may
finish in any order. One pass over the places then collects the edges and, beside them, the answers to
what is asked of them; the answers are those of a search through the edges.
-/

namespace ClasspathAudit.Graph

/-- What a pass over the edges collects. -/
structure Merged where
  edges : List Edge := []
  /-- The edges of each class, by the position of its JAR and by its name. -/
  outgoing : Nat → String → List Edge := fun _ _ => []
  unresolved : List Edge := []
  ambiguous : List Edge := []
  /-- Which JAR uses which other one. -/
  uses : Nat → Nat → Bool := fun _ _ => false
  usedBy : Nat → Nat → Bool := fun _ _ => false

namespace Merged

/-- Collects an edge from the place of a JAR. -/
def add (position : Nat) (merged : Merged) (e : Edge) : Merged where
  edges := merged.edges ++ [e]
  outgoing index name :=
    if e.sourceJar = index ∧ e.source.name = name then merged.outgoing index name ++ [e]
    else merged.outgoing index name
  unresolved := if e.resolution.isUnresolved then merged.unresolved ++ [e] else merged.unresolved
  ambiguous := if e.resolution.isAmbiguous then merged.ambiguous ++ [e] else merged.ambiguous
  uses index other := merged.uses index other ||
    (e.isCrossJar && position == index && e.resolution.providerIndex? == some other)
  usedBy index other := merged.usedBy index other ||
    (e.isCrossJar && position == other && e.resolution.providerIndex? == some index)

/-- Collects the edges of all places. -/
def ofPlaces (places : List (List Edge)) : Merged :=
  places.zipIdx.foldl (fun merged (edges, position) => edges.foldl (add position) merged) {}

/-- The same by a search through the edges for each question. -/
def search (placed : List (Nat × Edge)) : Merged where
  edges := placed.map Prod.snd
  outgoing index name :=
    (placed.map Prod.snd).filter fun e => e.sourceJar = index ∧ e.source.name = name
  unresolved := (placed.map Prod.snd).filter (·.resolution.isUnresolved)
  ambiguous := (placed.map Prod.snd).filter (·.resolution.isAmbiguous)
  uses index other := placed.any fun (position, e) =>
    e.isCrossJar && position == index && e.resolution.providerIndex? == some other
  usedBy index other := placed.any fun (position, e) =>
    e.isCrossJar && position == other && e.resolution.providerIndex? == some index

theorem filter_concat (test : Edge → Bool) (edges : List Edge) (e : Edge) :
    (edges ++ [e]).filter test =
      if test e = true then edges.filter test ++ [e] else edges.filter test := by
  rw [List.filter_append, List.filter_cons]
  split <;> simp

theorem add_search (placed : List (Nat × Edge)) (position : Nat) (e : Edge) :
    (search placed).add position e = search (placed ++ [(position, e)]) := by
  simp only [add, search, List.map_append, List.map_singleton, filter_concat, List.any_append,
    List.any_cons, List.any_nil, Bool.or_false, decide_eq_true_eq]

theorem foldl_add_search (edges : List Edge) (placed : List (Nat × Edge)) (position : Nat) :
    edges.foldl (add position) (search placed) = search (placed ++ edges.map (position, ·)) := by
  induction edges generalizing placed with
  | nil => simp
  | cons e edges ih => simp [add_search, ih]

theorem foldl_places_search (places : List (List Edge)) (start : Nat) (placed : List (Nat × Edge)) :
    (places.zipIdx start).foldl (fun merged (edges, position) => edges.foldl (add position) merged)
        (search placed) =
      search (placed ++ (places.zipIdx start).flatMap fun (edges, position) =>
        edges.map (position, ·)) := by
  induction places generalizing start placed with
  | nil => simp
  | cons edges places ih => simp [foldl_add_search, ih]

/-- One pass answers every question as a search through the edges does. -/
theorem ofPlaces_eq (places : List (List Edge)) :
    ofPlaces places =
      search (places.zipIdx.flatMap fun (edges, position) => edges.map (position, ·)) :=
  foldl_places_search places 0 []

end Merged

/-- The places after the task of the JAR at a position has finished. -/
def finishJar (cp : Classpath) (boundary : Option PlatformList) (places : List (List Edge))
    (position : Nat) : List (List Edge) :=
  places.set position (edgesOf cp boundary position)

/-- What is collected when the tasks finish in the given order. -/
def mergedInOrder (cp : Classpath) (boundary : Option PlatformList) (order : List Nat) : Merged :=
  .ofPlaces (order.foldl (finishJar cp boundary) (List.replicate cp.jars.length []))

/-- How many JARs are worked on at a time: what was asked for last, or else one for each processor. -/
def workerLimit (processors : Nat) (requests : List Int) : Nat :=
  requests.foldl (fun limit workers => if 0 < workers then workers.toNat else limit) processors

theorem workerLimit_pos {processors : Nat} (positive : 0 < processors) (requests : List Int) :
    0 < workerLimit processors requests := by
  induction requests generalizing processors with
  | nil => exact positive
  | cons workers requests ih =>
    have next : 0 < if 0 < workers then workers.toNat else processors := by
      split <;> omega
    exact ih next

section

variable {cp : Classpath} {boundary : Option PlatformList}

theorem sourceJar_of_mem_edgesOf {position : Nat} {e : Edge} (member : e ∈ edgesOf cp boundary position) :
    e.sourceJar = position := by
  rw [edgesOf, List.mem_flatMap] at member
  obtain ⟨source, -, member⟩ := member
  obtain ⟨target, -, rfl⟩ := List.mem_map.mp member
  rfl

theorem mergedInOrder_eq {order : List Nat} (all : order.Perm (List.range cp.jars.length)) :
    mergedInOrder cp boundary order = .search ((List.range cp.jars.length).flatMap fun position =>
      (edgesOf cp boundary position).map (position, ·)) := by
  have filled : order.foldl (finishJar cp boundary) (List.replicate cp.jars.length []) =
      (List.range cp.jars.length).map (edgesOf cp boundary) :=
    TaskGroup.foldl_fill (fun _ _ _ => rfl) all []
  have numbered : (List.range cp.jars.length).zipIdx =
      (List.range cp.jars.length).map fun position => (position, position) := by
    apply List.ext_getElem?
    intro position
    by_cases inside : position < cp.jars.length
    · simp [inside]
    · simp [inside]
  rw [mergedInOrder, filled, Merged.ofPlaces_eq, List.zipIdx_map, List.flatMap_map, numbered,
    List.flatMap_map]
  rfl

/-- What is collected is what the graph answers. -/
structure Merged.Agrees (merged : Merged) (g : Graph) : Prop where
  edges : merged.edges = g.edges
  outgoing : ∀ position name, merged.outgoing position name = g.edgesFrom position name
  unresolved : merged.unresolved = g.unresolved
  ambiguous : merged.ambiguous = g.ambiguous
  dependencies : ∀ position,
    (List.range g.classpath.jars.length).filter (merged.uses position) = g.dependencies position
  dependents : ∀ position,
    (List.range g.classpath.jars.length).filter (merged.usedBy position) = g.dependents position

/-- Between the edges of their places, a JAR uses another one if an edge leads from it to the other. -/
theorem any_placed (position other : Nat) :
    ((List.range cp.jars.length).flatMap fun place =>
        (edgesOf cp boundary place).map (place, ·)).any (fun (place, e) =>
          e.isCrossJar && place == position && e.resolution.providerIndex? == some other) = true ↔
      position ≠ other ∧ ∃ e ∈ (build cp boundary).edges,
        e.sourceJar = position ∧ e.resolution.provider? = some (.listed other) := by
  simp only [List.any_eq_true, List.mem_flatMap, List.mem_map, Prod.exists, Prod.mk.injEq, build,
    Bool.and_eq_true, beq_iff_eq, Edge.isCrossJar, Resolution.providerIndex?_eq_some_iff]
  constructor
  · rintro ⟨place, e, ⟨place', inside, e', member, rfl, rfl⟩, ⟨crosses, rfl⟩, provided⟩
    have source := sourceJar_of_mem_edgesOf member
    rw [Resolution.providerIndex?_eq_some_iff.mpr provided, Option.any_some, decide_eq_true_eq,
      source] at crosses
    exact ⟨crosses.symm, e', ⟨place', inside, member⟩, source, provided⟩
  · rintro ⟨different, e, ⟨place, inside, member⟩, rfl, provided⟩
    have source := sourceJar_of_mem_edgesOf member
    refine ⟨place, e, ⟨place, inside, e, member, rfl, rfl⟩, ⟨?_, source.symm⟩, provided⟩
    rw [Resolution.providerIndex?_eq_some_iff.mpr provided, Option.any_some, decide_eq_true_eq]
    exact different.symm

theorem search_agrees [cp.Listed] : (Merged.search ((List.range cp.jars.length).flatMap fun position =>
    (edgesOf cp boundary position).map (position, ·))).Agrees (build cp boundary) := by
  have edges : ((List.range cp.jars.length).flatMap fun position =>
      (edgesOf cp boundary position).map (position, ·)).map Prod.snd = (build cp boundary).edges := by
    simp [build, List.map_flatMap, Function.comp_def]
  refine ⟨edges, ?_, ?_, ?_, ?_, ?_⟩
  · intro position name
    rw [Merged.search, edges]
    rfl
  · rw [Merged.search, edges]
    rfl
  · rw [Merged.search, edges]
    rfl
  · intro position
    refine List.Pairwise.eq_of_mem_iff (List.pairwise_lt_range.sublist List.filter_sublist)
      (dependencies_ascending _ position) fun other => ?_
    rw [List.mem_filter, mem_dependencies_iff, Merged.search, any_placed, uses_build,
      List.mem_range]
    refine and_iff_right_of_imp ?_
    rintro ⟨e, -, uses⟩
    exact uses.provider_lt
  · intro position
    refine List.Pairwise.eq_of_mem_iff (List.pairwise_lt_range.sublist List.filter_sublist)
      (dependents_ascending _ position) fun other => ?_
    rw [List.mem_filter, mem_dependents_iff, Merged.search, any_placed, uses_build,
      List.mem_range]
    refine and_iff_right_of_imp ?_
    rintro ⟨e, -, uses⟩
    exact uses.user_lt

/-- Whatever the limit and the schedule, the graph is the same. -/
theorem schedule_agrees (cp : Classpath) [cp.Listed] (boundary : Option PlatformList) {limit : Nat}
    (positive : 0 < limit) (schedule : TaskGroup.Schedule limit cp.jars.length) :
    (mergedInOrder cp boundary schedule.order).Agrees (build cp boundary) := by
  rw [mergedInOrder_eq (schedule.order_perm positive)]
  exact search_agrees

end

end ClasspathAudit.Graph
