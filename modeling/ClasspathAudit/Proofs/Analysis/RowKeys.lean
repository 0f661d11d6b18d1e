import ClasspathAudit.Analysis.Pipeline
import ClasspathAudit.Proofs.Analysis.Keys
import ClasspathAudit.Proofs.Diff.KeyedRows
import ClasspathAudit.Proofs.Graph.ResolutionPolicy

/-!
The keys of the rows that the analyses make. A table has a row for some of the JARs, for some names or
for some sayings of classes, and its keys are made of what there is one of; from the key of a row the
cells that say what the row is about can be read back.
-/

namespace ClasspathAudit.Analysis

/-- Rows that their keys tell apart; `read` tells from its key what a row has in some columns. -/
structure Told (columns : List Nat) (read : String → List Cell) (rows : List Row) : Prop where
  keyed : Row.Keyed rows
  cells : ∀ row ∈ rows, columns.map row.cell = read row.key

/-- An analysis of a legible classpath gives rows that are told by their keys. -/
def Tells (a : Analysis) (columns : List Nat) (read : String → List Cell) : Prop :=
  ∀ jars release boundary, (Classpath.new jars release).Legible →
    ∃ rows, a.rows (.build (.new jars release) boundary) = .ok rows ∧ Told columns read rows

/-- The whole key in one cell. -/
def whole (key : String) : List Cell := [.string key]

/-- The parts of a key in a cell each. -/
def parts (count : Nat) (key : String) : List Cell := (partsOf count key).map .string

theorem row_whole (severity : Severity) (key : String) (cells : List Cell) :
    (row severity key (.string key :: cells)).key = key ∧
      [0].map (row severity key (.string key :: cells)).cell = whole key :=
  ⟨rfl, rfl⟩

section

variable {α : Type} {items : List α} {f : α → Option Row}
variable {columns : List Nat} {read : String → List Cell}

theorem keys_sublist (key : α → String)
    (made : ∀ item ∈ items, ∀ row, f item = some row → row.key = key item) :
    ((items.filterMap f).map Row.key).Sublist (items.map key) := by
  induction items with
  | nil => exact .slnil
  | cons item items ih =>
    rw [List.forall_mem_cons] at made
    cases given : f item with
    | none =>
      rw [List.filterMap_cons_none given]
      exact (ih made.2).cons _
    | some row =>
      rw [List.filterMap_cons_some given, List.map_cons, List.map_cons, made.1 row given]
      exact (ih made.2).cons_cons _

theorem Told.filterMap (key : α → String) (apart : (items.map key).Nodup)
    (named : ∀ item ∈ items, key item ≠ "")
    (made : ∀ item ∈ items, ∀ row, f item = some row →
      row.key = key item ∧ columns.map row.cell = read (key item)) :
    Told columns read (items.filterMap f) := by
  have keys := keys_sublist key fun item member row given => (made item member row given).1
  refine ⟨⟨?_, keys.nodup apart⟩, ?_⟩
  · intro row member
    obtain ⟨item, inside, given⟩ := List.mem_filterMap.mp member
    rw [(made item inside row given).1]
    exact named item inside
  · intro row member
    obtain ⟨item, inside, given⟩ := List.mem_filterMap.mp member
    obtain ⟨same, cells⟩ := made item inside row given
    rw [same, cells]

theorem Told.map {f : α → Row} (key : α → String) (apart : (items.map key).Nodup)
    (named : ∀ item ∈ items, key item ≠ "")
    (made : ∀ item ∈ items, (f item).key = key item ∧
      columns.map (f item).cell = read (key item)) :
    Told columns read (items.map f) := by
  rw [← List.filterMap_eq_map']
  refine .filterMap key apart named ?_
  intro item member row given
  obtain rfl := Option.some.inj given
  exact made item member

/-- Rows for what items say: for each item, some of its sayings. -/
theorem Told.flatMap {β : Type} {f : α → β → Option Row} (sayings : α → List β)
    (key : α → β → String)
    (apart : (items.flatMap fun item => (sayings item).map (key item)).Nodup)
    (named : ∀ item ∈ items, ∀ saying ∈ sayings item, key item saying ≠ "")
    (made : ∀ item ∈ items, ∀ saying ∈ sayings item, ∀ row, f item saying = some row →
      row.key = key item saying ∧ columns.map row.cell = read (key item saying)) :
    Told columns read (items.flatMap fun item => (sayings item).filterMap (f item)) := by
  -- the items paired with their sayings in one list
  have rows : (items.flatMap fun item => (sayings item).filterMap (f item)) =
      (items.flatMap fun item => (sayings item).map (item, ·)).filterMap fun pair =>
        f pair.1 pair.2 := by
    rw [List.filterMap_flatMap]
    simp only [List.filterMap_map]
    rfl
  have keys : (items.flatMap fun item => (sayings item).map (item, ·)).map
      (fun pair => key pair.1 pair.2) = items.flatMap fun item => (sayings item).map (key item) := by
    rw [List.map_flatMap]
    simp only [List.map_map]
    rfl
  have member : ∀ pair ∈ items.flatMap fun item => (sayings item).map (item, ·),
      pair.1 ∈ items ∧ pair.2 ∈ sayings pair.1 := by
    intro pair listed
    obtain ⟨item, inside, said⟩ := List.mem_flatMap.mp listed
    obtain ⟨saying, here, rfl⟩ := List.mem_map.mp said
    exact ⟨inside, here⟩
  rw [rows]
  refine .filterMap (fun pair => key pair.1 pair.2) (keys ▸ apart) ?_ ?_
  · exact fun pair listed => named _ (member pair listed).1 _ (member pair listed).2
  · exact fun pair listed => made _ (member pair listed).1 _ (member pair listed).2

end

section

variable {jars : List Jar} {release : Int} {boundary : Option PlatformList}

/-- No two of some of the JARs have the same name. -/
theorem displayNames_apart {α : Type} {items : List α} (jar : α → Jar)
    (legible : (Classpath.new jars release).Legible) (among : (items.map jar).Sublist jars) :
    (items.map fun item => (jar item).displayName).Nodup := by
  have distinct : (jars.map Jar.displayName).Nodup := legible.jarsApart
  have apart := (among.map Jar.displayName).nodup distinct
  rwa [List.map_map, Function.comp_def] at apart

theorem jars_among :
    ((Analysis.jars (.build (.new jars release) boundary)).map Prod.fst).Sublist jars := by
  have all : (Analysis.jars (.build (.new jars release) boundary)).map Prod.fst = jars :=
    List.zipIdx_map_fst 0 jars
  rw [all]

theorem tells_jarFiles : Tells jarFiles [0] whole := by
  intro jars release boundary legible
  exact ⟨_, rfl, .map _ (displayNames_apart Prod.fst legible jars_among)
    (fun entry _ => entry.1.displayName_ne_empty) fun _ _ => row_whole ..⟩

theorem tells_classVersions : Tells classVersions [0] whole := by
  intro jars release boundary legible
  refine ⟨_, rfl, .filterMap _ (displayNames_apart Prod.fst legible jars_among)
    (fun entry _ => entry.1.displayName_ne_empty) ?_⟩
  intro entry _ row given
  dsimp only at given
  split at given
  · cases given
  · obtain rfl := Option.some.inj given
    exact row_whole ..

theorem tells_packages : Tells packages [0] whole := by
  intro jars release boundary legible
  refine ⟨_, rfl, .filterMap _ (displayNames_apart Prod.fst legible jars_among)
    (fun entry _ => entry.1.displayName_ne_empty) ?_⟩
  intro entry _ row given
  dsimp only at given
  split at given
  · cases given
  · obtain rfl := Option.some.inj given
    exact row_whole ..

theorem tells_jarDependencies : Tells jarDependencies [0] whole := by
  intro jars release boundary legible
  refine ⟨_, rfl, .map _ (displayNames_apart Prod.fst legible ?_)
    (fun entry _ => entry.1.displayName_ne_empty) fun _ _ => row_whole ..⟩
  exact (List.filter_sublist.map Prod.fst).trans jars_among

theorem tells_jarManifests : Tells jarManifests [0] whole := by
  intro jars release boundary legible
  refine ⟨_, rfl, .map _ (displayNames_apart id legible ?_)
    (fun jar _ => jar.displayName_ne_empty) fun _ _ => row_whole ..⟩
  rw [List.map_id]
  exact List.filter_sublist

theorem tells_duplicateClasses : Tells duplicateClasses [0] whole := by
  intro jars release boundary legible
  have names := Classpath.map_name_duplicates (.new jars release)
  refine ⟨_, rfl, .map Classpath.Duplicate.name ?_ ?_ fun _ _ => row_whole ..⟩
  · exact names ▸ (Classpath.nodup_keys _).filter _
  · intro d member
    have listed : d.name ∈ (Classpath.new jars release).duplicates.map Classpath.Duplicate.name :=
      List.mem_map_of_mem member
    rw [names] at listed
    exact legible.className_ne_empty d.name (List.mem_of_mem_filter listed)

theorem tells_platformShadowed : Tells platformShadowed [0] whole := by
  intro jars release boundary legible
  cases boundary with
  | none => exact ⟨[], rfl, ⟨by simp, by simp⟩, by simp⟩
  | some boundary =>
    refine ⟨_, rfl, .map id ?_ ?_ fun _ _ => row_whole ..⟩
    · rw [List.map_id]
      exact (Classpath.nodup_keys _).filter _
    · intro name member
      exact legible.className_ne_empty name (List.mem_of_mem_filter member)

theorem tells_duplicateResources : Tells duplicateResources [0] whole := by
  intro jars release boundary legible
  refine ⟨_, rfl, .filterMap id ?_ ?_ ?_⟩
  · rw [List.map_id]
    exact nodup_sortedSet _
  · intro path member
    simp only [mem_sortedSet, List.mem_map, List.mem_flatMap] at member
    obtain ⟨_, ⟨jar, inside, resource, found, rfl⟩, rfl⟩ := member
    exact legible.resourceNamed jar inside resource (List.mem_of_mem_filter found)
  · intro path _ row given
    dsimp only at given
    split at given
    · cases given
    · obtain rfl := Option.some.inj given
      exact row_whole ..

theorem tells_artifactVersions : Tells artifactVersions [0] whole := by
  intro jars release boundary legible
  have names : (artifactUses (.build (.new jars release) boundary)).map ArtifactUse.name =
      sortedSet ((jars.filter fun jar => !jar.artifactName.isEmpty && !jar.version.isEmpty).map
        Jar.artifactName) := by
    rw [artifactUses, List.map_map]
    exact List.map_id _
  refine ⟨_, rfl, .map ArtifactUse.name ?_ ?_ fun _ _ => row_whole ..⟩
  · refine (List.filter_sublist.map _).nodup ?_
    rw [names]
    exact nodup_sortedSet _
  · intro use member
    have listed := List.mem_map_of_mem (f := ArtifactUse.name) (List.mem_of_mem_filter member)
    rw [names, mem_sortedSet, List.mem_map] at listed
    obtain ⟨jar, found, same⟩ := listed
    have filled := (List.mem_filter.mp found).2
    rw [← same]
    intro empty
    simp [empty] at filled

/-- A name that several JARs provide is that of a class. -/
theorem ambiguous_target_mem {e : Edge}
    (member : e ∈ (Graph.build (.new jars release) boundary).ambiguous) :
    e.target ∈ (Classpath.new jars release).classNames := by
  obtain ⟨edge, several⟩ := List.mem_filter.mp member
  rw [(Graph.mem_build_edges edge).2, Graph.resolveIn.eq_def] at several
  split at several
  · cases several
  split at several
  · cases several
  split at several
  · cases several
  · cases several
  next provider others _ provided =>
    have listed : provider ∈ (Classpath.new jars release).providersOf e.target :=
      provided ▸ List.mem_cons_self
    exact Classpath.mem_classNames listed

theorem tells_ambiguousDependencies : Tells ambiguousDependencies [0] whole := by
  intro jars release boundary legible
  refine ⟨_, rfl, .filterMap id ?_ ?_ ?_⟩
  · rw [List.map_id]
    exact nodup_sortedSet _
  · intro name member
    rw [mem_sortedSet, List.mem_map] at member
    obtain ⟨e, listed, rfl⟩ := member
    exact legible.className_ne_empty e.target (ambiguous_target_mem listed)
  · intro name _ row given
    obtain ⟨first, -, rfl⟩ := Option.map_eq_some_iff.mp given
    exact row_whole ..

theorem tells_splitPackages :
    Tells splitPackages [0] fun key =>
      ((partsOf 1 key).take 1).map fun package => .string (ClassName.displayPackage package) := by
  intro jars release boundary legible
  have taken : ∀ package ∈ (Classpath.new jars release).packages, ∀ rest,
      partsOf 1 (keyOf [package, rest]) = [package, rest] := by
    intro package member rest
    refine partsOf_keyOf [_] ?_ rest
    simp [legible.package_unbarred package member]
  refine ⟨_, rfl, .filterMap (fun package => keyOf [package, String.intercalate ","
    ((Classpath.new jars release).displayNames ((Classpath.new jars release).holdersOf package))])
    ?_ ?_ ?_⟩
  · refine (Classpath.nodup_keys _).map_on ?_
    intro package member package' member' same
    have first := congrArg (partsOf 1) same
    rw [taken package member, taken package' member'] at first
    exact (List.cons.inj first).1
  · exact fun package _ => keyOf_ne_empty package _ _
  · intro package member row given
    dsimp only at given
    split at given
    · cases given
    · obtain rfl := Option.some.inj given
      refine ⟨rfl, ?_⟩
      rw [taken package member]
      rfl

theorem tells_classHierarchy : Tells classHierarchy [0, 1] (parts 1) := by
  intro jars release boundary legible
  refine ⟨_, rfl, .filterMap (fun entry => keyOf [entry.1.displayName, entry.2.2.name]) ?_ ?_ ?_⟩
  · refine List.Nodup.sublist (List.filter_sublist.map _) (List.pairwise_map.mpr ?_)
    refine (List.pairwise_map.mp (classes_apart legible)).imp_of_mem ?_
    intro entry entry' member member' apart same
    have taken := congrArg (partsOf 1) same
    rw [partsOf_class legible (List.mem_of_getElem? (mem_classes.mp member).1),
      partsOf_class legible (List.mem_of_getElem? (mem_classes.mp member').1)] at taken
    injection taken with jar rest
    injection rest with name _
    exact apart (congrArg₂ Prod.mk jar name)
  · exact fun entry _ => keyOf_ne_empty entry.1.displayName _ _
  · intro entry member row given
    dsimp only at given
    split at given
    · cases given
    · obtain rfl := Option.some.inj given
      have listed := (mem_classes.mp (List.mem_of_mem_filter member)).1
      refine ⟨rfl, ?_⟩
      rw [parts, partsOf_class legible (List.mem_of_getElem? listed)]
      rfl

/-- The edges have the keys of what the classes refer to. -/
theorem edge_keys : (Graph.build (.new jars release) boundary).edges.map (fun e =>
      keyOf [jarName (.build (.new jars release) boundary) e.sourceJar, e.source.name, e.target]) =
    (classes (.build (.new jars release) boundary)).flatMap fun (jar, _, c) =>
      c.references.map fun target => keyOf [jar.displayName, c.name, target] := by
  have referred : (Graph.build (.new jars release) boundary).edges.map
      (fun e => (e.sourceJar, e.source, e.target)) = Graph.referrals jars (max release baseRelease) :=
    Graph.build_referred
  have keys := congrArg (List.map fun referral : Nat × JavaClass × String =>
    keyOf [jarName (.build (.new jars release) boundary) referral.1, referral.2.1.name, referral.2.2])
    referred
  rw [List.map_map] at keys
  refine keys.trans ?_
  rw [Graph.referrals, List.map_flatMap, classes_eq, List.flatMap_assoc]
  refine List.flatMap_congr fun entry member => ?_
  rw [List.map_flatMap, List.flatMap_map]
  refine List.flatMap_congr fun c _ => ?_
  rw [List.map_map]
  refine List.map_congr_left fun target _ => ?_
  simp only [Function.comp_apply, jarName_listed (List.mem_zipIdx_iff_getElem?.mp member)]

theorem tells_unresolvedDependencies : Tells unresolvedDependencies [0, 1, 2] (parts 2) := by
  intro jars release boundary legible
  refine ⟨_, rfl, .map (fun e => keyOf [jarName (.build (.new jars release) boundary) e.sourceJar,
    e.source.name, e.target]) ?_ ?_ ?_⟩
  · refine (List.filter_sublist.map _).nodup ?_
    rw [edge_keys]
    exact sayings_apart legible boundary _ legible.referencesApart
  · exact fun e _ => keyOf_ne_empty _ e.source.name _
  · intro e member
    obtain ⟨⟨jar, listed, shown⟩, -⟩ := Graph.mem_build_edges (List.mem_of_mem_filter member)
    refine ⟨rfl, ?_⟩
    have named : jarName (.build (.new jars release) boundary) e.sourceJar = jar.displayName :=
      jarName_listed listed
    rw [parts, named, partsOf_saying legible (List.mem_of_getElem? listed) shown, ← named]
    rfl

/-- The texts of the references that are looked up differ. -/
theorem distinctRefs_apart (c : JavaClass) : ((distinctRefs c).map MemberRef.text).Nodup := by
  suffices ∀ (refs kept : List MemberRef), (kept.map MemberRef.text).Nodup →
      ((refs.foldl (fun kept ref =>
        if kept.any fun k => k.text = ref.text then kept else kept ++ [ref]) kept).map
          MemberRef.text).Nodup from
    this c.memberRefs [] .nil
  intro refs kept apart
  induction refs generalizing kept with
  | nil => exact apart
  | cons ref refs ih =>
    rw [List.foldl_cons]
    apply ih
    split
    · exact apart
    next fresh =>
      rw [List.map_append, List.nodup_append']
      refine ⟨apart, List.nodup_singleton _, ?_⟩
      simp only [List.any_eq_true, decide_eq_true_eq, not_exists, not_and] at fresh
      intro text known single
      obtain ⟨k, member, rfl⟩ := List.mem_map.mp known
      exact fresh k member (by simpa using single)

theorem tells_missingMembers : Tells missingMembers [0, 1, 3] (parts 2) := by
  intro jars release boundary legible
  refine ⟨_, rfl, .flatMap (fun entry : Jar × Nat × JavaClass => distinctRefs entry.2.2)
    (fun entry ref => keyOf [entry.1.displayName, entry.2.2.name, ref.text]) ?_ ?_ ?_⟩
  · refine (List.filter_sublist.flatMap _).nodup ?_
    have apart := sayings_apart legible boundary (fun c => (distinctRefs c).map MemberRef.text)
      fun _ _ c _ => distinctRefs_apart c
    simpa only [List.map_map, Function.comp_def] using apart
  · exact fun entry _ ref _ => keyOf_ne_empty entry.1.displayName _ _
  · intro entry member ref _ row given
    obtain ⟨listed, shown⟩ := mem_classes.mp (List.mem_of_mem_filter member)
    obtain ⟨problem, -, rfl⟩ := Option.map_eq_some_iff.mp given
    refine ⟨rfl, ?_⟩
    rw [parts, partsOf_saying legible (List.mem_of_getElem? listed) shown]
    rfl

end

end ClasspathAudit.Analysis
