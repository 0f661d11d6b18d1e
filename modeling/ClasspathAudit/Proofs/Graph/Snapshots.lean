import ClasspathAudit.Graph.Snapshot
import ClasspathAudit.Proofs.Graph.JarUsage
import ClasspathAudit.Proofs.Text.Split

/-!
The graph at the level of JARs loses no reference. Links are found again by one text that joins their
kind and their two ends; whatever the names are, each reference is counted once, in a link of its kind,
and where no JAR has a bar in its name, in the link of its own ends.
-/

namespace ClasspathAudit

open Text

theorem LinkKind.text_unbarred (kind : LinkKind) : '|' ∉ kind.text.toList := by
  cases kind <;> decide

theorem LinkKind.text_injective {kind other : LinkKind} (same : kind.text = other.text) :
    kind = other := by
  cases kind <;> cases other
  case uses.uses | unresolved.unresolved => rfl
  all_goals exact absurd same (by decide)

namespace Snapshot

/-- What a link is found again by. -/
def joined (source target : String) (kind : LinkKind) : String :=
  kind.text ++ "|" ++ source ++ "|" ++ target

/-- The text that a link is found again by. -/
def key (link : SnapshotLink) : String := joined link.source link.target link.kind

section

variable {source target source' target' : String} {kind kind' : LinkKind}

theorem splitFirst?_joined (source target : String) (kind : LinkKind) :
    splitFirst? '|' (joined source target kind).toList =
      some (kind.text.toList, source.toList ++ '|' :: target.toList) := by
  have text : (joined source target kind).toList =
      kind.text.toList ++ '|' :: (source.toList ++ '|' :: target.toList) := by simp [joined]
  rw [text, splitFirst?_append kind.text_unbarred]

theorem kind_eq_of_joined (same : joined source target kind = joined source' target' kind') :
    kind = kind' := by
  have parts := splitFirst?_joined source target kind
  rw [same, splitFirst?_joined, Option.some.injEq, Prod.mk.injEq] at parts
  exact LinkKind.text_injective (String.toList_inj.mp parts.1.symm)

/-- Where no source has a bar, the text tells all that it is made of. -/
theorem joined_injective (unbarred : '|' ∉ source.toList) (unbarred' : '|' ∉ source'.toList)
    (same : joined source target kind = joined source' target' kind') :
    source = source' ∧ target = target' ∧ kind = kind' := by
  have kinds := kind_eq_of_joined same
  have parts := splitFirst?_joined source target kind
  rw [same, splitFirst?_joined, Option.some.injEq, Prod.mk.injEq] at parts
  have ends := congrArg (splitFirst? '|') parts.2
  rw [splitFirst?_append unbarred, splitFirst?_append unbarred', Option.some.injEq,
    Prod.mk.injEq] at ends
  exact ⟨String.toList_inj.mp ends.1.symm, String.toList_inj.mp ends.2.symm, kinds⟩

theorem joined_eq_iff (unbarred : '|' ∉ source.toList) (unbarred' : '|' ∉ source'.toList) :
    joined source target kind = joined source' target' kind' ↔
      source = source' ∧ target = target' ∧ kind = kind' := by
  refine ⟨joined_injective unbarred unbarred', ?_⟩
  rintro ⟨rfl, rfl, rfl⟩
  rfl

/-- A reference is counted in the first link with its text, or in a new one at the end. -/
theorem count_cases (source target : String) (kind : LinkKind) (links : List SnapshotLink) :
    (∃ before link after, links = before ++ link :: after ∧ key link = joined source target kind ∧
      count source target kind links =
        before ++ { link with references := link.references + 1 } :: after) ∨
    ((∀ link ∈ links, key link ≠ joined source target kind) ∧
      count source target kind links = links ++ [⟨source, target, kind, 1⟩]) := by
  induction links with
  | nil => exact .inr ⟨by simp, rfl⟩
  | cons first links ih =>
    by_cases found : key first = joined source target kind
    · refine .inl ⟨[], first, links, rfl, found, ?_⟩
      rw [count]
      exact if_pos found
    · have step : count source target kind (first :: links) =
          first :: count source target kind links := by
        rw [count]
        exact if_neg found
      rcases ih with ⟨before, link, after, rfl, same, counted⟩ | ⟨fresh, counted⟩
      · exact .inl ⟨first :: before, link, after, rfl, same, by rw [step, counted]; rfl⟩
      · exact .inr ⟨List.forall_mem_cons.mpr ⟨found, fresh⟩, by rw [step, counted]; rfl⟩

end

/-- How many references the links of a kind stand for. -/
def total (kind : LinkKind) (links : List SnapshotLink) : Nat :=
  ((links.filter (·.kind = kind)).map SnapshotLink.references).sum

/-- A link stands for the references with its text, and is named as one of them. -/
structure StandsFor (references : List (String × String × LinkKind)) (link : SnapshotLink) : Prop where
  arises : (link.source, link.target, link.kind) ∈ references
  counted : link.references =
    references.countP fun (source, target, kind) => joined source target kind = key link

/-- The links of the references that were counted. -/
structure Tallies (references : List (String × String × LinkKind)) (links : List SnapshotLink) :
    Prop where
  total : ∀ kind, total kind links = references.countP (·.2.2 = kind)
  apart : (links.map key).Nodup
  each : ∀ link ∈ links, StandsFor references link
  /-- Every reference has a link with its text. -/
  found : ∀ source target kind, (source, target, kind) ∈ references →
    joined source target kind ∈ links.map key

theorem total_append (kind : LinkKind) (front back : List SnapshotLink) :
    total kind (front ++ back) = total kind front + total kind back := by
  simp [total]

theorem total_cons (kind : LinkKind) (link : SnapshotLink) (links : List SnapshotLink) :
    total kind (link :: links) =
      (if link.kind = kind then link.references else 0) + total kind links := by
  rw [total, List.filter_cons]
  split <;> simp_all [total]

section

variable {references : List (String × String × LinkKind)} {links before after : List SnapshotLink}
variable {link : SnapshotLink} {source target : String} {kind : LinkKind}

theorem StandsFor.other (stands : StandsFor references link)
    (other : key link ≠ joined source target kind) :
    StandsFor (references ++ [(source, target, kind)]) link := by
  refine ⟨List.mem_append_left _ stands.arises, ?_⟩
  rw [List.countP_append, ← stands.counted, List.countP_singleton, if_neg, Nat.add_zero]
  simpa using other.symm

theorem StandsFor.again (stands : StandsFor references link)
    (same : key link = joined source target kind) :
    StandsFor (references ++ [(source, target, kind)])
      { link with references := link.references + 1 } := by
  refine ⟨List.mem_append_left _ stands.arises, ?_⟩
  have kept : key { link with references := link.references + 1 } = key link := rfl
  rw [kept, List.countP_append, ← stands.counted, List.countP_singleton, if_pos]
  simpa using same.symm

/-- One more reference is counted in the only link with its text. -/
theorem Tallies.again (tallies : Tallies references (before ++ link :: after))
    (same : key link = joined source target kind) :
    Tallies (references ++ [(source, target, kind)])
      (before ++ { link with references := link.references + 1 } :: after) := by
  have kinds : link.kind = kind := kind_eq_of_joined same
  have keys := tallies.apart
  rw [List.map_append, List.map_cons] at keys
  have others : ∀ other ∈ before ++ after, key other ≠ joined source target kind := by
    rw [List.nodup_middle, List.nodup_cons, ← List.map_append, same] at keys
    intro other member equal
    exact keys.1 (List.mem_map.mpr ⟨other, member, equal⟩)
  obtain ⟨front, here, back⟩ : (∀ other ∈ before, StandsFor references other) ∧
      StandsFor references link ∧ ∀ other ∈ after, StandsFor references other := by
    simpa only [List.forall_mem_append, List.forall_mem_cons] using tallies.each
  refine ⟨?_, ?_, ?_, ?_⟩
  · intro kind'
    have counted := tallies.total kind'
    rw [total_append, total_cons] at counted ⊢
    rw [List.countP_append, List.countP_singleton, ← counted, kinds]
    simp only [decide_eq_true_eq]
    split <;> omega
  · rw [List.map_append, List.map_cons]
    exact keys
  · rw [List.forall_mem_append] at others
    rw [List.forall_mem_append, List.forall_mem_cons]
    exact ⟨fun other member => (front other member).other (others.1 other member), here.again same,
      fun other member => (back other member).other (others.2 other member)⟩
  · intro source' target' kind' member
    have texts : (before ++ { link with references := link.references + 1 } :: after).map key =
        (before ++ link :: after).map key := by
      rw [List.map_append, List.map_append]
      rfl
    rw [texts]
    rcases List.mem_append.mp member with earlier | new
    · exact tallies.found source' target' kind' earlier
    · cases List.mem_singleton.mp new
      exact List.mem_map.mpr ⟨link, by simp, same⟩

/-- A reference whose text is new has a link of its own. -/
theorem Tallies.first (tallies : Tallies references links)
    (fresh : ∀ link ∈ links, key link ≠ joined source target kind) :
    Tallies (references ++ [(source, target, kind)]) (links ++ [⟨source, target, kind, 1⟩]) := by
  have unseen : references.countP (fun (source', target', kind') =>
      joined source' target' kind' = joined source target kind) = 0 := by
    rw [List.countP_eq_zero]
    rintro ⟨source', target', kind'⟩ member same
    obtain ⟨link, inside, known⟩ := List.mem_map.mp (tallies.found source' target' kind' member)
    rw [decide_eq_true_eq] at same
    exact fresh link inside (known.trans same)
  refine ⟨?_, ?_, ?_, ?_⟩
  · intro kind'
    rw [total_append, tallies.total, List.countP_append, List.countP_singleton, total_cons]
    simp only [decide_eq_true_eq]
    rfl
  · rw [List.map_append, List.map_singleton, List.nodup_append]
    refine ⟨tallies.apart, List.nodup_singleton _, ?_⟩
    intro known member new last
    rw [List.mem_singleton] at last
    obtain ⟨link, inside, rfl⟩ := List.mem_map.mp member
    rw [last]
    exact fresh link inside
  · rw [List.forall_mem_append, List.forall_mem_singleton]
    refine ⟨fun link member => (tallies.each link member).other (fresh link member), ?_, ?_⟩
    · exact List.mem_append_right _ (List.mem_singleton_self _)
    · rw [List.countP_append, List.countP_singleton, if_pos (by simp [key])]
      exact (congrArg (· + 1) unseen).symm
  · intro source' target' kind' member
    rw [List.map_append, List.mem_append]
    rcases List.mem_append.mp member with earlier | new
    · exact .inl (tallies.found source' target' kind' earlier)
    · cases List.mem_singleton.mp new
      exact .inr (List.mem_singleton_self _)

theorem Tallies.count (tallies : Tallies references links) (source target : String)
    (kind : LinkKind) :
    Tallies (references ++ [(source, target, kind)]) (count source target kind links) := by
  rcases count_cases source target kind links with
    ⟨before, link, after, rfl, same, counted⟩ | ⟨fresh, counted⟩
  · rw [counted]
    exact tallies.again same
  · rw [counted]
    exact tallies.first fresh

end

/-- Counting the references one by one makes their links. -/
theorem tallies_foldl (references : List (String × String × LinkKind)) :
    Tallies references (references.foldl
      (fun links (source, target, kind) => Snapshot.count source target kind links) []) := by
  induction references using List.reverseRecOn with
  | nil => exact ⟨fun _ => rfl, .nil, by simp, by simp⟩
  | append_singleton references reference ih =>
    rw [List.foldl_append]
    exact ih.count ..

/-- What the snapshot counts an edge as: unresolved, a use of another JAR, or nothing. -/
inductive Counted (cp : Classpath) (e : Edge) : Option (String × String × LinkKind) → Prop where
  | unresolved : e.resolution.isUnresolved = true → e.isCrossJar = false →
      Counted cp e (some (jarName cp e.sourceJar, e.target, .unresolved))
  | uses {provider} : e.resolution.isUnresolved = false → e.isCrossJar = true →
      e.resolution.providerIndex? = some provider →
      Counted cp e (some (jarName cp e.sourceJar, jarName cp provider, .uses))
  | nothing : e.resolution.isUnresolved = false → e.isCrossJar = false → Counted cp e none

theorem counted_linkOf? (cp : Classpath) (e : Edge) : Counted cp e (linkOf? cp e) := by
  have provided : ∀ provider, e.resolution.isUnresolved = false →
      e.resolution.providerIndex? = some provider → Counted cp e (linkOf? cp e) := by
    intro provider resolved listed
    simp only [linkOf?, resolved, listed]
    split
    next own => exact .nothing resolved (by simp [Edge.isCrossJar, listed, own])
    next other => exact .uses resolved (by simp [Edge.isCrossJar, listed, other]) listed
  obtain ⟨source, sourceJar, target, resolution⟩ := e
  match resolution with
  | .platform => exact .nothing rfl rfl
  | .unresolved => exact .unresolved rfl rfl
  | .resolved (.listed provider) => exact provided provider rfl rfl
  | .resolved (.unlisted _) => exact .nothing rfl rfl
  | .ambiguous provider _ => exact provided provider rfl rfl

/-- How many edges are counted as a reference of some sort. -/
theorem countP_filterMap_linkOf? {cp : Classpath} {edges : List Edge}
    (sort : String × String × LinkKind → Bool) {told : Edge → Bool}
    (agrees : ∀ e ∈ edges, ∀ reference, Counted cp e reference →
      reference.any sort = told e) :
    (edges.filterMap (linkOf? cp)).countP sort = edges.countP told := by
  rw [List.countP_filterMap]
  refine List.countP_congr fun e member => ?_
  rw [← agrees e member _ (counted_linkOf? cp e)]
  cases linkOf? cp e <;> simp

end Snapshot

def SnapshotNode.id : SnapshotNode → String
  | .jar name _ _ _ _ => name
  | .missing name => name

def SnapshotNode.isJar : SnapshotNode → Bool
  | .jar _ _ _ _ _ => true
  | .missing _ => false

section

variable {α : Type} [DecidableEq α]

/-- In a part of a list, items come in the order of their first occurrence in the whole. -/
theorem idxOf_lt_of_filter (test : α → Bool) (items : List α) {a b : α} (passes : test a = true)
    (passes' : test b = true) (before : (items.filter test).idxOf a < (items.filter test).idxOf b) :
    items.idxOf a < items.idxOf b := by
  induction items with
  | nil => exact absurd before (Nat.lt_irrefl _)
  | cons item items ih =>
    rw [List.filter_cons] at before
    by_cases kept : test item = true
    · rw [if_pos kept] at before
      rw [List.idxOf_cons, List.idxOf_cons] at before ⊢
      grind
    · rw [if_neg kept] at before
      have other : item ≠ a := fun same => kept (same ▸ passes)
      have other' : item ≠ b := fun same => kept (same ▸ passes')
      rw [List.idxOf_cons_ne _ other, List.idxOf_cons_ne _ other']
      exact Nat.succ_lt_succ (ih before)

/-- Items freed of repetition come in the order of their first occurrence. -/
theorem eraseDups_idxOf (items : List α) :
    items.eraseDups.Pairwise fun a b => items.idxOf a < items.idxOf b := by
  -- each step goes on with the items that differ from the first
  induction size : items.length using Nat.strong_induction_on generalizing items with
  | _ n ih =>
    cases items with
    | nil => simp
    | cons first items =>
      have shorter : (items.filter fun other => !other == first).length < n := by
        rw [← size, List.length_cons]
        exact Nat.lt_succ_of_le (List.length_filter_le _ _)
      have differ : ∀ item ∈ (items.filter fun other => !other == first).eraseDups,
          first ≠ item := by
        intro item member same
        rw [List.mem_eraseDups, List.mem_filter] at member
        simp [same] at member
      rw [List.eraseDups_cons, List.pairwise_cons]
      refine ⟨?_, (ih _ shorter _ rfl).imp_of_mem ?_⟩
      · intro item member
        rw [List.idxOf_cons_self, List.idxOf_cons_ne _ (differ item member)]
        exact Nat.succ_pos _
      · intro a b here there before
        rw [List.idxOf_cons_ne _ (differ a here), List.idxOf_cons_ne _ (differ b there)]
        refine Nat.succ_lt_succ (idxOf_lt_of_filter _ _ ?_ ?_ before)
        · simpa using (differ a here).symm
        · simpa using (differ b there).symm

end

namespace Graph

/-- The name of a JAR by its position. -/
def nameAt? (jars : List Jar) (position : Nat) : Option String :=
  jars[position]?.map Jar.displayName

/-- Whether an edge is one of the references that a link stands for. -/
def joins (jars : List Jar) (link : SnapshotLink) (e : Edge) : Bool :=
  nameAt? jars e.sourceJar = some link.source &&
    match link.kind with
    | .unresolved => e.resolution.isUnresolved && e.target = link.target
    | .uses => e.isCrossJar && e.resolution.providerIndex?.bind (nameAt? jars) = some link.target

/-- The names of the classes that nothing provides, edge by edge. -/
def missingNames (g : Graph) : List String := g.unresolved.map Edge.target

/-- A snapshot has a node for each JAR and for each missing class, and counts every reference between
them once. -/
structure Conserves (g : Graph) (jars : List Jar) (snapshot : Snapshot) : Prop where
  /-- JARs in the order of the classpath, then missing classes in the order of their first edges. -/
  nodes : ∃ missing : List String, snapshot.nodes =
      (jars.zipIdx.map fun (jar, position) => .jar jar.displayName jar.origin
        (g.classpath.classesOf (.listed position)).length jar.moduleName jar.unreadable) ++
      missing.map .missing ∧
    missing.Nodup ∧ (∀ name, name ∈ missing ↔
      ∃ e ∈ g.edges, e.resolution = .unresolved ∧ e.target = name) ∧
    missing.Pairwise fun a b => g.missingNames.idxOf a < g.missingNames.idxOf b
  unresolved : Snapshot.total .unresolved snapshot.links = g.unresolved.length
  uses : Snapshot.total .uses snapshot.links = g.edges.countP Edge.isCrossJar
  positive : ∀ link ∈ snapshot.links, 1 ≤ link.references
  sources : ∀ link ∈ snapshot.links, ∃ node ∈ snapshot.nodes,
    node.id = link.source ∧ node.isJar = true
  targets : ∀ link ∈ snapshot.links, ∃ node ∈ snapshot.nodes,
    node.id = link.target ∧ (node.isJar = true ↔ link.kind = .uses)
  apart : (snapshot.links.map fun link => (link.source, link.target, link.kind)).Nodup
  /-- What stands in a link is told by its names, if no JAR has a bar in its own. -/
  counted : (∀ jar ∈ jars, '|' ∉ jar.displayName.toList) →
    ∀ link ∈ snapshot.links, link.references = g.edges.countP (joins jars link)

section

variable {jars : List Jar} {release : Int} {boundary : Option PlatformList} {e : Edge}

theorem nameAt?_eq_some {position : Nat} (release : Int) (inside : position < jars.length) :
    nameAt? jars position = some (Snapshot.jarName (Classpath.new jars release) position) := by
  have here : jars[position]? = some jars[position] := List.getElem?_eq_getElem inside
  simp [nameAt?, Snapshot.jarName, Classpath.jar?, Classpath.new, here]

theorem exists_jarName {position : Nat} (inside : position < jars.length) :
    ∃ jar ∈ jars, jar.displayName = Snapshot.jarName (Classpath.new jars release) position := by
  have named := nameAt?_eq_some release inside
  obtain ⟨jar, here, name⟩ := Option.map_eq_some_iff.mp named
  exact ⟨jar, List.mem_of_getElem? here, name⟩

/-- What the snapshot counts an edge as has the names of its JARs, which are on the classpath. -/
theorem named_of_counted (member : e ∈ (build (Classpath.new jars release) boundary).edges)
    {source target : String} {kind : LinkKind}
    (counted : Snapshot.Counted (Classpath.new jars release) e (some (source, target, kind))) :
    (∃ jar ∈ jars, jar.displayName = source) ∧
      match kind with
      | .unresolved => e.resolution = .unresolved ∧ e.target = target
      | .uses => ∃ jar ∈ jars, jar.displayName = target := by
  cases counted with
  | unresolved unresolved own =>
    exact ⟨exists_jarName (sourceJar_lt member), Resolution.isUnresolved_iff.mp unresolved, rfl⟩
  | uses resolved other provided =>
    obtain ⟨position, inside, same⟩ :=
      provider_listed member (Resolution.providerIndex?_eq_some_iff.mp provided)
    cases same
    exact ⟨exists_jarName (sourceJar_lt member), exists_jarName inside⟩

/-- A link joins the edges that are counted under its names. -/
theorem joins_of_counted (member : e ∈ (build (Classpath.new jars release) boundary).edges)
    {reference : Option (String × String × LinkKind)} (link : SnapshotLink)
    (counted : Snapshot.Counted (Classpath.new jars release) e reference) :
    reference.any (fun (source, target, kind) =>
      source = link.source ∧ target = link.target ∧ kind = link.kind) = joins jars link e := by
  have named : nameAt? jars e.sourceJar = _ := nameAt?_eq_some release (sourceJar_lt member)
  obtain ⟨source, target, kind, references⟩ := link
  cases counted with
  | unresolved unresolved own =>
    cases kind <;> simp [joins, named, unresolved, own]
  | uses resolved other provided =>
    obtain ⟨position, inside, same⟩ :=
      provider_listed member (Resolution.providerIndex?_eq_some_iff.mp provided)
    cases same
    have named' : nameAt? jars _ = _ := nameAt?_eq_some release inside
    cases kind <;> simp [joins, named, named', resolved, other, provided]
  | nothing resolved own =>
    cases kind <;> simp [joins, resolved, own]

theorem snapshot_tallies (g : Graph) :
    Snapshot.Tallies (g.edges.filterMap (Snapshot.linkOf? g.classpath)) g.snapshot.links :=
  Snapshot.tallies_foldl _

theorem mem_missingNames {g : Graph} {name : String} :
    name ∈ g.missingNames ↔ ∃ e ∈ g.edges, e.resolution = .unresolved ∧ e.target = name := by
  simp only [missingNames, unresolved, List.mem_map, List.mem_filter, and_assoc,
    Resolution.isUnresolved_iff]

/-- Every link is named as an edge that it counts. -/
theorem named_of_link {link : SnapshotLink}
    (inside : link ∈ (build (Classpath.new jars release) boundary).snapshot.links) :
    (∃ jar ∈ jars, jar.displayName = link.source) ∧
      match link.kind with
      | .unresolved => link.target ∈ (build (Classpath.new jars release) boundary).missingNames
      | .uses => ∃ jar ∈ jars, jar.displayName = link.target := by
  have arises := ((snapshot_tallies _).each link inside).arises
  obtain ⟨e, member, counted⟩ := List.mem_filterMap.mp arises
  obtain ⟨fromJar, toNode⟩ := named_of_counted member (counted ▸ Snapshot.counted_linkOf? _ e)
  obtain ⟨source, target, kind, references⟩ := link
  refine ⟨fromJar, ?_⟩
  cases kind with
  | unresolved => exact mem_missingNames.mpr ⟨e, member, toNode⟩
  | uses => exact toNode

theorem exists_node {jar : Jar} (member : jar ∈ jars) :
    ∃ node ∈ (build (Classpath.new jars release) boundary).snapshot.nodes,
      node.id = jar.displayName ∧ node.isJar = true := by
  obtain ⟨position, here⟩ := List.getElem?_of_mem member
  refine ⟨_, List.mem_append_left _ (List.mem_map.mpr ⟨(jar, position), ?_, rfl⟩), rfl, rfl⟩
  exact List.mem_zipIdx_iff_getElem?.mpr here

theorem missing_mem {g : Graph} {name : String} (missing : name ∈ g.missingNames) :
    .missing name ∈ g.snapshot.nodes :=
  List.mem_append_right _ (List.mem_map.mpr ⟨name, List.mem_eraseDups.mpr missing, rfl⟩)

/-- The snapshot of a graph conserves its references. -/
theorem snapshot_conserves (jars : List Jar) (release : Int) (boundary : Option PlatformList) :
    Conserves (build (Classpath.new jars release) boundary) jars
      (build (Classpath.new jars release) boundary).snapshot where
  nodes := ⟨_, rfl, (eraseDups_idxOf _).imp (fun before same => absurd before (by simp [same])),
    fun _ => List.mem_eraseDups.trans mem_missingNames, eraseDups_idxOf _⟩
  unresolved := by
    rw [(snapshot_tallies _).total, unresolved, ← List.countP_eq_length_filter]
    refine Snapshot.countP_filterMap_linkOf? _ fun e _ reference counted => ?_
    cases counted <;> simp [*]
  uses := by
    rw [(snapshot_tallies _).total]
    refine Snapshot.countP_filterMap_linkOf? _ fun e _ reference counted => ?_
    cases counted <;> simp [*]
  positive link inside := by
    have stands := (snapshot_tallies _).each link inside
    rw [stands.counted]
    exact List.countP_pos_iff.mpr ⟨_, stands.arises, by simp [Snapshot.key]⟩
  sources link inside := by
    obtain ⟨⟨jar, member, named⟩, -⟩ := named_of_link inside
    rw [← named]
    exact exists_node member
  targets link inside := by
    obtain ⟨-, toNode⟩ := named_of_link inside
    obtain ⟨source, target, kind, references⟩ := link
    cases kind with
    | unresolved => exact ⟨_, missing_mem toNode, rfl, by simp [SnapshotNode.isJar]⟩
    | uses =>
      obtain ⟨jar, member, named⟩ := toNode
      obtain ⟨node, there, id, isJar⟩ := exists_node member
      exact ⟨node, there, id.trans named, by simp [isJar]⟩
  apart := by
    refine List.Nodup.of_map (fun (source, target, kind) => Snapshot.joined source target kind) ?_
    rw [List.map_map]
    exact (snapshot_tallies _).apart
  counted unbarred link inside := by
    rw [((snapshot_tallies _).each link inside).counted]
    refine Snapshot.countP_filterMap_linkOf? _ fun e member reference counted => ?_
    rw [← joins_of_counted member link counted]
    obtain ⟨⟨jar, listed, named⟩, -⟩ := named_of_link inside
    cases reference with
    | none => rfl
    | some reference =>
      obtain ⟨⟨jar', listed', named'⟩, -⟩ := named_of_counted member counted
      refine decide_eq_decide.mpr (Snapshot.joined_eq_iff ?_ ?_)
      · exact named' ▸ unbarred jar' listed'
      · exact named ▸ unbarred jar listed

end

end Graph

end ClasspathAudit
