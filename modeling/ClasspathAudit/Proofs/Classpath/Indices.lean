import ClasspathAudit.Proofs.Classpath.Providers
import ClasspathAudit.Proofs.Model.EffectiveClasses

/-!
The indices of a classpath beside what its JARs show. The indices are filled in one pass; read back,
each of them answers as a search through the JARs does.
-/

namespace ClasspathAudit

section

variable {α β : Type} {test : α → Bool} {items : List α} {position : Nat}

/-- The positions of the items that pass a test, ascending. -/
def positions (test : α → Bool) (items : List α) : List Nat :=
  (items.zipIdx.filter fun (item, _) => test item).map Prod.snd

theorem mem_positions :
    position ∈ positions test items ↔ ∃ item, items[position]? = some item ∧ test item = true := by
  simp only [positions, List.mem_map, List.mem_filter, List.mem_zipIdx_iff_getElem?, Prod.exists]
  constructor
  · rintro ⟨item, position', ⟨here, passes⟩, rfl⟩
    exact ⟨item, here, passes⟩
  · rintro ⟨item, here, passes⟩
    exact ⟨item, position, ⟨here, passes⟩, rfl⟩

theorem lt_of_mem_positions (member : position ∈ positions test items) : position < items.length := by
  obtain ⟨item, here, -⟩ := mem_positions.mp member
  exact (List.getElem?_eq_some_iff.mp here).1

theorem positions_ascending : (positions test items).Pairwise (· < ·) := by
  have sublist : (positions test items).Sublist (items.zipIdx.map Prod.snd) :=
    List.filter_sublist.map Prod.snd
  refine List.Pairwise.sublist sublist ?_
  rw [List.zipIdx_map_snd]
  exact List.pairwise_lt_range'

theorem positions_map (f : α → β) (test : β → Bool) :
    positions test (items.map f) = positions (fun item => test (f item)) items := by
  simp only [positions, List.zipIdx_map, List.filter_map, List.map_map]
  rfl

/-- Read back, the positions give the items that pass, in their order. -/
theorem filterMap_positions : (positions test items).filterMap (items[·]?) = items.filter test := by
  rw [positions, List.filterMap_map]
  have each : ∀ entry ∈ items.zipIdx.filter fun (item, _) => test item,
      ((items[·]?) ∘ Prod.snd) entry = some entry.1 := by
    intro entry member
    exact List.mem_zipIdx_iff_getElem?.mp (List.mem_of_mem_filter member)
  rw [List.filterMap_congr each, List.filterMap_eq_map']
  conv_rhs => rw [← List.zipIdx_map_fst 0 items]
  rw [List.filter_map]
  rfl

/-- A list of positions is told by its order and its members. -/
theorem eq_positions {found : List Nat} (ascending : found.Pairwise (· < ·))
    (members : ∀ position, position ∈ found ↔ ∃ item, items[position]? = some item ∧ test item = true) :
    found = positions test items := by
  have same : found.Perm (positions test items) := by
    rw [List.perm_ext_iff_of_nodup (ascending.imp Nat.ne_of_lt) (positions_ascending.imp Nat.ne_of_lt)]
    intro position
    rw [members, mem_positions]
  refine same.eq_of_pairwise ?_ ascending positions_ascending
  intro a b _ _ below above
  omega

theorem head?_positions :
    (positions test items).head? = (items.zipIdx.find? fun (item, _) => test item).map Prod.snd := by
  rw [positions, List.head?_map, List.head?_filter]

theorem findSome?_eq_bind (f : α → Option β) (items : List α) :
    items.findSome? f = (items.find? fun item => (f item).isSome).bind f := by
  induction items with
  | nil => rfl
  | cons first items ih =>
    rw [List.findSome?_cons, List.find?_cons]
    cases answer : f first with
    | none => simpa [answer] using ih
    | some b => simp [answer]

end

namespace Classpath

/-- The lists of an index ascend up to a last position, and none is empty. -/
structure Ordered (index : Std.TreeMap String (List Nat)) (last : Nat) : Prop where
  ascending : ∀ key, (index.getD key []).Pairwise (· < ·)
  bounded : ∀ key, ∀ position ∈ index.getD key [], position ≤ last
  filled : ∀ key, key ∈ index → index.getD key [] ≠ []

section

variable {index : Std.TreeMap String (List Nat)} {key : String} {position : Nat}

theorem Ordered.addPosition (ordered : Ordered index position) :
    Ordered (addPosition index key position) position := by
  rw [Classpath.addPosition]
  split
  · exact ordered
  next fresh =>
    rw [List.contains_iff_mem] at fresh
    refine ⟨?_, ?_, ?_⟩
    · intro key'
      rw [Std.TreeMap.getD_insert]
      split
      · refine List.pairwise_append.mpr
          ⟨ordered.ascending key, List.pairwise_singleton _ _, ?_⟩
        intro known member _ single
        rw [List.mem_singleton.mp single]
        have upTo := ordered.bounded key known member
        have other : known ≠ position := fun same => fresh (same ▸ member)
        omega
      · exact ordered.ascending key'
    · intro key' position'
      rw [Std.TreeMap.getD_insert]
      split
      · rw [List.mem_append, List.mem_singleton]
        rintro (known | rfl)
        · exact ordered.bounded key position' known
        · exact Nat.le_refl position'
      · exact ordered.bounded key' position'
    · intro key' member
      rw [Std.TreeMap.getD_insert]
      split
      · simp
      next other =>
        exact ordered.filled key' ((Std.TreeMap.mem_insert.mp member).resolve_left other)

theorem Ordered.addPositions {keys : JavaClass → String} {classes : List JavaClass}
    (ordered : Ordered index position) :
    Ordered (classes.foldl (fun index c => Classpath.addPosition index (keys c) position) index)
      position := by
  induction classes generalizing index with
  | nil => exact ordered
  | cons c classes ih => exact ih ordered.addPosition

theorem Ordered.next {last : Nat} (ordered : Ordered index last) : Ordered index (last + 1) :=
  ⟨ordered.ascending, fun key position member => Nat.le_succ_of_le (ordered.bounded key position member),
    ordered.filled⟩

/-- The JARs come by position, so that every list stays in order. -/
theorem Ordered.indexFrom {keys : JavaClass → String} {effective : List (List JavaClass)}
    (ordered : Ordered index position) :
    ∃ last, Ordered ((effective.zipIdx position).foldl (fun index (classes, position) =>
      classes.foldl (fun index c => Classpath.addPosition index (keys c) position) index) index)
      last := by
  induction effective generalizing index position with
  | nil => exact ⟨position, ordered⟩
  | cons classes effective ih => exact ih ordered.addPositions.next

theorem indexBy_ordered (keys : JavaClass → String) (effective : List (List JavaClass)) :
    ∃ last, Ordered (indexBy keys effective) last := by
  have empty : Ordered {} 0 := by
    refine ⟨?_, ?_, ?_⟩
    · intro key
      rw [Std.TreeMap.getD_emptyc]
      exact .nil
    · intro key position member
      rw [Std.TreeMap.getD_emptyc] at member
      cases member
    · intro key member
      exact absurd member Std.TreeMap.not_mem_emptyc
  exact empty.indexFrom

/-- The index of a key is the search for JARs with a class of that key. -/
theorem getD_indexBy (keys : JavaClass → String) (effective : List (List JavaClass)) (key : String) :
    (indexBy keys effective).getD key [] =
      positions (fun classes => classes.any fun c => keys c = key) effective := by
  obtain ⟨last, ordered⟩ := indexBy_ordered keys effective
  apply eq_positions (ordered.ascending key)
  intro position
  rw [mem_indexBy]
  simp only [List.any_eq_true, decide_eq_true_eq]

theorem mem_indexBy_keys (keys : JavaClass → String) (effective : List (List JavaClass))
    (key : String) :
    key ∈ (indexBy keys effective).keys ↔ (indexBy keys effective).getD key [] ≠ [] := by
  rw [Std.TreeMap.mem_keys]
  constructor
  · obtain ⟨last, ordered⟩ := indexBy_ordered keys effective
    exact ordered.filled key
  · intro filled
    by_contra absent
    exact filled (Std.TreeMap.getD_eq_fallback absent)

theorem keys_ascending {β : Type} (index : Std.TreeMap String β) : index.keys.Pairwise (· < ·) := by
  refine (Std.TreeMap.ordered_keys (t := index)).imp ?_
  intro a b below
  exact compareOfLessAndEq_eq_lt.mp below

/-- A JAR is added to the index of modules under a name of its own that is new there. -/
theorem getElem?_addModule (index : Std.TreeMap String Nat) (jar : Jar) (position : Nat)
    (name : String) :
    (if jar.moduleName.isEmpty then index else index.insertIfNew jar.moduleName position)[name]? =
      index[name]?.or (if jar.moduleName = name && !name.isEmpty then some position else none) := by
  by_cases same : jar.moduleName = name
  · subst same
    by_cases empty : jar.moduleName.isEmpty
    · simp [empty]
    · rw [if_neg empty, Std.TreeMap.getElem?_insertIfNew]
      by_cases known : jar.moduleName ∈ index
      · obtain ⟨first, present⟩ := Option.isSome_iff_exists.mp
          (Std.TreeMap.isSome_getElem?_iff_mem.mpr known)
        rw [if_neg (fun added => added.2 known), present, Option.some_or]
      · rw [if_pos ⟨Std.ReflCmp.compare_self, known⟩, Std.TreeMap.getElem?_eq_none known]
        simp [empty]
  · have other : ¬ (jar.moduleName = name && !name.isEmpty) = true := by simp [same]
    rw [if_neg other, Option.or_none]
    split
    · rfl
    · rw [Std.TreeMap.getElem?_insertIfNew, if_neg]
      exact fun added => same (Std.LawfulEqCmp.eq_of_compare added.1)

/-- The index of modules keeps the first JAR of each name. -/
theorem getElem?_modules (jars : List Jar) (start : Nat) (index : Std.TreeMap String Nat)
    (name : String) :
    ((jars.zipIdx start).foldl (fun index (jar, position) =>
      if jar.moduleName.isEmpty then index else index.insertIfNew jar.moduleName position)
        index)[name]? =
      index[name]?.or
        ((jars.findIdx? fun jar => jar.moduleName = name && !name.isEmpty).map (· + start)) := by
  induction jars generalizing start index with
  | nil => simp
  | cons jar jars ih =>
    rw [List.zipIdx_cons, List.foldl_cons, ih, getElem?_addModule, Option.or_assoc,
      List.findIdx?_cons]
    split
    · simp
    · rw [Option.none_or, Option.map_map]
      congr 2
      funext position
      simp [Nat.add_comm, Nat.add_left_comm]

end

section

variable {jars : List Jar} {release : Int} {position : Nat} {name : String}

theorem classesOf_listed {jar : Jar} (listed : jars[position]? = some jar) :
    (new jars release).classesOf (.listed position) = jar.effective (max release baseRelease) := by
  simp [classesOf, new, listed]

/-- The classes of a JAR by name, from the index and from the JAR. -/
theorem classAt?_listed (keyed : ∀ jar ∈ jars, jar.Keyed) {jar : Jar}
    (listed : jars[position]? = some jar) (target : Int) :
    (new jars release).classAt? (.listed position) name target = jar.effectiveClass? name target := by
  have here : (new jars release).jar? position = some jar := listed
  rw [classAt?]
  split
  next same =>
    rw [classesOf_listed listed, (keyed jar (List.mem_of_getElem? listed)).find?_effective, same]
    rfl
  next => rw [here, Option.bind_some]

theorem providersOf_eq (keyed : ∀ jar ∈ jars, jar.Keyed) :
    (new jars release).providersOf name =
      positions (fun jar => (jar.effectiveClass? name (max release baseRelease)).isSome) jars := by
  rw [providersOf, new, getD_indexBy, positions_map]
  apply eq_positions positions_ascending
  intro position
  rw [mem_positions]
  constructor
  · rintro ⟨jar, listed, provided⟩
    refine ⟨jar, listed, ?_⟩
    rw [← (keyed jar (List.mem_of_getElem? listed)).any_effective]
    exact provided
  · rintro ⟨jar, listed, provided⟩
    refine ⟨jar, listed, ?_⟩
    rw [(keyed jar (List.mem_of_getElem? listed)).any_effective]
    exact provided

theorem holdersOf_eq (package : String) : (new jars release).holdersOf package =
    positions (fun jar => (jar.effective (max release baseRelease)).any (·.package = package)) jars := by
  rw [holdersOf, new, getD_indexBy, positions_map]

theorem providersOf_lt (provides : position ∈ (new jars release).providersOf name) :
    position < jars.length := by
  rw [providersOf, new, getD_indexBy, positions_map] at provides
  exact lt_of_mem_positions provides

theorem moduleJar?_eq : (new jars release).moduleJar? name =
    jars.findIdx? fun jar => jar.moduleName = name && !name.isEmpty := by
  rw [moduleJar?, new, getElem?_modules, Std.TreeMap.getElem?_emptyc]
  simp

/-- The class of a name is that of the first JAR with one. -/
theorem class?_eq (keyed : ∀ jar ∈ jars, jar.Keyed) : (new jars release).class? name =
    jars.zipIdx.findSome? fun (jar, position) =>
      (jar.effectiveClass? name (max release baseRelease)).map (·, position) := by
  rw [findSome?_eq_bind, class?, providersOf_eq keyed, head?_positions]
  simp only [Option.isSome_map]
  cases first : jars.zipIdx.find? fun (jar, _) =>
      (jar.effectiveClass? name (max release baseRelease)).isSome with
  | none => rfl
  | some found =>
    obtain ⟨jar, position⟩ := found
    have listed := List.mem_zipIdx_iff_getElem?.mp (List.mem_of_find?_eq_some first)
    have shown : (new jars release).classIn? (.listed position) name =
        jar.effectiveClass? name (max release baseRelease) := classAt?_listed keyed listed _
    simp [shown, Option.map_eq_bind]

theorem mem_classNames_iff (keyed : ∀ jar ∈ jars, jar.Keyed) :
    name ∈ (new jars release).classNames ↔
      ∃ jar ∈ jars, (jar.effectiveClass? name (max release baseRelease)).isSome = true := by
  have listed : name ∈ (new jars release).classNames ↔ (new jars release).providersOf name ≠ [] :=
    mem_indexBy_keys JavaClass.name _ name
  rw [listed, providersOf_eq keyed]
  constructor
  · intro filled
    obtain ⟨position, member⟩ := List.exists_mem_of_ne_nil _ filled
    obtain ⟨jar, here, provides⟩ := mem_positions.mp member
    exact ⟨jar, List.mem_of_getElem? here, provides⟩
  · rintro ⟨jar, member, provides⟩
    obtain ⟨position, here⟩ := List.mem_iff_getElem?.mp member
    exact List.ne_nil_of_mem (mem_positions.mpr ⟨jar, here, provides⟩)

/-- What is said of a name that several JARs provide. -/
def duplicateOf? (cp : Classpath) (name : String) : Option Duplicate :=
  match cp.providersOf name with
  | winner :: shadowed@(_ :: _) =>
    let hashOf (index : Nat) := (cp.classIn? (.listed index) name).map JavaClass.hash
    some { name, winner, shadowed
           identical := shadowed.all fun index => hashOf index == hashOf winner }
  | _ => none

theorem toList_eq (index : Std.TreeMap String (List Nat)) :
    index.toList = index.keys.map fun key => (key, index.getD key []) := by
  rw [← Std.TreeMap.map_fst_toList_eq_keys, List.map_map]
  conv_lhs => rw [← List.map_id index.toList]
  apply List.map_congr_left
  rintro ⟨key, listed⟩ member
  rw [Std.TreeMap.mem_toList_iff_getElem?_eq_some] at member
  simp [Std.TreeMap.getD_eq_getD_getElem?, member]

theorem duplicates_eq (cp : Classpath) : cp.duplicates = cp.classNames.filterMap cp.duplicateOf? := by
  rw [duplicates, toList_eq, List.filterMap_map]
  rfl

theorem duplicateOf?_eq_some_iff {cp : Classpath} {d : Duplicate} :
    cp.duplicateOf? name = some d ↔
      d.name = name ∧ cp.providersOf name = d.winner :: d.shadowed ∧ d.shadowed ≠ [] ∧
        d.identical = d.shadowed.all fun index =>
          (cp.classIn? (.listed index) name).map JavaClass.hash ==
            (cp.classIn? (.listed d.winner) name).map JavaClass.hash := by
  rw [duplicateOf?]
  split
  next winner second rest provided =>
    rw [provided]
    constructor
    · intro told
      cases told
      exact ⟨rfl, rfl, by simp, rfl⟩
    · rintro ⟨rfl, same, -, identical⟩
      obtain ⟨rfl, others⟩ := List.cons.inj same
      simp only [others, ← identical]
  next unshared =>
    constructor
    · intro told
      cases told
    · rintro ⟨-, provided, shared, -⟩
      obtain ⟨second, rest, several⟩ := List.exists_cons_of_ne_nil shared
      exact absurd (several ▸ provided) (unshared d.winner second rest)

theorem isSome_duplicateOf? {cp : Classpath} :
    (cp.duplicateOf? name).isSome = true ↔ 2 ≤ (cp.providersOf name).length := by
  rw [duplicateOf?]
  split
  next provided => simp [provided]
  next unshared =>
    match provided : cp.providersOf name with
    | [] => simp
    | [_] => simp
    | winner :: second :: rest => exact absurd provided (unshared winner second rest)

theorem map_name_duplicates (cp : Classpath) : cp.duplicates.map Duplicate.name =
    cp.classNames.filter fun name => 2 ≤ (cp.providersOf name).length := by
  rw [duplicates_eq, List.map_filterMap, ← List.filterMap_eq_filter]
  congr 1
  funext name
  cases told : cp.duplicateOf? name with
  | none =>
    have unshared : ¬ 2 ≤ (cp.providersOf name).length := by simp [← isSome_duplicateOf?, told]
    simp [Option.guard, unshared]
  | some d =>
    have shared : 2 ≤ (cp.providersOf name).length := by simp [← isSome_duplicateOf?, told]
    simp [shared, (duplicateOf?_eq_some_iff.mp told).1]

theorem mem_duplicates {cp : Classpath} {d : Duplicate} (member : d ∈ cp.duplicates) :
    cp.duplicateOf? d.name = some d := by
  rw [duplicates_eq, List.mem_filterMap] at member
  obtain ⟨name, -, told⟩ := member
  rw [(duplicateOf?_eq_some_iff.mp told).1]
  exact told

/-- The winner agrees with all others exactly if all agree with each other. -/
theorem identical_iff (keyed : ∀ jar ∈ jars, jar.Keyed) {d : Duplicate}
    (member : d ∈ (new jars release).duplicates) :
    d.identical = true ↔ ∀ jar ∈ jars, ∀ jar' ∈ jars, ∀ c c',
      jar.effectiveClass? d.name (max release baseRelease) = some c →
      jar'.effectiveClass? d.name (max release baseRelease) = some c' → c.hash = c'.hash := by
  obtain ⟨-, provided, -, identical⟩ := duplicateOf?_eq_some_iff.mp (mem_duplicates member)
  rw [providersOf_eq keyed] at provided
  have hashes : ∀ position jar, jars[position]? = some jar →
      ((new jars release).classIn? (.listed position) d.name).map JavaClass.hash =
        (jar.effectiveClass? d.name (max release baseRelease)).map JavaClass.hash := by
    intro position jar listed
    rw [classIn?, classAt?_listed keyed listed]
    rfl
  rw [identical, List.all_eq_true]
  constructor
  · intro agree
    -- every provider has the hash of the winner
    have level : ∀ jar ∈ jars, ∀ c, jar.effectiveClass? d.name (max release baseRelease) = some c →
        some c.hash = ((new jars release).classIn? (.listed d.winner) d.name).map JavaClass.hash := by
      intro jar listed c shown
      obtain ⟨position, here⟩ := List.mem_iff_getElem?.mp listed
      have provides : position ∈ d.winner :: d.shadowed := by
        rw [← provided, mem_positions]
        exact ⟨jar, here, by rw [shown, Option.isSome_some]⟩
      have own := hashes position jar here
      rw [shown, Option.map_some] at own
      rw [← own]
      rcases List.mem_cons.mp provides with rfl | later
      · rfl
      · exact beq_iff_eq.mp (agree position later)
    intro jar listed jar' listed' c c' shown shown'
    exact Option.some.inj ((level jar listed c shown).trans (level jar' listed' c' shown').symm)
  · intro agree position later
    have shows : ∀ position ∈ d.winner :: d.shadowed, ∃ jar ∈ jars, ∃ c,
        jar.effectiveClass? d.name (max release baseRelease) = some c ∧
        ((new jars release).classIn? (.listed position) d.name).map JavaClass.hash = some c.hash := by
      intro position provides
      rw [← provided, mem_positions] at provides
      obtain ⟨jar, here, shown⟩ := provides
      obtain ⟨c, shown⟩ := Option.isSome_iff_exists.mp shown
      refine ⟨jar, List.mem_of_getElem? here, c, shown, ?_⟩
      rw [hashes position jar here, shown, Option.map_some]
    obtain ⟨jar, listed, c, shown, hash⟩ := shows position (List.mem_cons_of_mem _ later)
    obtain ⟨jar', listed', c', shown', hash'⟩ := shows d.winner List.mem_cons_self
    rw [hash, hash', agree jar listed jar' listed' c c' shown shown']
    exact beq_self_eq_true _

end

/-- What a search through the JARs at a release tells of a classpath. -/
structure Reflects (cp : Classpath) (jars : List Jar) (release : Int) : Prop where
  target : cp.release = release
  providers : ∀ name, cp.providersOf name =
    positions (fun jar => (jar.effectiveClass? name release).isSome) jars
  providing : ∀ name, (cp.providersOf name).filterMap cp.jar? =
    jars.filter fun jar => (jar.effectiveClass? name release).isSome
  winner : ∀ name, cp.class? name = jars.zipIdx.findSome? fun (jar, position) =>
    (jar.effectiveClass? name release).map (·, position)
  lookup : ∀ position jar, jars[position]? = some jar → ∀ name target,
    cp.classAt? (.listed position) name target = jar.effectiveClass? name target
  names_ascending : cp.classNames.Pairwise (· < ·)
  names : ∀ name, name ∈ cp.classNames ↔
    ∃ jar ∈ jars, (jar.effectiveClass? name release).isSome = true
  count : cp.classCount = cp.classNames.length
  holders : ∀ package, cp.holdersOf package =
    positions (fun jar => (jar.effective release).any (·.package = package)) jars
  /-- The classes that a JAR shows, by which its packages are told, are those it answers with. -/
  shown : ∀ jar ∈ jars, ∀ c, c ∈ jar.effective release ↔
    jar.effectiveClass? c.name release = some c
  modules : ∀ name, cp.moduleJar? name =
    jars.findIdx? fun jar => jar.moduleName = name && !name.isEmpty
  duplicates_ascending : (cp.duplicates.map Duplicate.name).Pairwise (· < ·)
  duplicates : ∀ name, name ∈ cp.duplicates.map Duplicate.name ↔
    2 ≤ (positions (fun jar => (jar.effectiveClass? name release).isSome) jars).length
  shadowing : ∀ d ∈ cp.duplicates, d.winner :: d.shadowed =
    positions (fun jar => (jar.effectiveClass? d.name release).isSome) jars
  identical : ∀ d ∈ cp.duplicates, d.identical = true ↔ ∀ jar ∈ jars, ∀ jar' ∈ jars, ∀ c c',
    jar.effectiveClass? d.name release = some c → jar'.effectiveClass? d.name release = some c' →
      c.hash = c'.hash

/-- The indices of a classpath answer as a search through its JARs does, at the release of the
classpath or the base, whichever is higher. -/
theorem new_reflects (jars : List Jar) (release : Int) (keyed : ∀ jar ∈ jars, jar.Keyed) :
    Reflects (new jars release) jars (max release 8) where
  target := rfl
  providers _ := providersOf_eq keyed
  providing name := by
    rw [providersOf_eq keyed]
    exact filterMap_positions
  winner _ := class?_eq keyed
  lookup _ _ listed _ target := classAt?_listed keyed listed target
  names_ascending := keys_ascending _
  names _ := mem_classNames_iff keyed
  count := rfl
  holders := holdersOf_eq
  shown jar listed _ := (keyed jar listed).mem_effective
  modules _ := moduleJar?_eq
  duplicates_ascending := by
    rw [map_name_duplicates]
    exact (keys_ascending _).sublist List.filter_sublist
  duplicates name := by
    rw [map_name_duplicates, List.mem_filter, decide_eq_true_eq, providersOf_eq keyed]
    refine ⟨And.right, fun several => ⟨?_, several⟩⟩
    obtain ⟨position, provides⟩ :=
      List.exists_mem_of_length_pos (Nat.lt_of_lt_of_le Nat.zero_lt_two several)
    obtain ⟨jar, here, shown⟩ := mem_positions.mp provides
    exact (mem_classNames_iff keyed).mpr ⟨jar, List.mem_of_getElem? here, shown⟩
  shadowing d member := by
    rw [← (duplicateOf?_eq_some_iff.mp (mem_duplicates member)).2.1]
    exact providersOf_eq keyed
  identical _ member := identical_iff keyed member

/-- A class of which the name and the hash tell all. -/
def stampedClass (name : String) (hash : UInt64) : JavaClass where
  name
  major := 52
  minor := 0
  access := ⟨0x21⟩
  superName := ClassName.object
  interfaces := []
  methods := []
  fields := []
  annotations := []
  references := []
  memberRefs := []
  hash
  size := 0
  degraded := false

/-- A JAR whose class has a second version from release 11 on, and a JAR with that version only. -/
def tiers : List Jar :=
  [((({ origin := "tiered.jar" } : Jar).addClass 8 (stampedClass "lib.Unit" 1)).addClass 11
      (stampedClass "lib.Unit" 2)).init,
    (({ origin := "flat.jar" } : Jar).addClass 8 (stampedClass "lib.Unit" 2)).init]

theorem new_reflects_tiers :
    (∀ jar ∈ tiers, jar.Keyed) ∧ Reflects (new tiers 11) tiers 11 := by
  have fresh : ∀ origin : String, ({ origin } : Jar).Keyed := by
    intro origin layer member
    cases member
  have keyed : ∀ jar ∈ tiers, jar.Keyed := by
    intro jar member
    rcases List.mem_pair.mp member with rfl | rfl
    · exact (((fresh _).addClass 8).addClass 11).init
    · exact ((fresh _).addClass 8).init
  exact ⟨keyed, new_reflects tiers 11 keyed⟩

end Classpath

end ClasspathAudit
