import ClasspathAudit.Assembly.ClassSpec
import ClasspathAudit.Proofs.Loading.EntryEffects

/-!
Classes seen at a target release, from the entries of an archive on. Entries are visited by name, so
the directory of release 10 comes before that of release 9, and layers come into being in that order;
what a lookup finds is still told by releases alone.
-/

namespace ClasspathAudit.Inspector

open Archive

/-- An entry opens and is read as a class without a failure. -/
def ParsesTo (entry : Entry) (c : JavaClass) : Prop :=
  ∃ bytes moduleInfo, entry.content = .ok bytes ∧ ClassFile.parse bytes = .accepted c moduleInfo

theorem ParsesTo.unique {entry : Entry} {c c' : JavaClass} (parses : ParsesTo entry c)
    (parses' : ParsesTo entry c') : c = c' := by
  obtain ⟨bytes, _, content, accepted⟩ := parses
  obtain ⟨bytes', _, content', accepted'⟩ := parses'
  rw [content] at content'
  cases content'
  rw [accepted] at accepted'
  cases accepted'
  rfl

/-- No two entries have one name, version directories are written in one way only, and every class
entry holds the class that its path names. -/
structure WellFormed (entries : List Entry) : Prop where
  distinct : entries.Pairwise fun a b => a.name ≠ b.name
  canonical : ∀ entry ∈ entries, CanonicalRelease entry.name
  parses : ∀ entry ∈ entries, ∀ release path, ClassEntry entry.name release path →
    ∃ c, ParsesTo entry c ∧ c.name = ClassName.external path

/-- Whether the entries hold a manifest that makes version directories count. -/
def declaresMultiRelease (entries : List Entry) : Bool :=
  entries.any fun entry => decide (entry.name = manifestPath) &&
    match entry.content with
    | .ok bytes => (ManifestText.parse bytes).isMultiRelease
    | .error _ => false

/-- The entry is one of a release for a class. -/
def StandsFor (entry : Entry) (release : Int) (name : String) : Prop :=
  ∃ path, ClassEntry entry.name release path ∧ ClassName.external path = name

/-- The entry is for the class, and its release counts at the target. -/
structure Visible (settings : LoaderSettings) (entries : List Entry) (name : String) (target : Int)
    (entry : Entry) (release : Int) : Prop where
  member : entry ∈ entries
  stands : StandsFor entry release name
  included : Included settings (declaresMultiRelease entries) release
  reached : release = baseRelease ∨ release ≤ target

/-- The visible entry of the highest release. Two paths may name one class, and of their entries the
last one by name counts. -/
structure Selected (settings : LoaderSettings) (entries : List Entry) (name : String) (target : Int)
    (entry : Entry) (release : Int) : Prop extends
    Visible settings entries name target entry release where
  highest : ∀ entry' release', Visible settings entries name target entry' release' →
    release' < release ∨ release' = release ∧ entry'.name ≤ entry.name

/-- The entries in the order in which they are visited. -/
def visited (entries : List Entry) : List Entry :=
  entries.mergeSort fun a b => decide (a.name ≤ b.name)

theorem mem_visited {entries : List Entry} {entry : Entry} :
    entry ∈ visited entries ↔ entry ∈ entries :=
  List.mem_mergeSort

theorem visited_ascending {entries : List Entry}
    (distinct : entries.Pairwise fun a b => a.name ≠ b.name) :
    (visited entries).Pairwise fun a b => a.name < b.name :=
  mergeSort_ascending distinct

/-- The visit does not depend on the order in which the archive lists its entries. -/
theorem visited_eq_of_perm {entries entries' : List Entry} (same : entries'.Perm entries)
    (distinct : entries.Pairwise fun a b => a.name ≠ b.name) : visited entries' = visited entries := by
  have distinct' := distinct.perm same.symm fun unequal => unequal.symm
  refine List.Perm.eq_of_pairwise ?_ (visited_ascending distinct') (visited_ascending distinct) ?_
  · intro a b _ _ below above
    exact absurd above (String.lt_asymm below)
  · exact (List.mergeSort_perm _ _).trans (same.trans (List.mergeSort_perm _ _).symm)

theorem addManifest_manifest (jar : Jar) (entries : List Entry) :
    (addManifest jar entries).manifest =
      match entries.find? fun entry => entry.name = manifestPath with
      | some { content := .ok bytes, .. } => ManifestText.parse bytes
      | _ => jar.manifest := by
  rw [addManifest]
  cases entries.find? fun entry => entry.name = manifestPath with
  | none => rfl
  | some entry =>
    obtain ⟨name, content⟩ := entry
    cases content <;> rfl

theorem addManifest_isMultiRelease {entries : List Entry} {jar : Jar}
    (distinct : entries.Pairwise fun a b => a.name ≠ b.name) (blank : jar.manifest = []) :
    (addManifest jar (visited entries)).isMultiRelease = declaresMultiRelease entries := by
  have silent : Manifest.isMultiRelease [] = false := by decide +kernel
  rw [Jar.isMultiRelease, addManifest_manifest, declaresMultiRelease, Bool.eq_iff_iff,
    List.any_eq_true, blank]
  cases found : (visited entries).find? fun entry => decide (entry.name = manifestPath) with
  | none =>
    have absent := List.find?_eq_none.mp found
    simp only [silent, Bool.false_eq_true, false_iff]
    rintro ⟨entry, member, holds⟩
    rw [Bool.and_eq_true] at holds
    exact absent entry (mem_visited.mpr member) holds.1
  | some entry =>
    have member := mem_visited.mp (List.mem_of_find?_eq_some found)
    have named : entry.name = manifestPath := by simpa using List.find?_some found
    have only : ∀ other ∈ entries, other.name = manifestPath → other = entry := by
      intro other inside same
      by_contra different
      have symmetric : Std.Symm fun a b : Entry => a.name ≠ b.name :=
        ⟨fun _ _ unequal => unequal.symm⟩
      exact distinct.forall inside member different (same.trans named.symm)
    obtain ⟨name, content⟩ := entry
    constructor
    · intro holds
      refine ⟨_, member, ?_⟩
      cases content with
      | ok bytes =>
        rw [Bool.and_eq_true, decide_eq_true_eq]
        exact ⟨named, holds⟩
      | error failure =>
        simp only [silent, Bool.false_eq_true] at holds
    · rintro ⟨other, inside, holds⟩
      rw [Bool.and_eq_true, decide_eq_true_eq] at holds
      obtain ⟨same, holds⟩ := holds
      obtain rfl := only other inside same
      cases content with
      | ok bytes => exact holds
      | error failure => cases holds

theorem answer?_eq_some_iff {settings : LoaderSettings} {multiRelease : Bool} {entries : List Entry}
    {entry : Entry} {release : Int} {name : String} {c : JavaClass}
    (fits : settings.maxRelease ≤ Text.wordMax) (formed : WellFormed entries)
    (member : entry ∈ entries) :
    answer? settings multiRelease release name entry = some c ↔
      StandsFor entry release name ∧ Included settings multiRelease release ∧ ParsesTo entry c := by
  constructor
  · intro answers
    obtain ⟨⟨release', found⟩, adds, same⟩ := Option.bind_eq_some_iff.mp answers
    simp only [Option.ite_none_right_eq_some, Option.some.injEq] at same
    obtain ⟨⟨rfl, rfl⟩, rfl⟩ := same
    rw [contribution?] at adds
    split at adds
    next release' full bytes part content =>
      split at adds
      · cases adds
      next ordinary =>
        obtain ⟨path, rfl, stands, included⟩ := classEntry_of_role (formed.canonical entry member) part
          (Bool.eq_false_iff.mpr ordinary)
        obtain ⟨c, parses, named⟩ := formed.parses entry member release' path stands
        obtain ⟨bytes', moduleInfo, content', accepted⟩ := id parses
        rw [content] at content'
        cases content'
        simp only [accepted, ClassFile.Parsed.class?, ClassFile.Parsed.failure?, Option.map_some,
          Option.isSome_none, Bool.false_and, Bool.false_eq_true, if_false, Option.some.injEq,
          Prod.mk.injEq] at adds
        obtain ⟨rfl, rfl⟩ := adds
        exact ⟨⟨path, stands, named.symm⟩, included, parses⟩
    next => cases adds
  · rintro ⟨⟨path, stands, rfl⟩, included, parses⟩
    obtain ⟨c', parses', named⟩ := formed.parses entry member release path stands
    obtain rfl := parses.unique parses'
    obtain ⟨bytes, moduleInfo, content, accepted⟩ := parses
    have part := role_of_classEntry fits stands included
    have ordinary : isModulePath path = false := by
      rw [Bool.eq_false_iff, ne_eq, isModulePath_iff]
      exact stands.ordinary
    rw [answer?, contribution?, part, content]
    simp [Text.dropEnding_append, ordinary, accepted, ClassFile.Parsed.class?,
      ClassFile.Parsed.failure?, named]

section

variable {settings : LoaderSettings} {nested : String → List UInt8 → Except Failure Jar}
variable {jar : Jar} {entries : List Entry}

/-- The record as it stands after the last entry. -/
def collected (settings : LoaderSettings) (nested : String → List UInt8 → Except Failure Jar)
    (jar : Jar) (entries : List Entry) : Jar :=
  let start := addManifest jar (visited entries)
  (visited entries).foldl (addEntry settings nested start.isMultiRelease)
    { start with coordinate := start.coordinate.or (embeddedCoordinate (visited entries)) }

theorem build_layers : (build settings nested jar entries).layers =
    (collected settings nested jar entries).init.layers := rfl

theorem build_resources : (build settings nested jar entries).resources =
    (collected settings nested jar entries).init.resources := rfl

theorem build_effectiveClass? (name : String) (target : Int) :
    (build settings nested jar entries).effectiveClass? name target =
      (collected settings nested jar entries).init.effectiveClass? name target := rfl

theorem addManifest_layers : (addManifest jar entries).layers = jar.layers := by
  rw [addManifest]
  split
  · split <;> rfl
  · rfl

theorem addManifest_resources : (addManifest jar entries).resources = jar.resources := by
  rw [addManifest]
  split
  · split <;> rfl
  · rfl

theorem collected_layered (bare : jar.layers = []) :
    Jar.Layered (collected settings nested jar entries).layers := by
  apply addEntries_layered
  rw [addManifest_layers, bare]
  exact ⟨.nil, fun layer member => absurd member List.not_mem_nil⟩

theorem classAt?_collected (distinct : entries.Pairwise fun a b => a.name ≠ b.name)
    (blank : jar.manifest = []) (bare : jar.layers = []) (release : Int) (name : String) :
    Jar.classAt? (collected settings nested jar entries).layers release name =
      lastAnswer? (answer? settings (declaresMultiRelease entries) release name)
        (visited entries) := by
  rw [collected, classAt?_addEntries, addManifest_isMultiRelease distinct blank,
    addManifest_layers, bare]
  exact Option.or_none

theorem answer?_eq_none_iff {multiRelease : Bool} {entry : Entry} {release : Int} {name : String}
    (fits : settings.maxRelease ≤ Text.wordMax) (formed : WellFormed entries)
    (member : entry ∈ entries) :
    answer? settings multiRelease release name entry = none ↔
      (StandsFor entry release name → ¬ Included settings multiRelease release) := by
  rw [← not_iff_not, ← ne_eq, Option.ne_none_iff_exists']
  push Not
  constructor
  · rintro ⟨c, answers⟩
    obtain ⟨stands, included, _⟩ := (answer?_eq_some_iff fits formed member).mp answers
    exact ⟨stands, included⟩
  · rintro ⟨stands, included⟩
    obtain ⟨path, entry, _⟩ := id stands
    obtain ⟨c, parses, _⟩ := formed.parses _ member release path entry
    exact ⟨c, (answer?_eq_some_iff fits formed member).mpr ⟨stands, included, parses⟩⟩

/-- Of the entries for a release, the last one by name stands for a class. -/
theorem classAt?_collected_eq_some_iff {release : Int} {name : String} {c : JavaClass}
    (fits : settings.maxRelease ≤ Text.wordMax) (formed : WellFormed entries)
    (blank : jar.manifest = []) (bare : jar.layers = []) :
    Jar.classAt? (collected settings nested jar entries).layers release name = some c ↔
      Included settings (declaresMultiRelease entries) release ∧
        ∃ entry ∈ entries, StandsFor entry release name ∧ ParsesTo entry c ∧
          ∀ entry' ∈ entries, StandsFor entry' release name → entry'.name ≤ entry.name := by
  rw [classAt?_collected formed.distinct blank bare,
    lastAnswer?_eq_some_iff (visited_ascending formed.distinct) fun _ _ => String.lt_asymm]
  constructor
  · rintro ⟨entry, member, answers, last⟩
    rw [mem_visited] at member
    obtain ⟨stands, included, parses⟩ := (answer?_eq_some_iff fits formed member).mp answers
    refine ⟨included, entry, member, stands, parses, ?_⟩
    intro entry' member' stands'
    by_contra above
    have silent := last entry' (mem_visited.mpr member') (String.not_le.mp above)
    exact (answer?_eq_none_iff fits formed member').mp silent stands' included
  · rintro ⟨included, entry, member, stands, parses, last⟩
    refine ⟨entry, mem_visited.mpr member, ?_, ?_⟩
    · exact (answer?_eq_some_iff fits formed member).mpr ⟨stands, included, parses⟩
    · intro entry' member' above
      rw [mem_visited] at member'
      refine (answer?_eq_none_iff fits formed member').mpr fun stands' _ => ?_
      exact String.not_le.mpr above (last entry' member' stands')

theorem classAt?_collected_eq_none_iff {release : Int} {name : String}
    (fits : settings.maxRelease ≤ Text.wordMax) (formed : WellFormed entries)
    (blank : jar.manifest = []) (bare : jar.layers = []) :
    Jar.classAt? (collected settings nested jar entries).layers release name = none ↔
      ∀ entry ∈ entries, StandsFor entry release name →
        ¬ Included settings (declaresMultiRelease entries) release := by
  rw [classAt?_collected formed.distinct blank bare, lastAnswer?_eq_none_iff]
  constructor
  · intro silent entry member
    exact (answer?_eq_none_iff fits formed member).mp (silent entry (mem_visited.mpr member))
  · intro silent entry member
    rw [mem_visited] at member
    exact (answer?_eq_none_iff fits formed member).mpr (silent entry member)

theorem build_effectiveClass?_eq_some_iff {name : String} {target : Int} {c : JavaClass}
    (fits : settings.maxRelease ≤ Text.wordMax) (formed : WellFormed entries)
    (blank : jar.manifest = []) (bare : jar.layers = []) :
    (build settings nested jar entries).effectiveClass? name target = some c ↔
      ∃ entry release, Selected settings entries name target entry release ∧ ParsesTo entry c := by
  rw [build_effectiveClass?, Jar.init_effectiveClass?_eq_some_iff (collected_layered bare)]
  simp only [classAt?_collected_eq_some_iff fits formed blank bare,
    classAt?_collected_eq_none_iff fits formed blank bare, Jar.countsAt, Bool.or_eq_true,
    decide_eq_true_eq]
  constructor
  · rintro ⟨release, reached, ⟨included, entry, member, stands, parses, last⟩, highest⟩
    refine ⟨entry, release, ⟨⟨member, stands, included, reached.symm⟩, ?_⟩, parses⟩
    intro entry' release' visible
    rcases lt_trichotomy release' release with below | rfl | above
    · exact .inl below
    · exact .inr ⟨rfl, last entry' visible.member visible.stands⟩
    · exact absurd visible.included
        (highest release' above visible.reached.symm entry' visible.member visible.stands)
  · rintro ⟨entry, release, selected, parses⟩
    refine ⟨release, selected.reached.symm,
      ⟨selected.included, entry, selected.member, selected.stands, parses, ?_⟩, ?_⟩
    · intro entry' member' stands'
      rcases selected.highest entry' release
        ⟨member', stands', selected.included, selected.reached⟩ with below | ⟨_, before⟩
      · exact absurd below (lt_irrefl release)
      · exact before
    · intro higher above reached entry' member' stands' included'
      rcases selected.highest entry' higher
        ⟨member', stands', included', reached.symm⟩ with below | ⟨same, _⟩
      · exact absurd below (lt_asymm above)
      · exact absurd same above.ne'

theorem build_effectiveClass?_eq_none_iff {name : String} {target : Int}
    (fits : settings.maxRelease ≤ Text.wordMax) (formed : WellFormed entries)
    (blank : jar.manifest = []) (bare : jar.layers = []) :
    (build settings nested jar entries).effectiveClass? name target = none ↔
      ∀ entry release, ¬ Visible settings entries name target entry release := by
  rw [build_effectiveClass?, Jar.init_effectiveClass?_eq_none_iff (collected_layered bare)]
  simp only [classAt?_collected_eq_none_iff fits formed blank bare, Jar.countsAt, Bool.or_eq_true,
    decide_eq_true_eq]
  constructor
  · intro silent entry release visible
    exact silent release visible.reached.symm entry visible.member visible.stands visible.included
  · intro silent release reached entry member stands included
    exact silent entry release ⟨member, stands, included, reached.symm⟩

theorem build_releases_of_single (formed : WellFormed entries) (blank : jar.manifest = [])
    (bare : jar.layers = []) (single : declaresMultiRelease entries = false) :
    (build settings nested jar entries).releases = [] := by
  rw [Jar.releases, build_layers, List.filter_eq_nil_iff]
  intro release listed
  obtain ⟨layer, inside, rfl⟩ := List.mem_map.mp listed
  rw [decide_eq_true_eq, not_lt]
  rcases Jar.mem_update (Jar.mem_init_layers inside) with old | ⟨first, same, rfl⟩
  · rcases mem_addEntries_layers old with before | ⟨entry, member, c, adds⟩
    · rw [addManifest_layers, bare] at before
      cases before
    · rw [addManifest_isMultiRelease formed.distinct blank, single] at adds
      obtain ⟨path, part⟩ := role_of_contribution? adds
      exact (role_release_single part).le
  · exact same.le

theorem build_resource (formed : WellFormed entries) (blank : jar.manifest = [])
    (bare : jar.resources = []) (single : declaresMultiRelease entries = false)
    (resources : settings.resources = true) {entry : Entry} {release : Int} {path : String}
    {bytes : List UInt8} (member : entry ∈ entries) (stands : ClassEntry entry.name release path)
    (above : 9 ≤ release) (content : entry.content = .ok bytes) :
    ⟨entry.name, Digest.contentHash bytes, bytes.length, baseRelease⟩ ∈
      (build settings nested jar entries).resources := by
  obtain ⟨before, after, cut⟩ := List.append_of_mem (mem_visited.mpr member)
  have ascending := visited_ascending formed.distinct
  rw [cut, List.pairwise_append] at ascending
  have others : ∀ later ∈ after, later.name ≠ entry.name := fun later inside =>
    (String.ne_of_lt (List.rel_of_pairwise_cons ascending.2.1 inside)).symm
  rw [build_resources]
  refine List.mem_mergeSort.mpr ?_
  have kept : ⟨entry.name, Digest.contentHash bytes, bytes.length, baseRelease⟩ ∈
      (collected settings nested jar entries).resources := by
    rw [collected, addManifest_isMultiRelease formed.distinct blank, single]
    simp only [cut]
    refine addEntries_resource ?_ (role_versioned_resource stands above resources) content others
    simp [addManifest_resources, bare]
  exact kept

theorem build_eq_of_perm {entries' : List Entry} (same : entries'.Perm entries)
    (distinct : entries.Pairwise fun a b => a.name ≠ b.name) :
    build settings nested jar entries' = build settings nested jar entries := by
  have visits := visited_eq_of_perm same distinct
  rw [visited, visited] at visits
  rw [build, build, visits]

end

/-- The record shows a class by the entry of the highest release that counts at the target, and shows
none only where no entry counts. Unless the manifest makes them count, version directories make no
layers, and their classes are resources under their full names. -/
structure Reflects (settings : LoaderSettings) (entries : List Entry) (jar : Jar) : Prop where
  shows : ∀ name target c, jar.effectiveClass? name target = some c ↔
    ∃ entry release, Selected settings entries name target entry release ∧ ParsesTo entry c
  hides : ∀ name target, jar.effectiveClass? name target = none ↔
    ∀ entry release, ¬ Visible settings entries name target entry release
  single : declaresMultiRelease entries = false → jar.releases = []
  recorded : declaresMultiRelease entries = false → settings.resources = true →
    ∀ entry ∈ entries, ∀ release path, ClassEntry entry.name release path → 9 ≤ release →
    ∃ bytes, entry.content = .ok bytes ∧
      ⟨entry.name, Digest.contentHash bytes, bytes.length, baseRelease⟩ ∈ jar.resources

theorem build_reflects {settings : LoaderSettings}
    {nested : String → List UInt8 → Except Failure Jar} {jar : Jar} {entries : List Entry}
    (fits : settings.maxRelease ≤ Text.wordMax) (formed : WellFormed entries)
    (blank : jar.manifest = []) (bare : jar.layers = []) (empty : jar.resources = []) :
    Reflects settings entries (build settings nested jar entries) := by
  refine ⟨?_, ?_, ?_, ?_⟩
  · intro name target c
    exact build_effectiveClass?_eq_some_iff fits formed blank bare
  · intro name target
    exact build_effectiveClass?_eq_none_iff fits formed blank bare
  · exact build_releases_of_single formed blank bare
  · intro single resources entry member release path stands above
    obtain ⟨c, ⟨bytes, _, content, _⟩, _⟩ := formed.parses entry member release path stands
    exact ⟨bytes, content,
      build_resource formed blank empty single resources member stands above content⟩

theorem archive_eq_build {settings : LoaderSettings} {bytes : List UInt8} {entries : List Entry}
    (opens : zipEntries bytes = .ok entries) (origin : String) (coordinate : Option Coordinate) :
    archive settings false origin bytes coordinate =
      .ok (build settings (nestedArchive settings bytes.length)
        { origin, coordinate, size := bytes.length, checksum := Digest.Sha1.hexDigest bytes }
        entries) := by
  rw [archive, archiveWith, opens, opened]
  simp only [Bool.false_and, Bool.false_eq_true, if_false]

theorem exists_parsesTo {entry : Entry} {name : String}
    (parses : (entry.content.toOption.map fun bytes =>
      ((ClassFile.parse bytes).failure?.isNone, (ClassFile.parse bytes).class?.map JavaClass.name)) =
        some (true, some name)) : ∃ c, ParsesTo entry c ∧ c.name = name := by
  obtain ⟨bytes, opened, same⟩ := Option.map_eq_some_iff.mp parses
  cases content : entry.content with
  | error failure =>
    rw [content] at opened
    cases opened
  | ok found =>
    rw [content] at opened
    cases opened
    cases result : ClassFile.parse bytes with
    | accepted c moduleInfo =>
      simp only [result, ClassFile.Parsed.class?, Option.map_some, Prod.mk.injEq,
        Option.some.injEq] at same
      exact ⟨c, ⟨bytes, moduleInfo, content, result⟩, same.2⟩
    | degraded c moduleInfo => simp [result, ClassFile.Parsed.failure?] at same
    | malformed defect => simp [result, ClassFile.Parsed.failure?] at same

/-- A class of the base release and of two releases above it, those listed first. -/
def cartEntries : List Entry :=
  let cart (parent : String) : List UInt8 :=
    Assembly.ClassSpec.bytes { name := "shop.Cart", superName := parent }
  [⟨"META-INF/versions/10/shop/Cart.class", .ok (cart "shop.Ten")⟩,
    ⟨"META-INF/versions/9/shop/Cart.class", .ok (cart "shop.Nine")⟩,
    ⟨"shop/Cart.class", .ok (cart "shop.Eight")⟩,
    ⟨manifestPath, .ok (Text.encodeUtf8 "Multi-Release: true\n")⟩]

theorem cart_of_eight : ClassEntry "shop/Cart.class" 8 "shop/Cart" := by
  have written : "shop/Cart.class" = "shop/Cart" ++ ".class" := by decide +kernel
  rw [written]
  exact .base (by decide +kernel) (by decide +kernel)

theorem cart_of_release {name : String} {release : Int} (above : 9 ≤ release)
    (written : name = "META-INF/versions/" ++ toString release ++ "/" ++ ("shop/Cart" ++ ".class")) :
    ClassEntry name release "shop/Cart" := by
  rw [written]
  exact .versioned above (by decide +kernel)

theorem cartEntries_release {entry : Entry} {release : Int} {path : String}
    (member : entry ∈ cartEntries) (stands : ClassEntry entry.name release path) :
    path = "shop/Cart" ∧ (entry.name, release) ∈
      [("META-INF/versions/10/shop/Cart.class", 10), ("META-INF/versions/9/shop/Cart.class", 9),
        ("shop/Cart.class", 8)] := by
  have names : entry.name ∈ cartEntries.map Entry.name := List.mem_map_of_mem member
  have listed : cartEntries.map Entry.name = ["META-INF/versions/10/shop/Cart.class",
      "META-INF/versions/9/shop/Cart.class", "shop/Cart.class", manifestPath] := rfl
  rw [listed] at names
  generalize entry.name = name at names stands
  simp only [List.mem_cons, List.not_mem_nil, or_false] at names
  rcases names with rfl | rfl | rfl | rfl
  · obtain ⟨rfl, rfl⟩ := classEntry_unique stands (cart_of_release (show 9 ≤ 10 by decide) (by decide +kernel))
    simp
  · obtain ⟨rfl, rfl⟩ := classEntry_unique stands (cart_of_release (show 9 ≤ 9 by decide) (by decide +kernel))
    simp
  · obtain ⟨rfl, rfl⟩ := classEntry_unique stands cart_of_eight
    simp
  · obtain ⟨stem, ends⟩ := classEntry_ends stands
    exact absurd ends.symm (EntryName.class_ne_manifestPath stem)

theorem cartEntries_wellFormed : WellFormed cartEntries where
  distinct := by decide +kernel
  canonical := by decide +kernel
  parses entry member release path stands := by
    obtain ⟨rfl, _⟩ := cartEntries_release member stands
    have classes : ∀ entry ∈ cartEntries, entry.name ≠ manifestPath →
        (entry.content.toOption.map fun bytes =>
          ((ClassFile.parse bytes).failure?.isNone,
            (ClassFile.parse bytes).class?.map JavaClass.name)) =
        some (true, some (ClassName.external "shop/Cart")) := by decide +kernel
    obtain ⟨stem, ends⟩ := classEntry_ends stands
    refine exists_parsesTo (classes entry member ?_)
    rw [ends]
    exact EntryName.class_ne_manifestPath stem

end ClasspathAudit.Inspector
