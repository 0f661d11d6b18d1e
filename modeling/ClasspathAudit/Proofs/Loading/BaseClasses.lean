import ClasspathAudit.Proofs.Loading.MultiRelease

/-!
What the base layer of an archive holds. A layer keys its classes by the names that they carry, while
the entries come by the order of their paths: a class at the path of its name gives way only to entries
after it that carry the same name, and of those to the last one.
-/

namespace ClasspathAudit.Inspector

open Archive

/-- The entry puts a class into the base layer: it lies outside the metadata directory and is read as
the class. A class that is too new counts as far as it was read, under the name of its path if it has
none. -/
inductive Gives (entry : Entry) : JavaClass → Prop where
  | whole {path : String} {bytes : List UInt8} {c : JavaClass} {moduleInfo : Option ModuleDescriptor}
      (lies : ClassEntry entry.name baseRelease path) (content : entry.content = .ok bytes)
      (accepted : ClassFile.parse bytes = .accepted c moduleInfo) : Gives entry c
  | partly {path : String} {bytes : List UInt8} {c : JavaClass} {moduleInfo : Option ModuleDescriptor}
      (lies : ClassEntry entry.name baseRelease path) (content : entry.content = .ok bytes)
      (degraded : ClassFile.parse bytes = .degraded c moduleInfo) :
      Gives entry (if c.name.isEmpty then { c with name := ClassName.external path } else c)

/-- An entry of the base release is known under its full name. -/
theorem place_base {multiRelease isVersioned : Bool} {name full : String}
    (found : place multiRelease name = ⟨baseRelease, full, isVersioned⟩) :
    name = full ∧ isVersioned = false := by
  rw [place] at found
  split at found
  · cases found
    exact ⟨rfl, rfl⟩
  next single =>
    rcases EntryName.versioned_cases name with base | broken | ⟨_, _, release, _, _, _, above, versions⟩
    · rw [base] at found
      cases found
      exact ⟨rfl, rfl⟩
    · rw [broken] at found
      exact absurd (congrArg VersionedName.release found) (show (0 : Int) ≠ baseRelease by decide)
    · rw [versions] at found
      exact absurd (congrArg VersionedName.release found) above.ne'

section

variable {settings : LoaderSettings} {multiRelease : Bool}

/-- The files taken for classes of the base release are its class entries and module descriptors. -/
theorem role_base_iff {name full : String} :
    role settings multiRelease name = .classFile baseRelease full ∧
        isModulePath (Text.dropEnding ".class" full) = false ↔
      ∃ path, full = path ++ ".class" ∧ ClassEntry name baseRelease path := by
  constructor
  · rintro ⟨taken, ordinary⟩
    obtain ⟨isVersioned, found, _, ends, _, outside⟩ := role_eq_classFile taken
    obtain ⟨rfl, single⟩ := place_base found
    obtain ⟨path, rfl⟩ := Text.hasEnd_iff.mp ends
    rw [Text.dropEnding_append, Bool.eq_false_iff, ne_eq, isModulePath_iff] at ordinary
    exact ⟨path, rfl, .base (outside single) ordinary⟩
  · rintro ⟨path, rfl, entry⟩
    cases entry with
    | base outside ordinary =>
      refine ⟨role_outside outside, ?_⟩
      rwa [Text.dropEnding_append, Bool.eq_false_iff, ne_eq, isModulePath_iff]
    | versioned above => exact absurd above (by decide)

/-- A class entry of the base release adds what its bytes are read as. -/
theorem contribution?_base {entry : Entry} {path : String} {bytes : List UInt8}
    (lies : ClassEntry entry.name baseRelease path) (content : entry.content = .ok bytes) :
    contribution? settings multiRelease entry = (ClassFile.parse bytes).class?.map fun found =>
      (baseRelease, if (ClassFile.parse bytes).failure?.isSome && found.name.isEmpty then
        { found with name := ClassName.external path } else found) := by
  obtain ⟨part, ordinary⟩ :
      role settings multiRelease entry.name = .classFile baseRelease (path ++ ".class") ∧
        isModulePath (Text.dropEnding ".class" (path ++ ".class")) = false :=
    role_base_iff.mpr ⟨path, rfl, lies⟩
  rw [contribution?, part, content]
  simp only [EntryName.className]
  rw [ordinary, Text.dropEnding_append]
  rfl

theorem contribution?_base_iff {entry : Entry} {c : JavaClass} :
    contribution? settings multiRelease entry = some (baseRelease, c) ↔ Gives entry c := by
  constructor
  · intro adds
    obtain ⟨path, bytes, lies, content⟩ :
        ∃ path bytes, ClassEntry entry.name baseRelease path ∧ entry.content = .ok bytes := by
      rw [contribution?] at adds
      split at adds
      next release full bytes part content =>
        split at adds
        · cases adds
        next ordinary =>
          obtain ⟨_, _, same⟩ := Option.map_eq_some_iff.mp adds
          obtain ⟨rfl, _⟩ := Prod.mk.inj same
          obtain ⟨path, _, lies⟩ := role_base_iff.mp ⟨part, Bool.eq_false_iff.mpr ordinary⟩
          exact ⟨path, bytes, lies, content⟩
      next => cases adds
    rw [contribution?_base lies content] at adds
    cases result : ClassFile.parse bytes with
    | malformed defect =>
      rw [result] at adds
      cases adds
    | accepted found moduleInfo =>
      rw [result] at adds
      cases adds
      exact .whole lies content result
    | degraded found moduleInfo =>
      rw [result] at adds
      cases adds
      exact .partly lies content result
  · intro gives
    cases gives with
    | whole lies content accepted =>
      rw [contribution?_base lies content, accepted]
      rfl
    | partly lies content degraded =>
      rw [contribution?_base lies content, degraded]
      rfl

theorem answer?_base_iff {entry : Entry} {name : String} {c : JavaClass} :
    answer? settings multiRelease baseRelease name entry = some c ↔ Gives entry c ∧ c.name = name := by
  rw [answer?, Option.bind_eq_some_iff, ← contribution?_base_iff]
  constructor
  · rintro ⟨⟨release, found⟩, adds, same⟩
    simp only [Option.ite_none_right_eq_some, Option.some.injEq] at same
    obtain ⟨⟨rfl, rfl⟩, rfl⟩ := same
    exact ⟨adds, rfl⟩
  · rintro ⟨adds, rfl⟩
    exact ⟨_, adds, by simp⟩

variable {nested : String → List UInt8 → Except Failure Jar} {jar : Jar} {entries : List Entry}

/-- The base layer holds the class of the last entry that gives one of the name. -/
theorem build_base_get?_eq_some_iff {name : String} {c : JavaClass}
    (distinct : entries.Pairwise fun a b => a.name ≠ b.name) (blank : jar.manifest = [])
    (bare : jar.layers = []) :
    (build settings nested jar entries).base.get? name = some c ↔
      ∃ entry ∈ entries, (Gives entry c ∧ c.name = name) ∧
        ∀ later ∈ entries, entry.name < later.name → ∀ d, Gives later d → d.name ≠ name := by
  have held : (build settings nested jar entries).base.get? name =
      lastAnswer? (answer? settings (declaresMultiRelease entries) baseRelease name)
        (visited entries) := by
    rw [Jar.base_get?, build_layers, Jar.classAt?_init (collected_layered bare),
      classAt?_collected distinct blank bare]
  rw [held, lastAnswer?_eq_some_iff (visited_ascending distinct) fun _ _ => String.lt_asymm]
  simp only [mem_visited, answer?_base_iff, Option.eq_none_iff_forall_ne_some, ne_eq, not_and]

/-- What the base layer holds under the name of a class that an entry gives. -/
structure Holds (entries : List Entry) (entry : Entry) (c : JavaClass) (jar : Jar) : Prop where
  kept : (∀ later ∈ entries, entry.name < later.name → ∀ d, Gives later d → d.name ≠ c.name) →
    jar.base.get? c.name = some c
  displaced : ∀ later ∈ entries, entry.name < later.name → ∀ d, Gives later d → d.name = c.name →
    (∀ last ∈ entries, later.name < last.name → ∀ e, Gives last e → e.name ≠ c.name) →
    jar.base.get? c.name = some d

theorem build_holds {entry : Entry} {c : JavaClass}
    (distinct : entries.Pairwise fun a b => a.name ≠ b.name) (blank : jar.manifest = [])
    (bare : jar.layers = []) (member : entry ∈ entries) (gives : Gives entry c) :
    Holds entries entry c (build settings nested jar entries) where
  kept last := (build_base_get?_eq_some_iff distinct blank bare).mpr
    ⟨entry, member, ⟨gives, rfl⟩, last⟩
  displaced later inside _ _ gives' named last := (build_base_get?_eq_some_iff distinct blank bare).mpr
    ⟨later, inside, ⟨gives', named⟩, last⟩

end

/-- The class that an entry is read as without a failure. -/
def whole? (entry : Entry) : Option JavaClass :=
  entry.content.toOption.bind fun bytes =>
    match ClassFile.parse bytes with
    | .accepted c _ => some c
    | _ => none

theorem whole?_eq_some_iff {entry : Entry} {c : JavaClass} :
    whole? entry = some c ↔ ParsesTo entry c := by
  constructor
  · intro read
    obtain ⟨bytes, opened, read⟩ := Option.bind_eq_some_iff.mp read
    cases content : entry.content with
    | error failure =>
      rw [content] at opened
      cases opened
    | ok found =>
      rw [content] at opened
      cases opened
      split at read
      next moduleInfo accepted =>
        cases read
        exact ⟨_, moduleInfo, content, accepted⟩
      next => cases read
  · rintro ⟨bytes, moduleInfo, content, accepted⟩
    simp [whole?, content, accepted, Except.toOption]

/-- A class file of the class `shop.Cart` under some path. -/
def cartAt (path parent : String) : Entry :=
  ⟨path, .ok (Assembly.ClassSpec.bytes { name := "shop.Cart", superName := parent })⟩

theorem cartAt_parses {parent : String} (known : parent ∈ ["shop.Eight", "shop.Ten"]) (path : String) :
    ∃ c, ParsesTo (cartAt path parent) c ∧ c.name = "shop.Cart" ∧ c.superName = parent := by
  have read : ∀ parent ∈ ["shop.Eight", "shop.Ten"],
      (whole? (cartAt "" parent)).map (fun c => (c.name, c.superName)) =
        some ("shop.Cart", parent) := by decide +kernel
  obtain ⟨c, whole, same⟩ := Option.map_eq_some_iff.mp (read parent known)
  obtain ⟨name, super⟩ := Prod.mk.inj same
  have moved : whole? (cartAt path parent) = whole? (cartAt "" parent) := rfl
  exact ⟨c, whole?_eq_some_iff.mp (moved.trans whole), name, super⟩

/-- A class at its own path, and another of its name in a second place. -/
def doubledCart (second : String) : List Entry :=
  [cartAt "shop/Cart.class" "shop.Eight", cartAt second "shop.Ten"]

theorem own_path {c : JavaClass} (named : c.name = "shop.Cart") :
    "shop/Cart.class" = ClassName.internal c.name ++ ".class" ∧
      lastSegment (ClassName.internal c.name) ≠ ClassName.moduleInfo := by
  rw [named]
  decide +kernel

end ClasspathAudit.Inspector
