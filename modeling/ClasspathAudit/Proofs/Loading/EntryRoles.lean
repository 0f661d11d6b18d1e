import ClasspathAudit.Loading.Inspector
import ClasspathAudit.Proofs.Text.Split

/-!
Which entries of an archive hold classes. A class lies outside the metadata directory for the base
release, or in the directory of a release above it; the tests that an entry passes through find
exactly these, as far as the releases count.
-/

namespace ClasspathAudit

open Archive Text

/-- A class file at a path of a release, by the name of its entry. A module descriptor is none. -/
inductive ClassEntry : (name : String) → (release : Int) → (path : String) → Prop where
  | base {path : String} (outside : hasStart "META-INF/" (path ++ ".class") = false)
      (ordinary : Inspector.lastSegment path ≠ ClassName.moduleInfo) :
      ClassEntry (path ++ ".class") baseRelease path
  | versioned {path : String} {release : Int} (above : 9 ≤ release)
      (ordinary : Inspector.lastSegment path ≠ ClassName.moduleInfo) :
      ClassEntry ("META-INF/versions/" ++ toString release ++ "/" ++ (path ++ ".class")) release path

theorem ClassEntry.ordinary {name path : String} {release : Int}
    (entry : ClassEntry name release path) : Inspector.lastSegment path ≠ ClassName.moduleInfo := by
  cases entry with
  | base _ ordinary => exact ordinary
  | versioned _ ordinary => exact ordinary

/-- Every version directory is written as its number, without sign or leading zeros. -/
def CanonicalRelease (name : String) : Prop :=
  ∀ directory path release, name = "META-INF/versions/" ++ directory ++ "/" ++ path →
    '/' ∉ directory.toList → decimal? directory = some release → 9 ≤ release →
    directory = toString release

namespace Inspector

theorem isModulePath_iff (path : String) :
    isModulePath path = true ↔ lastSegment path = ClassName.moduleInfo := by
  have noSlash : '/' ∉ ClassName.moduleInfo.toList := by decide
  rw [isModulePath, Bool.or_eq_true, decide_eq_true_eq, hasEnd_iff]
  constructor
  · rintro (rfl | ⟨front, rfl⟩)
    · rw [lastSegment, splitLast?_eq_none_iff.mpr noSlash]
    · have chars : (front ++ ("/" ++ ClassName.moduleInfo)).toList =
          front.toList ++ '/' :: ClassName.moduleInfo.toList := by simp
      rw [lastSegment, chars, splitLast?_append noSlash]
      exact String.ofList_toList
  · intro last
    rw [lastSegment] at last
    split at last
    next front segment parts =>
      obtain ⟨same, -⟩ := splitLast?_eq_some parts
      refine .inr ⟨String.ofList front, String.toList_inj.mp ?_⟩
      rw [same, ← last]
      simp
    next => exact .inl last

end Inspector

namespace Archive.EntryName

theorem extension_class (path : String) : Path.extension (path ++ ".class") = ".class" := by
  have noDot : '.' ∉ "class".toList := by decide
  have noSlash : '/' ∉ "class".toList := by decide
  exact Path.extension_append noDot noSlash path

theorem not_isArchive_class (path : String) : isArchive (path ++ ".class") = false := by
  rw [isArchive, extension_class]
  decide +kernel

theorem not_isSignature_class (path : String) : isSignature (path ++ ".class") = false := by
  have ending : [".SF", ".RSA", ".DSA", ".EC"].contains (upper ".class") = false := by
    decide +kernel
  rw [isSignature, extension_class, ending, Bool.and_false]

theorem class_ne_manifestPath (path : String) : path ++ ".class" ≠ manifestPath := by
  intro same
  have ends : hasEnd ".class" manifestPath = true := hasEnd_iff.mpr ⟨path, same.symm⟩
  exact absurd ends (by decide)

theorem isClass_append (path : String) : isClass (path ++ ".class") = true :=
  hasEnd_iff.mpr ⟨path, rfl⟩

theorem inside_metadata (directory path : String) :
    hasStart "META-INF/" ("META-INF/versions/" ++ directory ++ "/" ++ path) = true := by
  refine hasStart_iff.mpr ⟨"versions/" ++ directory ++ "/" ++ path, ?_⟩
  simp only [← String.append_assoc]
  rfl

theorem versioned_outside {name : String} (outside : hasStart "META-INF/" name = false) :
    versioned name = ⟨baseRelease, name, false⟩ := by
  have none : ¬ hasStart versionsDirectory name = true := by
    rw [hasStart_iff]
    rintro ⟨rest, rfl⟩
    have inside : hasStart "META-INF/" (versionsDirectory ++ rest) = true :=
      hasStart_iff.mpr ⟨"versions/" ++ rest, by rw [← String.append_assoc]; rfl⟩
    rw [inside] at outside
    cases outside
  rw [versioned, if_neg none]

theorem splitFirst?_directory {directory : String} (path : String)
    (noSlash : '/' ∉ directory.toList) :
    splitFirst? '/' (("META-INF/versions/" ++ directory ++ "/" ++ path).toList.drop
      versionsDirectory.length) = some (directory.toList, path.toList) := by
  have rest : ("META-INF/versions/" ++ directory ++ "/" ++ path).toList.drop
      versionsDirectory.length = directory.toList ++ '/' :: path.toList := by
    simp [versionsDirectory, ← String.length_toList]
  rw [rest, splitFirst?_append noSlash]

theorem versioned_directory {directory : String} (path : String) (noSlash : '/' ∉ directory.toList) :
    versioned ("META-INF/versions/" ++ directory ++ "/" ++ path) =
      match decimal? directory with
      | some release =>
        if release ≤ baseRelease then
          ⟨0, "META-INF/versions/" ++ directory ++ "/" ++ path, false⟩
        else ⟨release, path, true⟩
      | none => ⟨0, "META-INF/versions/" ++ directory ++ "/" ++ path, false⟩ := by
  have starts : hasStart versionsDirectory ("META-INF/versions/" ++ directory ++ "/" ++ path) = true :=
    hasStart_iff.mpr ⟨directory ++ "/" ++ path, by rw [← String.append_assoc, ← String.append_assoc]; rfl⟩
  rw [versioned, if_pos starts, splitFirst?_directory path noSlash]
  cases number : decimal? directory with
  | none => simp only [String.ofList_toList, number]
  | some release => simp only [String.ofList_toList, number]

/-- A version directory and what follows it are told by the name. -/
theorem directory_injective {directory directory' path path' : String}
    (noSlash : '/' ∉ directory.toList) (noSlash' : '/' ∉ directory'.toList)
    (same : "META-INF/versions/" ++ directory ++ "/" ++ path =
      "META-INF/versions/" ++ directory' ++ "/" ++ path') :
    directory = directory' ∧ path = path' := by
  have parts := splitFirst?_directory path noSlash
  rw [same, splitFirst?_directory path' noSlash', Option.some.injEq, Prod.mk.injEq] at parts
  exact ⟨String.toList_inj.mp parts.1.symm, String.toList_inj.mp parts.2.symm⟩

/-- What taking a name apart can give. -/
theorem versioned_cases (name : String) :
    (versioned name = ⟨baseRelease, name, false⟩) ∨ (versioned name = ⟨0, name, false⟩) ∨
      ∃ directory path release, name = "META-INF/versions/" ++ directory ++ "/" ++ path ∧
        '/' ∉ directory.toList ∧ decimal? directory = some release ∧ baseRelease < release ∧
        versioned name = ⟨release, path, true⟩ := by
  by_cases starts : hasStart versionsDirectory name = true
  · obtain ⟨rest, rfl⟩ := hasStart_iff.mp starts
    cases parts : splitFirst? '/' rest.toList with
    | none =>
      have tail : (versionsDirectory ++ rest).toList.drop versionsDirectory.length = rest.toList := by
        simp [← String.length_toList]
      exact .inr (.inl (by rw [versioned, if_pos starts, tail, parts]))
    | some pair =>
      obtain ⟨directory, path⟩ := pair
      have noSlash : '/' ∉ (String.ofList directory).toList := by
        simpa using not_mem_of_splitFirst? parts
      have whole : versionsDirectory ++ rest =
          "META-INF/versions/" ++ String.ofList directory ++ "/" ++ String.ofList path := by
        apply String.toList_inj.mp
        simp [splitFirst?_eq_append parts, versionsDirectory]
      have value := versioned_directory (String.ofList path) noSlash
      rw [← whole] at value
      cases number : decimal? (String.ofList directory) with
      | none =>
        simp only [number] at value
        exact .inr (.inl value)
      | some release =>
        simp only [number] at value
        by_cases low : release ≤ baseRelease
        · rw [if_pos low] at value
          exact .inr (.inl value)
        · rw [if_neg low] at value
          exact .inr (.inr ⟨_, _, release, whole, noSlash, number, by omega, value⟩)
  · exact .inl (by rw [versioned, if_neg starts])

end Archive.EntryName

namespace Inspector

open EntryName

variable {settings : LoaderSettings} {multiRelease : Bool} {name path : String} {release : Int}

/-- Whether entries of a release are taken into the record at all. -/
def Included (settings : LoaderSettings) (multiRelease : Bool) (release : Int) : Prop :=
  release = baseRelease ∨ multiRelease = true ∧ 9 ≤ release ∧ release ≤ settings.maxRelease

/-- Where an entry is taken to lie. -/
def place (multiRelease : Bool) (name : String) : VersionedName :=
  if (versioned name).isVersioned && !multiRelease then ⟨baseRelease, name, false⟩ else versioned name

/-- An entry with the ending of a class is a class or a resource, by its place. -/
theorem role_class {stem : String} (ends : name = stem ++ ".class") :
    role settings multiRelease name =
      let place := place multiRelease name
      if place.isVersioned && decide (settings.maxRelease < place.release) then .ignored
      else if isClass place.path && place.release != 0 &&
          (place.isVersioned || !hasStart "META-INF/" place.path) then
        .classFile place.release place.path
      else if settings.resources then
        .resource (if place.release = 0 then baseRelease else place.release) place.path
      else .ignored := by
  have named : ¬ (name = manifestPath ∨ isSignature name = true) := by
    rw [ends, not_isSignature_class]
    simp [class_ne_manifestPath]
  have plain : isArchive name = false := by
    rw [ends, not_isArchive_class]
  rw [role, if_neg named, plain]
  rfl

theorem classEntry_ends (entry : ClassEntry name release path) :
    ∃ stem, name = stem ++ ".class" := by
  cases entry with
  | base => exact ⟨path, rfl⟩
  | versioned => exact ⟨_, (String.append_assoc).symm⟩

theorem release_noSlash {release : Int} (above : 9 ≤ release) : '/' ∉ (toString release).toList := by
  obtain ⟨number, rfl⟩ := Int.eq_ofNat_of_zero_le (show 0 ≤ release by omega)
  rw [toList_toString_natCast]
  intro member
  exact absurd (isDigit_of_mem_toDigits member) (by decide)

theorem versioned_release (path : String) {release : Int} (above : 9 ≤ release)
    (fits : release ≤ wordMax) :
    versioned ("META-INF/versions/" ++ toString release ++ "/" ++ path) = ⟨release, path, true⟩ := by
  have noSlash := release_noSlash above
  obtain ⟨number, rfl⟩ := Int.eq_ofNat_of_zero_le (show 0 ≤ release by omega)
  have high : ¬ (number : Int) ≤ baseRelease := by
    rw [baseRelease]
    omega
  rw [versioned_directory path noSlash, decimal?_toString fits]
  exact if_neg high

theorem role_outside (outside : hasStart "META-INF/" (path ++ ".class") = false) :
    role settings multiRelease (path ++ ".class") = .classFile baseRelease (path ++ ".class") := by
  rw [role_class rfl]
  simp [place, versioned_outside outside, isClass_append, outside, baseRelease]

theorem role_of_classEntry (fits : settings.maxRelease ≤ wordMax)
    (entry : ClassEntry name release path) (included : Included settings multiRelease release) :
    role settings multiRelease name = .classFile release (path ++ ".class") := by
  obtain ⟨stem, ends⟩ := classEntry_ends entry
  cases entry with
  | base outside ordinary => exact role_outside outside
  | versioned above ordinary =>
    rw [role_class ends]
    rcases included with equal | ⟨rfl, _, low⟩
    · rw [baseRelease] at equal
      omega
    have taken := versioned_release (path ++ ".class") above (low.trans fits)
    have nonzero : release ≠ 0 := by omega
    simp only [place, taken]
    simp [nonzero, isClass_append, not_lt.mpr low]

/-- The name of a class entry tells its release and its path. -/
theorem classEntry_unique {path' : String} {release' : Int} (entry : ClassEntry name release path)
    (entry' : ClassEntry name release' path') : release = release' ∧ path = path' := by
  generalize same : name = name' at entry'
  cases entry with
  | base outside _ =>
    cases entry' with
    | base => exact ⟨rfl, (String.append_left_inj _).mp same⟩
    | versioned =>
      rw [same, inside_metadata] at outside
      cases outside
  | versioned above _ =>
    cases entry' with
    | base outside _ =>
      rw [← same, inside_metadata] at outside
      cases outside
    | versioned above' _ =>
      obtain ⟨digits, paths⟩ :=
        directory_injective (release_noSlash above) (release_noSlash above') same
      exact ⟨toString_injective (by omega) (by omega) digits, (String.append_left_inj _).mp paths⟩

/-- Without version directories, a class in one of them is a resource like any other entry. -/
theorem role_versioned_resource (entry : ClassEntry name release path) (above : 9 ≤ release)
    (resources : settings.resources = true) : role settings false name = .resource baseRelease name := by
  have inside : hasStart "META-INF/" name = true := by
    cases entry with
    | base => exact absurd above (by decide)
    | versioned => exact inside_metadata _ _
  obtain ⟨stem, ends⟩ := classEntry_ends entry
  rw [role_class ends]
  rcases versioned_cases name with outside | broken | ⟨_, _, number, _, _, _, _, taken⟩
  · simp [place, outside, inside, resources]
  · simp [place, broken, resources]
  · simp [place, taken, inside, resources]

theorem role_eq_classFile {full : String}
    (taken : role settings multiRelease name = .classFile release full) :
    ∃ isVersioned, place multiRelease name = ⟨release, full, isVersioned⟩ ∧
      (isVersioned = true → release ≤ settings.maxRelease) ∧ isClass full = true ∧ release ≠ 0 ∧
      (isVersioned = false → hasStart "META-INF/" full = false) := by
  rw [role] at taken
  split at taken
  · cases taken
  simp only [← place.eq_1] at taken
  split at taken
  · cases taken
  next low =>
    split at taken
    next conditions =>
      injection taken with releases paths
      subst releases paths
      simp only [Bool.and_eq_true, Bool.or_eq_true, bne_iff_ne, Bool.not_eq_true'] at conditions
      obtain ⟨⟨ends, nonzero⟩, whereabouts⟩ := conditions
      refine ⟨(place multiRelease name).isVersioned, rfl, ?_, ends, nonzero, ?_⟩
      · intro versions
        rw [versions, Bool.true_and, decide_eq_true_eq] at low
        exact not_lt.mp low
      · intro versions
        rw [versions] at whereabouts
        exact whereabouts.resolve_left Bool.false_ne_true
    next =>
      split at taken
      · cases taken
      · split at taken <;> cases taken

/-- An entry taken for a class that is no module descriptor is a class entry of a release that
counts. -/
theorem classEntry_of_role {full : String} (canonical : CanonicalRelease name)
    (taken : role settings multiRelease name = .classFile release full)
    (ordinary : isModulePath (dropEnding ".class" full) = false) :
    ∃ path, full = path ++ ".class" ∧ ClassEntry name release path ∧
      Included settings multiRelease release := by
  obtain ⟨isVersioned, found, low, ends, nonzero, outside⟩ := role_eq_classFile taken
  obtain ⟨path, rfl⟩ := hasEnd_iff.mp ends
  have segment : lastSegment path ≠ ClassName.moduleInfo := by
    intro module
    rw [dropEnding_append, (isModulePath_iff path).mpr module] at ordinary
    cases ordinary
  refine ⟨path, rfl, ?_⟩
  rw [place] at found
  rcases versioned_cases name with base | broken | ⟨directory, below, number, rfl, noSlash, value,
    above, versions⟩
  · simp only [base, Bool.false_and, Bool.false_eq_true, if_false] at found
    cases found
    exact ⟨.base (outside rfl) segment, .inl rfl⟩
  · simp only [broken, Bool.false_and, Bool.false_eq_true, if_false] at found
    cases found
    exact absurd rfl nonzero
  · cases multiRelease with
    | false =>
      simp only [versions, Bool.not_false, Bool.and_self, if_true] at found
      injection found with _ paths versions
      have contradiction := outside versions.symm
      rw [← paths, inside_metadata] at contradiction
      cases contradiction
    | true =>
      simp only [versions, Bool.not_true, Bool.and_false, Bool.false_eq_true, if_false] at found
      cases found
      have canonical := canonical directory _ release rfl noSlash value above
      rw [canonical]
      exact ⟨.versioned above segment, .inr ⟨rfl, above, low rfl⟩⟩

theorem canonicalRelease_iff (name : String) :
    CanonicalRelease name ↔ ((versioned name).isVersioned = true →
      name = "META-INF/versions/" ++ toString (versioned name).release ++ "/" ++
        (versioned name).path) := by
  constructor
  · intro canonical versions
    rcases versioned_cases name with base | broken | ⟨directory, path, release, same, noSlash, value,
      above, taken⟩
    · rw [base] at versions
      cases versions
    · rw [broken] at versions
      cases versions
    · rw [taken, ← canonical directory path release same noSlash value above]
      exact same
  · rintro written directory path release rfl noSlash value above
    have taken := versioned_directory path noSlash
    have high : ¬ release ≤ baseRelease := not_le.mpr above
    simp only [value, if_neg high] at taken
    rw [taken] at written
    exact (directory_injective noSlash (release_noSlash above) (written rfl)).1

instance (name : String) : Decidable (CanonicalRelease name) :=
  decidable_of_iff _ (canonicalRelease_iff name).symm

end Inspector

end ClasspathAudit
