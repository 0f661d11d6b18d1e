import ClasspathAudit.Model.Jar
import ClasspathAudit.Proofs.Version.Highest

/-!
Reading artifact and version back from the path of a published archive. The version is the first one
behind a hyphen, taken as far as it reaches; if no hyphen in the artifact has a digit behind it, that is
the version the file was named with, and what is left is the artifact with its classifier.
-/

namespace ClasspathAudit

open Text SemanticVersion

namespace FileName

/-- A version in a file name: a number, up to ten more with a dot in front of each, and a mark if it is a
snapshot. -/
structure VersionMark where
  first : List Char
  others : List (List Char)
  snapshot : Bool
  firstNumeral : IsNumber first
  otherNumerals : ∀ digits ∈ others, IsNumber digits
  few : others.length ≤ 10

namespace VersionMark

def groups (others : List (List Char)) : List Char := others.flatMap ('.' :: ·)

def ending (v : VersionMark) : List Char := if v.snapshot then "-SNAPSHOT".toList else []

def chars (v : VersionMark) : List Char := v.first ++ groups v.others ++ v.ending

def text (v : VersionMark) : String := String.ofList v.chars

end VersionMark

/-- No version can begin in a text: no hyphen has a digit behind it. -/
def Unmarked (text : List Char) : Prop := text.IsChain fun c d => c = '-' → isDigit d = false

instance (text : List Char) : Decidable (Unmarked text) :=
  inferInstanceAs (Decidable (text.IsChain fun c d => c = '-' → isDigit d = false))

/-- A text that does not go on a version: it is empty or begins with a hyphen. -/
def Closes (rest : List Char) : Prop := rest = [] ∨ ∃ tail, rest = '-' :: tail

/-- The parts of the path that an archive is published under. -/
structure Published where
  directory : String
  artifact : String
  version : VersionMark
  /-- What stands behind the version, with its hyphen. -/
  classifier : String
  extension : String
  inDirectory : directory = "" ∨ hasEnd "/" directory = true ∨ hasEnd "\\" directory = true
  artifactInside : '/' ∉ artifact.toList ∧ '\\' ∉ artifact.toList
  unmarked : Unmarked artifact.toList
  classifierInside : '/' ∉ classifier.toList ∧ '\\' ∉ classifier.toList
  hyphenated : Closes classifier.toList
  /-- The mark of a snapshot belongs to the version. -/
  settled : version.snapshot = false → ¬ "-SNAPSHOT".toList <+: classifier.toList
  known : extension ∈ extensions

namespace Published

/-- The file name without its extension. -/
def stem (p : Published) : String := p.artifact ++ "-" ++ p.version.text ++ p.classifier

def path (p : Published) : String := p.directory ++ p.stem ++ p.extension

end Published

section

variable {digits rest : List Char}

theorem Closes.stops (ends : Closes rest) : rest.takeWhile isDigit = [] := by
  rcases ends with rfl | ⟨tail, rfl⟩
  · rfl
  · exact List.takeWhile_cons_of_neg (by decide)

theorem Closes.versionGroups (ends : Closes rest) (count : Nat) :
    versionGroups count rest = ([], rest) := by
  cases count with
  | zero => rfl
  | succ count => rcases ends with rfl | ⟨tail, rfl⟩ <;> rfl

/-- What follows a number in a version does not go on the number. -/
theorem stops_groups (others : List (List Char)) (ends : Closes rest) :
    (VersionMark.groups others ++ rest).takeWhile isDigit = [] := by
  cases others with
  | nil => exact ends.stops
  | cons digits others => exact List.takeWhile_cons_of_neg (by decide)

theorem versionGroups_append {others : List (List Char)} {count : Nat}
    (numerals : ∀ digits ∈ others, IsNumber digits) (few : others.length ≤ count) (ends : Closes rest) :
    versionGroups count (VersionMark.groups others ++ rest) = (VersionMark.groups others, rest) := by
  induction others generalizing count with
  | nil => exact ends.versionGroups count
  | cons digits others ih =>
    obtain ⟨⟨filled, all⟩, later⟩ := List.forall_mem_cons.mp numerals
    obtain ⟨count, rfl⟩ := Nat.exists_eq_succ_of_ne_zero (Nat.ne_zero_of_lt few)
    obtain ⟨taken, dropped⟩ := span_digits all (stops_groups others ends)
    obtain ⟨d, ds, rfl⟩ := List.exists_cons_of_ne_nil filled
    have text : VersionMark.groups ((d :: ds) :: others) ++ rest =
        '.' :: (d :: ds ++ (VersionMark.groups others ++ rest)) := by
      simp [VersionMark.groups]
    rw [text, FileName.versionGroups, taken, dropped, ih later (Nat.le_of_succ_le_succ few)]
    simp [VersionMark.groups]

/-- The whole version is taken, and no more. -/
theorem takeVersion?_append (v : VersionMark) (ends : Closes rest)
    (settled : v.snapshot = false → ¬ "-SNAPSHOT".toList <+: rest) :
    takeVersion? (v.chars ++ rest) = some (v.chars, rest) := by
  have ends' : Closes (v.ending ++ rest) := by
    rw [VersionMark.ending]
    split
    · exact .inr ⟨_, rfl⟩
    · exact ends
  obtain ⟨filled, all⟩ := v.firstNumeral
  obtain ⟨taken, dropped⟩ := span_digits all (stops_groups v.others ends')
  obtain ⟨d, ds, first⟩ := List.exists_cons_of_ne_nil filled
  have text : v.chars ++ rest = v.first ++ (VersionMark.groups v.others ++ (v.ending ++ rest)) := by
    simp [VersionMark.chars]
  rw [text, takeVersion?, taken, dropped, versionGroups_append v.otherNumerals v.few ends', first]
  cases snapshot : v.snapshot with
  | true => simp [VersionMark.chars, VersionMark.ending, snapshot, first]
  | false =>
    have unmarked : "-SNAPSHOT".toList.isPrefixOf rest = false := by
      rw [← Bool.not_eq_true, List.isPrefixOf_iff_prefix]
      exact settled snapshot
    simp only [VersionMark.chars, VersionMark.ending, snapshot, first, Bool.false_eq_true, if_false,
      List.nil_append, List.append_nil, unmarked]

/-- The first hyphen with a version behind it is the one behind the artifact. -/
theorem splitVersion?_append {artifact : List Char} (unmarked : Unmarked artifact) (v : VersionMark)
    (ends : Closes rest) (settled : v.snapshot = false → ¬ "-SNAPSHOT".toList <+: rest) :
    splitVersion? (artifact ++ '-' :: (v.chars ++ rest)) = some (artifact, v.chars, rest) := by
  induction artifact with
  | nil => rw [List.nil_append, splitVersion?, if_pos rfl, takeVersion?_append v ends settled]
  | cons c artifact ih =>
    have later : Unmarked artifact := List.IsChain.tail unmarked
    have early : (if c = '-' then takeVersion? (artifact ++ '-' :: (v.chars ++ rest)) else none) =
        none := by
      by_cases hyphen : c = '-'
      · subst hyphen
        have stops : (artifact ++ '-' :: (v.chars ++ rest)).takeWhile isDigit = [] := by
          cases artifact with
          | nil => exact List.takeWhile_cons_of_neg (by decide)
          | cons d artifact =>
            have other : isDigit d = false := (List.isChain_cons_cons.mp unmarked).1 rfl
            exact List.takeWhile_cons_of_neg (by simp [other])
        rw [if_pos rfl, takeVersion?, stops]
      · exact if_neg hyphen
    rw [List.cons_append, splitVersion?, early, ih later]
    rfl

end

/-- No extension ends another, so the one that a name ends with is found. -/
theorem stem_append (name : String) {extension : String} (known : extension ∈ extensions) :
    stem (name ++ extension) = name := by
  have apart : ∀ a ∈ extensions, ∀ b ∈ extensions, a.toList <:+ b.toList → a = b := by decide
  have ends : hasEnd extension (name ++ extension) = true := hasEnd_iff.mpr ⟨name, rfl⟩
  rw [FileName.stem]
  cases found : extensions.find? (hasEnd · (name ++ extension)) with
  | none => exact absurd ends (List.find?_eq_none.mp found extension known)
  | some other =>
    have listed := List.mem_of_find?_eq_some found
    have ends' : hasEnd other (name ++ extension) = true := by simpa using List.find?_some found
    have same : other = extension := by
      rcases List.suffix_or_suffix_of_suffix (List.isSuffixOf_iff_suffix.mp ends')
        (List.isSuffixOf_iff_suffix.mp ends) with shorter | longer
      · exact apart other listed extension known shorter
      · exact (apart extension known other listed longer).symm
    rw [same]
    exact dropEnding_append extension name

end FileName

namespace Jar

theorem slashed_append (front segment : String) :
    slashed (front ++ segment) = slashed front ++ slashed segment := by
  apply String.toList_inj.mp
  simp [slashed]

theorem slashed_plain {text : String} (plain : '\\' ∉ text.toList) : slashed text = text := by
  apply String.toList_inj.mp
  rw [slashed, String.toList_ofList]
  conv_rhs => rw [← List.map_id text.toList]
  apply List.map_congr_left
  intro c member
  have other : c ≠ '\\' := fun same => plain (same ▸ member)
  exact if_neg other

end Jar

namespace FileName

theorem VersionMark.mem_chars {v : VersionMark} {c : Char} (member : c ∈ v.chars) :
    isDigit c = true ∨ c ∈ ".-SNAPSHOT".toList := by
  rcases List.mem_append.mp member with number | mark
  · rcases List.mem_append.mp number with first | other
    · exact .inl (v.firstNumeral.2 c first)
    · obtain ⟨digits, listed, inside⟩ := List.mem_flatMap.mp other
      rcases List.mem_cons.mp inside with rfl | digit
      · exact .inr (by decide)
      · exact .inl ((v.otherNumerals digits listed).2 c digit)
  · rw [VersionMark.ending] at mark
    split at mark
    · exact .inr (List.mem_cons_of_mem _ mark)
    · cases mark

namespace Published

variable {p : Published} {jar : Jar}

theorem toList_stem (p : Published) :
    p.stem.toList = p.artifact.toList ++ '-' :: (p.version.chars ++ p.classifier.toList) := by
  simp [Published.stem, VersionMark.text]

/-- A published archive is a file of its directory. -/
theorem inside {c : Char} (separates : c = '/' ∨ c = '\\') : c ∉ (p.stem ++ p.extension).toList := by
  have parts : c ∉ p.artifact.toList ∧ c ∉ p.classifier.toList := by
    rcases separates with rfl | rfl
    · exact ⟨p.artifactInside.1, p.classifierInside.1⟩
    · exact ⟨p.artifactInside.2, p.classifierInside.2⟩
  have version : c ∉ p.version.chars := by
    intro member
    rcases separates with rfl | rfl
    · rcases VersionMark.mem_chars member with digit | mark <;> contradiction
    · rcases VersionMark.mem_chars member with digit | mark <;> contradiction
  have extension : c ∉ p.extension.toList := by
    have all : ∀ e ∈ extensions, '/' ∉ e.toList ∧ '\\' ∉ e.toList := by decide
    rcases separates with rfl | rfl
    · exact (all _ p.known).1
    · exact (all _ p.known).2
  have hyphen : c ≠ '-' := by
    rcases separates with rfl | rfl <;> decide
  simp [toList_stem, parts, version, extension, hyphen]

theorem slashed_directory (p : Published) :
    (Jar.slashed p.directory).toList = [] ∨
      ∃ before, (Jar.slashed p.directory).toList = before ++ ['/'] := by
  rcases p.inDirectory with empty | slash | backslash
  · rw [empty]
    exact .inl rfl
  · obtain ⟨front, same⟩ := hasEnd_iff.mp slash
    refine .inr ⟨(Jar.slashed front).toList, ?_⟩
    rw [same, Jar.slashed_append, String.toList_append]
    rfl
  · obtain ⟨front, same⟩ := hasEnd_iff.mp backslash
    refine .inr ⟨(Jar.slashed front).toList, ?_⟩
    rw [same, Jar.slashed_append, String.toList_append]
    rfl

theorem fileName (stored : jar.origin = p.path) : jar.fileName = p.stem ++ p.extension := by
  have filled : (p.stem ++ p.extension).toList ≠ [] := by simp [toList_stem]
  have path : Jar.slashed jar.origin = Jar.slashed p.directory ++ (p.stem ++ p.extension) := by
    rw [stored, Published.path, String.append_assoc, Jar.slashed_append,
      Jar.slashed_plain (inside (.inr rfl))]
  have base := Text.Path.base_segment filled (inside (.inl rfl)) (slashed_directory p)
  rw [Jar.fileName, path]
  simpa using base

end Published

end FileName

/-- A published archive tells its version and its artifact, the latter with the classifier; where a record
has a coordinate, that tells both. -/
theorem Jar.published_identity :
    (∀ (p : FileName.Published) (jar : Jar), jar.origin = p.path → jar.coordinate = none →
      jar.init.version = p.version.text ∧ jar.init.artifactName = p.artifact ++ p.classifier) ∧
    ∀ (jar : Jar) (c : Coordinate), jar.coordinate = some c →
      jar.init.version = c.version ∧ jar.init.artifactName = c.artifact := by
  constructor
  · intro p jar stored undeclared
    have name : jar.init.fileName = p.stem ++ p.extension := FileName.Published.fileName stored
    have read : FileName.artifactAndVersion (p.stem ++ p.extension) =
        (p.artifact ++ p.classifier, p.version.text) := by
      rw [FileName.artifactAndVersion, FileName.stem_append p.stem p.known,
        FileName.Published.toList_stem,
        FileName.splitVersion?_append p.unmarked p.version p.hyphenated p.settled]
      simp [FileName.VersionMark.text]
    have told : jar.init.artifactAndVersion = (p.artifact ++ p.classifier, p.version.text) := by
      have undeclared' : jar.init.coordinate = none := undeclared
      rw [artifactAndVersion, undeclared', name, read]
    rw [version, artifactName, told]
    exact ⟨rfl, rfl⟩
  · intro jar c declared
    have told : jar.init.artifactAndVersion = (c.artifact, c.version) := by
      have declared' : jar.init.coordinate = some c := declared
      rw [artifactAndVersion, declared']
    rw [version, artifactName, told]
    exact ⟨rfl, rfl⟩

/-- A snapshot with a classifier, stored in another archive. -/
def FileName.nightly : FileName.Published where
  directory := "apps/shop.war!/WEB-INF\\"
  artifact := "log4j-to-slf4j"
  version := ⟨['2'], [['1', '0'], ['0']], true, by decide, by decide, by decide⟩
  classifier := "-tests-2"
  extension := ".jar"
  inDirectory := by decide
  artifactInside := by decide
  unmarked := by decide
  classifierInside := by decide
  hyphenated := .inr ⟨_, rfl⟩
  settled := by decide
  known := by decide

theorem Jar.published_identity_nightly :
    let jar : Jar := { origin := "apps/shop.war!/WEB-INF\\log4j-to-slf4j-2.10.0-SNAPSHOT-tests-2.jar" }
    let c : Coordinate := ⟨"org.log", "bridge", "3"⟩
    (jar.origin = FileName.nightly.path ∧ jar.coordinate = none ∧
      jar.init.version = "2.10.0-SNAPSHOT" ∧ jar.init.artifactName = "log4j-to-slf4j-tests-2") ∧
    { jar with coordinate := some c }.init.version = "3" ∧
      { jar with coordinate := some c }.init.artifactName = "bridge" := by
  intro jar c
  have stored : jar.origin = FileName.nightly.path := by decide
  have told := published_identity.1 FileName.nightly jar stored rfl
  exact ⟨⟨stored, rfl, told.1.trans (by decide), told.2.trans (by decide)⟩,
    published_identity.2 { jar with coordinate := some c } c rfl⟩

end ClasspathAudit
