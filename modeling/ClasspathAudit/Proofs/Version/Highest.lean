import ClasspathAudit.Proofs.Text.Split
import ClasspathAudit.Version.Semantic
import Mathlib.Tactic

/-!
The highest of versions that are numbers with dots between them. They are compared number by number,
except that a version with a zero in front of other digits has no semantic version and stands below all
that have one.
-/

namespace ClasspathAudit

open Text

namespace SemanticVersion

/-- A number as it is written. -/
def IsNumber (digits : List Char) : Prop := digits ≠ [] ∧ ∀ c ∈ digits, isDigit c = true

instance (digits : List Char) : Decidable (IsNumber digits) :=
  @instDecidableAnd _ _ _ (List.decidableBAll _ digits)

/-- Where a number ends: at a dot or with the text. -/
def Ends (rest : List Char) : Prop := rest.head?.all (· = '.') = true

section

variable {first second third : List Char}

theorem takeWhile_number (number : IsNumber first) (rest : List Char) (ends : Ends rest) :
    (first ++ rest).takeWhile isDigit = first ∧ (first ++ rest).dropWhile isDigit = rest := by
  apply span_digits number.2
  cases rest with
  | nil => rfl
  | cons c tail =>
    obtain rfl : c = '.' := by simpa [Ends] using ends
    rfl

theorem group?_number (number : IsNumber first) (rest : List Char) (ends : Ends rest) :
    group? ('.' :: (first ++ rest)) = some (first, rest) := by
  obtain ⟨taken, left⟩ := takeWhile_number number rest ends
  rw [group?, taken, left]
  split
  next => exact absurd rfl number.1
  next => rfl

theorem numbers?_one (number : IsNumber first) :
    numbers? first = some ([first, ['0'], ['0']], []) := by
  obtain ⟨taken, left⟩ := takeWhile_number number [] rfl
  rw [List.append_nil] at taken left
  rw [numbers?, taken, left]
  split
  next => exact absurd rfl number.1
  next => rfl

theorem numbers?_two (number : IsNumber first) (number' : IsNumber second) :
    numbers? (first ++ '.' :: second) = some ([first, second, ['0']], []) := by
  obtain ⟨taken, left⟩ := takeWhile_number number ('.' :: second) rfl
  have follows := group?_number number' [] rfl
  rw [List.append_nil] at follows
  rw [numbers?, taken, left]
  split
  next => exact absurd rfl number.1
  next =>
    simp only [follows]
    rfl

theorem numbers?_three (number : IsNumber first) (number' : IsNumber second)
    (number'' : IsNumber third) :
    numbers? (first ++ '.' :: (second ++ '.' :: third)) = some ([first, second, third], []) := by
  obtain ⟨taken, left⟩ := takeWhile_number number ('.' :: (second ++ '.' :: third)) rfl
  have follows := group?_number number' ('.' :: third) rfl
  have last := group?_number number'' [] rfl
  rw [List.append_nil] at last
  rw [numbers?, taken, left]
  split
  next => exact absurd rfl number.1
  next =>
    simp only [follows, last]
    rfl

end

theorem compareVersions_eq_gt_iff {major minor patch major' minor' patch' : Nat} :
    compareVersions ⟨major, minor, patch, []⟩ ⟨major', minor', patch', []⟩ = .gt ↔
      [major', minor', patch'] < [major, minor, patch] := by
  simp only [compareVersions, comparePreReleases, Ordering.then_eq_gt, Nat.compare_eq_gt,
    Nat.compare_eq_eq, List.cons_lt_cons_iff]
  simp
  omega

end SemanticVersion

namespace Version

/-- The parts of a version between its dots. -/
def groups (version : String) : List (List Char) := splitAll '.' version.toList

/-- Whether a version is one to three numbers with dots between them. -/
def isPlain (version : String) : Bool :=
  decide ((groups version).length ≤ 3) &&
    (groups version).all fun group => !group.isEmpty && group.all isDigit

/-- The numbers of a version, three of them: a missing one is zero. -/
def numbers (version : String) : List Nat :=
  (List.range 3).map fun index => ((groups version)[index]?.map digitsValue).getD 0

/-- Whether a number of the version is written with a zero in front of other digits. -/
def isPadded (version : String) : Bool := (groups version).any SemanticVersion.hasLeadingZero

/-- The numbers that a plain version is compared by: none if it is padded, so that it stands below all
that are not. -/
def rank (version : String) : List Nat := if isPadded version then [] else numbers version

/-- The first of the versions of which none has a greater value. -/
def IsFirstMaximal (value : String → List Nat) (versions : List String) (best : String) : Prop :=
  ∃ front back, versions = front ++ best :: back ∧
    (∀ version ∈ front, value version < value best) ∧
    ∀ version ∈ back, ¬ value best < value version

section

variable {version other : String}

/-- A plain version is its groups, of which there are one, two or three. -/
theorem plain_cases (plain : isPlain version = true) :
    (∀ group ∈ groups version, SemanticVersion.IsNumber group) ∧
      ((∃ first, groups version = [first] ∧ version.toList = first) ∨
      (∃ first second, groups version = [first, second] ∧
        version.toList = first ++ '.' :: second) ∨
      ∃ first second third, groups version = [first, second, third] ∧
        version.toList = first ++ '.' :: (second ++ '.' :: third)) := by
  simp only [isPlain, Bool.and_eq_true, decide_eq_true_eq, List.all_eq_true, Bool.not_eq_true',
    List.isEmpty_eq_false_iff] at plain
  obtain ⟨few, digits⟩ := plain
  refine ⟨digits, ?_⟩
  have whole : List.intercalate ['.'] (groups version) = version.toList := intercalate_splitAll ..
  match cut : groups version with
  | [] => exact (splitAll_ne_nil _ _ cut).elim
  | [first] =>
    rw [cut] at whole
    exact .inl ⟨first, rfl, by simpa using whole.symm⟩
  | [first, second] =>
    rw [cut] at whole
    exact .inr (.inl ⟨first, second, rfl, by simpa [List.intercalate_cons_cons] using whole.symm⟩)
  | [first, second, third] =>
    rw [cut] at whole
    exact .inr (.inr ⟨first, second, third, rfl,
      by simpa [List.intercalate_cons_cons] using whole.symm⟩)
  | _ :: _ :: _ :: _ :: _ =>
    rw [cut] at few
    exact absurd few (by simp)

/-- A plain version is read up to its end, as numbers of which the missing are written zero. -/
theorem numbers?_plain (plain : isPlain version = true) :
    ∃ written, SemanticVersion.numbers? version.toList = some (written, []) ∧
      written.map digitsValue = numbers version ∧
      written.any SemanticVersion.hasLeadingZero = isPadded version := by
  obtain ⟨digits, ⟨first, cut, text⟩ | ⟨first, second, cut, text⟩ | ⟨first, second, third, cut, text⟩⟩ :=
    plain_cases plain
  · rw [cut, List.forall_mem_singleton] at digits
    refine ⟨[first, ['0'], ['0']], by rw [text, SemanticVersion.numbers?_one digits], ?_, ?_⟩
    · rw [numbers, cut]
      rfl
    · rw [isPadded, cut]
      simp [SemanticVersion.hasLeadingZero]
  · rw [cut, List.forall_mem_cons, List.forall_mem_singleton] at digits
    refine ⟨[first, second, ['0']],
      by rw [text, SemanticVersion.numbers?_two digits.1 digits.2], ?_, ?_⟩
    · rw [numbers, cut]
      rfl
    · rw [isPadded, cut]
      simp [SemanticVersion.hasLeadingZero]
  · rw [cut, List.forall_mem_cons, List.forall_mem_cons, List.forall_mem_singleton] at digits
    refine ⟨[first, second, third],
      by rw [text, SemanticVersion.numbers?_three digits.1 digits.2.1 digits.2.2], ?_, ?_⟩
    · rw [numbers, cut]
      rfl
    · rw [isPadded, cut]

theorem plain_letters (plain : isPlain version = true) :
    version.toList ≠ [] ∧ ∀ c ∈ version.toList, isDigit c = true ∨ c = '.' := by
  obtain ⟨digits, ⟨first, cut, text⟩ | ⟨first, second, cut, text⟩ | ⟨first, second, third, cut, text⟩⟩ :=
    plain_cases plain
  · rw [cut, List.forall_mem_singleton] at digits
    rw [text]
    exact ⟨digits.1, fun c member => .inl (digits.2 c member)⟩
  · rw [cut, List.forall_mem_cons, List.forall_mem_singleton] at digits
    rw [text, List.forall_mem_append, List.forall_mem_cons]
    exact ⟨by simp, fun c member => .inl (digits.1.2 c member), .inr rfl,
      fun c member => .inl (digits.2.2 c member)⟩
  · rw [cut, List.forall_mem_cons, List.forall_mem_cons, List.forall_mem_singleton] at digits
    rw [text, List.forall_mem_append, List.forall_mem_cons, List.forall_mem_append,
      List.forall_mem_cons]
    exact ⟨by simp, fun c member => .inl (digits.1.2 c member), .inr rfl,
      fun c member => .inl (digits.2.1.2 c member), .inr rfl,
      fun c member => .inl (digits.2.2.2 c member)⟩

theorem isEmpty_eq_false_of_plain (plain : isPlain version = true) : version.isEmpty = false := by
  rw [Bool.eq_false_iff, ne_eq, String.isEmpty_iff]
  rintro rfl
  exact (plain_letters plain).1 rfl

/-- Nothing in a plain version is left out before its numbers are read. -/
theorem trimBlankList_plain (plain : isPlain version = true) :
    trimBlankList version.toList = version.toList := by
  have visible : ∀ c ∈ version.toList, isBlank c = false := by
    have marks : ∀ c ∈ blanks, isDigit c = false ∧ c ≠ '.' := by
      simp [blanks, isDigit]
    intro c member
    rw [isBlank, Bool.eq_false_iff, ne_eq, List.contains_iff_mem]
    intro blank
    rcases (plain_letters plain).2 c member with digit | dot
    · rw [(marks c blank).1] at digit
      cases digit
    · exact (marks c blank).2 dot
  have kept : ∀ cs : List Char, (∀ c ∈ cs, isBlank c = false) → cs.dropWhile isBlank = cs := by
    intro cs free
    cases cs with
    | nil => rfl
    | cons c rest => rw [List.dropWhile_cons_of_neg (by simp [free c List.mem_cons_self])]
  rw [trimBlankList, kept _ visible, kept _ (by simpa using visible), List.reverse_reverse]

/-- A plain version has its numbers as semantic version, and none if it is padded. -/
theorem ofText?_plain (plain : isPlain version = true) :
    ∃ major minor patch, numbers version = [major, minor, patch] ∧
      SemanticVersion.ofText? version =
        if isPadded version then none else some ⟨major, minor, patch, []⟩ := by
  obtain ⟨written, read, values, padded⟩ := numbers?_plain plain
  obtain ⟨major, minor, patch, three⟩ : ∃ major minor patch, numbers version = [major, minor, patch] :=
    ⟨_, _, _, rfl⟩
  have unmarked : (String.ofList (SemanticVersion.trimMarks (SemanticVersion.hyphenate []))).isEmpty =
      true := rfl
  refine ⟨major, minor, patch, three, ?_⟩
  rw [SemanticVersion.ofText?, trimBlankList_plain plain, ← padded]
  split
  next rest text =>
    -- no letter stands in a plain version
    have letter := (plain_letters plain).2 'v' (text ▸ List.mem_cons_self)
    exact absurd letter (by decide)
  next =>
    simp only [read, Option.bind_eq_bind, Option.bind_some, unmarked, if_true, values, three]
    simp

/-- Versions compare as their lists of numbers do. -/
theorem isAbove_iff (plain : isPlain version = true) (plain' : isPlain other = true) :
    isAbove (SemanticVersion.ofText? version) (SemanticVersion.ofText? other) = true ↔
      rank other < rank version := by
  obtain ⟨major, minor, patch, values, read⟩ := ofText?_plain plain
  obtain ⟨major', minor', patch', values', read'⟩ := ofText?_plain plain'
  rw [rank, rank, read, read', values, values']
  cases isPadded version <;> cases isPadded other
  · simp [isAbove, SemanticVersion.compareVersions_eq_gt_iff]
  · simp [isAbove]
  · simp [isAbove]
  · simp [isAbove]

theorem highest_concat (versions : List String) (version : String) :
    highest (versions ++ [version]) =
      if (highest versions).isEmpty || isAbove (SemanticVersion.ofText? version)
        (SemanticVersion.ofText? (highest versions)) then version else highest versions := by
  rw [highest, List.foldl_append]
  rfl

/-- A further version is taken if its value is greater than that of the best one so far. -/
theorem IsFirstMaximal.concat {value : String → List Nat} {versions : List String} {best : String}
    (maximal : IsFirstMaximal value versions best) (version : String) :
    IsFirstMaximal value (versions ++ [version])
      (if value best < value version then version else best) := by
  obtain ⟨front, back, rfl, before, after⟩ := maximal
  split
  next greater =>
    refine ⟨front ++ best :: back, [], rfl, ?_, by simp⟩
    rw [List.forall_mem_append, List.forall_mem_cons]
    refine ⟨fun other member => (before other member).trans greater, greater, ?_⟩
    exact fun other member => (not_lt.mp (after other member)).trans_lt greater
  next notGreater =>
    refine ⟨front, back ++ [version], by simp, before, ?_⟩
    rw [List.forall_mem_append, List.forall_mem_singleton]
    exact ⟨after, notGreater⟩

theorem IsFirstMaximal.mem {value : String → List Nat} {versions : List String} {best : String}
    (maximal : IsFirstMaximal value versions best) : best ∈ versions := by
  obtain ⟨front, back, rfl, -⟩ := maximal
  simp

/-- Of plain versions the first that stands highest is taken. -/
theorem isFirstMaximal_rank {versions : List String}
    (plain : ∀ version ∈ versions, isPlain version = true) (present : versions ≠ []) :
    IsFirstMaximal rank versions (highest versions) := by
  induction versions using List.reverseRecOn with
  | nil => exact absurd rfl present
  | append_singleton versions version ih =>
    obtain ⟨before, last⟩ := List.forall_mem_append.mp plain
    rw [List.forall_mem_singleton] at last
    rw [highest_concat]
    by_cases first : versions = []
    · subst first
      exact ⟨[], [], rfl, by simp, by simp⟩
    · have best := ih before first
      have plainBest := before _ best.mem
      rw [isEmpty_eq_false_of_plain plainBest, Bool.false_or]
      simp only [isAbove_iff last plainBest]
      exact best.concat version

end

/-- Of versions that are numbers with dots between them, the first is taken that stands highest number
by number. This leaves out those with a zero in front of other digits, which stand below all others. -/
theorem highest_plain (versions : List String) (present : versions ≠ [])
    (plain : ∀ version ∈ versions, isPlain version = true) :
    IsFirstMaximal rank versions (highest versions) ∧
      ((∀ version ∈ versions, isPadded version = false) →
        IsFirstMaximal numbers versions (highest versions)) := by
  have best := isFirstMaximal_rank plain present
  refine ⟨best, fun unpadded => ?_⟩
  have numbered : ∀ version ∈ versions, rank version = numbers version := by
    intro version member
    rw [rank, unpadded version member, if_neg Bool.false_ne_true]
  obtain ⟨front, back, split, before, after⟩ := best
  generalize highest versions = best at *
  subst split
  rw [List.forall_mem_append, List.forall_mem_cons] at numbered
  obtain ⟨inFront, same, behind⟩ := numbered
  refine ⟨front, back, rfl, fun version member => ?_, fun version member => ?_⟩
  · rw [← inFront version member, ← same]
    exact before version member
  · rw [← behind version member, ← same]
    exact after version member

theorem highest_plain_releases :
    (["1.9", "1.10", "1.10.0", "1.09"] ≠ [] ∧
      ∀ version ∈ ["1.9", "1.10", "1.10.0", "1.09"], isPlain version = true) ∧
    IsFirstMaximal rank ["1.9", "1.10", "1.10.0", "1.09"] "1.10" := by
  have plain : ∀ version ∈ ["1.9", "1.10", "1.10.0", "1.09"], isPlain version = true := by decide
  have best : highest ["1.9", "1.10", "1.10.0", "1.09"] = "1.10" := by decide
  refine ⟨⟨by simp, plain⟩, ?_⟩
  rw [← best]
  exact (highest_plain _ (by simp) plain).1

/-- Of two months, the later one is not taken for the zero in front of its number. -/
theorem padded_month_not_highest :
    ¬ ∀ versions : List String, versions ≠ [] → (∀ version ∈ versions, isPlain version = true) →
      IsFirstMaximal numbers versions (highest versions) := by
  intro numeric
  have plain : ∀ version ∈ ["2023.12", "2024.01"], isPlain version = true := by decide
  have taken : highest ["2023.12", "2024.01"] = "2023.12" := by decide
  have later : numbers "2023.12" < numbers "2024.01" := by decide
  obtain ⟨front, back, split, before, after⟩ := numeric _ (by simp) plain
  rw [taken] at split before after
  cases front with
  | nil =>
    obtain rfl : ["2024.01"] = back := by simpa using split
    exact after "2024.01" List.mem_cons_self later
  | cons first front =>
    obtain rfl : "2023.12" = first := (List.cons.inj split).1
    exact lt_irrefl _ (before "2023.12" List.mem_cons_self)

end Version

end ClasspathAudit
