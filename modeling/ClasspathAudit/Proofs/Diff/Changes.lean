import ClasspathAudit.Proofs.Diff.Rows
import ClasspathAudit.Proofs.Diff.Sections

/-!
When a difference has no changes: exactly if, under each section name, the two reports have the same
rows of each key in the same order, cell by cell.
-/

namespace ClasspathAudit

namespace RowDiff

theorem status_ofPair {columns : Nat} {old new : Row} :
    (ofPair columns old new).status = .unchanged ↔ old.SameCells new := by
  rw [← differingColumns_eq_nil old new columns, ofPair]
  split
  next none => simp [List.isEmpty_iff.mp none]
  next some =>
    rw [List.isEmpty_iff] at some
    simp [some, DiffStatus.changed, DiffStatus.unchanged]

theorem ofPair_self (columns : Nat) (row : Row) :
    (ofPair columns row row).status = .unchanged ∧ (ofPair columns row row).changedColumns = [] ∧
      (ofPair columns row row).severityChanged = false := by
  have none : differingColumns row row columns = [] :=
    (differingColumns_eq_nil row row columns).mpr fun _ => Cell.equal_self _
  simp [ofPair, none]

end RowDiff

namespace SectionDiff

/-- Every row has a partner, with the same cells. -/
structure Matching (old new : List Row) : Prop where
  oldPaired : ∀ oldPlace < old.length, ∃ newPlace, Paired old new oldPlace newPlace
  newPaired : ∀ newPlace < new.length, ∃ oldPlace, Paired old new oldPlace newPlace
  same : ∀ {oldPlace newPlace row row'}, Paired old new oldPlace newPlace →
    old[oldPlace]? = some row → new[newPlace]? = some row' → row.SameCells row'

theorem status_unpairedOld (columns : Nat) (row : Row) :
    (unpairedOld columns row).status ≠ .unchanged := by
  rw [unpairedOld]
  split <;> simp [RowDiff.ofUnpaired, RowDiff.ofRemoved, DiffStatus.changed, DiffStatus.removed,
    DiffStatus.unchanged]

theorem status_unpairedNew (columns : Nat) (row : Row) :
    (unpairedNew columns row).status ≠ .unchanged := by
  rw [unpairedNew]
  split <;> simp [RowDiff.ofUnpaired, RowDiff.ofAdded, DiffStatus.changed, DiffStatus.added,
    DiffStatus.unchanged]

theorem unchanged_iff_matching (old new : Section) :
    (∀ d ∈ rowsOf old new, d.status = .unchanged) ↔ Matching old.findings new.findings := by
  rw [rowsOf_eq_map]
  constructor
  · intro unchanged
    have status := fun origin member => unchanged _ (List.mem_map_of_mem (a := origin) member)
    refine ⟨?_, ?_, ?_⟩
    · intro oldPlace bound
      by_contra lone
      exact status_unpairedOld _ _ (status _ (old_mem_origins.mpr ⟨bound, not_exists.mp lone⟩))
    · intro newPlace bound
      by_contra lone
      exact status_unpairedNew _ _ (status _ (new_mem_origins.mpr ⟨bound, not_exists.mp lone⟩))
    · intro oldPlace newPlace row row' paired here there
      have pair := status _ (both_mem_origins.mpr paired)
      rw [rowAt, here, there] at pair
      exact RowDiff.status_ofPair.mp pair
  · intro matching d listed
    obtain ⟨origin, member, rfl⟩ := List.mem_map.mp listed
    cases origin with
    | both oldPlace newPlace =>
      have paired := both_mem_origins.mp member
      obtain ⟨bound, bound'⟩ := paired.bounds
      have here := List.getElem?_eq_getElem bound
      have there := List.getElem?_eq_getElem bound'
      rw [rowAt, here, there]
      exact RowDiff.status_ofPair.mpr (matching.same paired here there)
    | old place =>
      obtain ⟨bound, lone⟩ := old_mem_origins.mp member
      obtain ⟨newPlace, paired⟩ := matching.oldPaired place bound
      exact absurd paired (lone newPlace)
    | new place =>
      obtain ⟨bound, lone⟩ := new_mem_origins.mp member
      obtain ⟨oldPlace, paired⟩ := matching.newPaired place bound
      exact absurd paired (lone oldPlace)

/-- For each key, the two sides have the same rows in the same order. -/
def SameByKey (old new : List Row) : Prop :=
  ∀ key, List.Forall₂ Row.SameCells (old.filter (·.key = key)) (new.filter (·.key = key))

/-- A row stands among the rows of its key at its number. -/
theorem getElem?_of_identity? {rows : List Row} {place : Nat} {tag : String × Nat} {row : Row}
    (identified : identity? rows place = some tag) (found : rows[place]? = some row) :
    (rows.filter (·.key = tag.1))[tag.2]? = some row :=
  (getElem?_filter_key ..).mpr ⟨place, found, identified⟩

theorem exists_identity? {rows : List Row} {place : Nat} (bound : place < rows.length) :
    ∃ tag, identity? rows place = some tag :=
  Option.isSome_iff_exists.mp (identity?_isSome.mpr bound)

/-- If every row has a partner, the other side has no fewer rows of each key. -/
theorem length_filter_le {rows others : List Row}
    (paired : ∀ place < rows.length, ∃ place', Paired rows others place place') (key : String) :
    (rows.filter (·.key = key)).length ≤ (others.filter (·.key = key)).length := by
  by_contra fewer
  -- the first row of the key that the other side has none left for
  have surplus := List.getElem?_eq_getElem (not_le.mp fewer)
  obtain ⟨place, found, identified⟩ := (getElem?_filter_key ..).mp surplus
  obtain ⟨place', tag, identified', partner⟩ := paired place (List.getElem?_eq_some_iff.mp found).1
  rw [identified, Option.some_inj] at identified'
  subst identified'
  have inside := getElem?_of_identity? partner
    (List.getElem?_eq_getElem (identity?_isSome.mp (by simp [partner])))
  exact lt_irrefl _ (List.getElem?_eq_some_iff.mp inside).1

/-- A row has a partner if the other side has as many rows of its key. -/
theorem exists_paired {rows others : List Row}
    (counted : ∀ key, (rows.filter (·.key = key)).length = (others.filter (·.key = key)).length)
    {place : Nat} (bound : place < rows.length) : ∃ place', Paired rows others place place' := by
  obtain ⟨tag, identified⟩ := exists_identity? bound
  have found := getElem?_of_identity? identified (List.getElem?_eq_getElem bound)
  have inside : tag.2 < (others.filter (·.key = tag.1)).length := by
    rw [← counted]
    exact (List.getElem?_eq_some_iff.mp found).1
  obtain ⟨place', _, identified'⟩ := (getElem?_filter_key ..).mp (List.getElem?_eq_getElem inside)
  exact ⟨place', tag, identified, identified'⟩

theorem Matching.sameByKey {old new : List Row} (matching : Matching old new) :
    SameByKey old new := by
  intro key
  have newPaired : ∀ place < new.length, ∃ place', Paired new old place place' := by
    intro place bound
    obtain ⟨place', paired⟩ := matching.newPaired place bound
    exact ⟨place', paired.symm⟩
  have counted := le_antisymm (length_filter_le matching.oldPaired key) (length_filter_le newPaired key)
  refine List.forall₂_iff_get.mpr ⟨counted, ?_⟩
  intro number bound bound'
  obtain ⟨oldPlace, here, identified⟩ := (getElem?_filter_key ..).mp (List.getElem?_eq_getElem bound)
  obtain ⟨newPlace, there, identified'⟩ :=
    (getElem?_filter_key ..).mp (List.getElem?_eq_getElem bound')
  exact matching.same ⟨_, identified, identified'⟩ here there

theorem SameByKey.matching {old new : List Row} (same : SameByKey old new) : Matching old new := by
  have counted := fun key => (same key).length_eq
  refine ⟨fun _ bound => exists_paired counted bound, ?_, ?_⟩
  · intro newPlace bound
    obtain ⟨oldPlace, paired⟩ := exists_paired (fun key => (counted key).symm) bound
    exact ⟨oldPlace, paired.symm⟩
  · rintro oldPlace newPlace row row' ⟨tag, identified, identified'⟩ here there
    obtain ⟨bound, rfl⟩ := List.getElem?_eq_some_iff.mp (getElem?_of_identity? identified here)
    obtain ⟨bound', rfl⟩ := List.getElem?_eq_some_iff.mp (getElem?_of_identity? identified' there)
    exact (List.forall₂_iff_get.mp (same tag.1)).2 tag.2 bound bound'

theorem rowsOf_self {s : Section} {d : RowDiff} (listed : d ∈ rowsOf s s) :
    ∃ row, d = .ofPair s.columnList.length row row := by
  rw [rowsOf_eq_map] at listed
  obtain ⟨origin, member, rfl⟩ := List.mem_map.mp listed
  have own : ∀ {place}, place < s.findings.length → Paired s.findings s.findings place place := by
    intro place bound
    obtain ⟨tag, identified⟩ := exists_identity? bound
    exact ⟨tag, identified, identified⟩
  cases origin with
  | both oldPlace newPlace =>
    have paired := both_mem_origins.mp member
    obtain rfl := paired.old_unique (own paired.bounds.2)
    exact ⟨_, rfl⟩
  | old place =>
    obtain ⟨bound, lone⟩ := old_mem_origins.mp member
    exact absurd (own bound) (lone place)
  | new place =>
    obtain ⟨bound, lone⟩ := new_mem_origins.mp member
    exact absurd (own bound) (lone place)

theorem status_rowsOf {old new : Section} {d : RowDiff} (listed : d ∈ rowsOf old new) :
    d.status = .unchanged ∨ d.status = .added ∨ d.status = .removed ∨ d.status = .changed := by
  rw [rowsOf_eq_map] at listed
  obtain ⟨origin, _, rfl⟩ := List.mem_map.mp listed
  cases origin with
  | both oldPlace newPlace =>
    simp only [rowAt, RowDiff.ofPair]
    split
    · exact .inl rfl
    · exact .inr (.inr (.inr rfl))
  | old place =>
    rw [rowAt, unpairedOld]
    split
    · exact .inr (.inr (.inr rfl))
    · exact .inr (.inr (.inl rfl))
  | new place =>
    rw [rowAt, unpairedNew]
    split
    · exact .inr (.inr (.inr rfl))
    · exact .inr (.inl rfl)

/-- What two reports have under a section name does not differ. A section that one of them lacks has no
rows in the other. -/
def Unaltered : (old new : Option Section) → Prop
  | some old, some new => SameByKey old.findings new.findings
  | some old, none => old.findings = []
  | none, some new => new.findings = []
  | none, none => True

theorem unaltered_iff (old new : Option Section) : Unaltered old new ↔
    ∀ d, between? old new = some d → ∀ row ∈ d.rowList, row.status = .unchanged := by
  match old, new with
  | some old, some new =>
    simp only [Unaltered, between?, Option.some.injEq, forall_eq', rowList_ofPair,
      unchanged_iff_matching]
    exact ⟨SameByKey.matching, Matching.sameByKey⟩
  | some old, none =>
    simp [Unaltered, between?, RowDiff.ofRemoved, DiffStatus.removed, DiffStatus.unchanged,
      List.eq_nil_iff_forall_not_mem]
  | none, some new =>
    simp [Unaltered, between?, RowDiff.ofAdded, DiffStatus.added, DiffStatus.unchanged,
      List.eq_nil_iff_forall_not_mem]
  | none, none => simp [Unaltered, between?]

end SectionDiff

namespace DiffReport

/-- A row of a difference is unchanged, added, removed or changed. -/
theorem status_between {old new : Report} {d : SectionDiff} (member : d ∈ (between old new).sectionList)
    {row : RowDiff} (listed : row ∈ d.rowList) :
    row.status = .unchanged ∨ row.status = .added ∨ row.status = .removed ∨ row.status = .changed := by
  rw [sectionList_between, List.mem_append, List.mem_map, List.mem_map] at member
  rcases member with ⟨s, _, rfl⟩ | ⟨s, _, rfl⟩
  · split at listed
    · rw [SectionDiff.rowList_ofPair] at listed
      exact SectionDiff.status_rowsOf listed
    · rw [SectionDiff.rowList_ofAdded, List.mem_map] at listed
      obtain ⟨finding, _, rfl⟩ := listed
      exact .inr (.inl rfl)
  · rw [SectionDiff.rowList_ofRemoved, List.mem_map] at listed
    obtain ⟨finding, _, rfl⟩ := listed
    exact .inr (.inr (.inl rfl))

theorem count_eq_zero_iff (d : DiffReport) (status : DiffStatus) :
    d.count status = 0 ↔ ∀ s ∈ d.sectionList, ∀ row ∈ s.rowList, row.status ≠ status := by
  rw [count, List.countP_eq_zero]
  simp only [List.mem_flatMap, decide_eq_true_eq]
  constructor
  · exact fun absent s member row listed => absent row ⟨s, member, listed⟩
  · rintro absent row ⟨s, member, listed⟩
    exact absent s member row listed

theorem hasChanges_eq_false (old new : Report) : (between old new).hasChanges = false ↔
    ∀ s ∈ (between old new).sectionList, ∀ row ∈ s.rowList, row.status = .unchanged := by
  have none : (between old new).hasChanges = false ↔ (between old new).count .added = 0 ∧
      (between old new).count .removed = 0 ∧ (between old new).count .changed = 0 := by
    rw [hasChanges, decide_eq_false_iff_not]
    omega
  rw [none, count_eq_zero_iff, count_eq_zero_iff, count_eq_zero_iff]
  constructor
  · rintro ⟨added, removed, changed⟩ s member row listed
    rcases status_between member listed with status | status | status | status
    · exact status
    · exact absurd status (added s member row listed)
    · exact absurd status (removed s member row listed)
    · exact absurd status (changed s member row listed)
  · intro unchanged
    refine ⟨?_, ?_, ?_⟩ <;>
      intro s member row listed <;>
      rw [unchanged s member row listed] <;>
      decide

/-- A difference has no changes exactly if under each section name the reports have the same rows of
each key. A report compared with itself has unchanged rows only. -/
theorem hasChanges_exact (old new : Report) (oldDistinct : old.DistinctSections)
    (newDistinct : new.DistinctSections) :
    ((between old new).hasChanges = false ↔
      ∀ name, SectionDiff.Unaltered (old.section? name) (new.section? name)) ∧
    ∀ report : Report, report.DistinctSections →
      ∀ s ∈ (between report report).sectionList, ∀ row ∈ s.rowList,
        row.status = .unchanged ∧ row.changedColumns = [] ∧ row.severityChanged = false := by
  have distinct := distinctSections_between oldDistinct newDistinct
  constructor
  · rw [hasChanges_eq_false]
    simp only [SectionDiff.unaltered_iff, ← section?_between]
    constructor
    · intro unchanged name s found
      exact unchanged s (List.mem_of_find?_eq_some found)
    · intro unchanged s member
      exact unchanged s.name s (section?_eq_some_of_mem distinct member)
  · intro report own s member row listed
    have found := section?_eq_some_of_mem (distinctSections_between own own) member
    rw [section?_between] at found
    cases table : report.section? s.name with
    | none =>
      rw [table] at found
      cases found
    | some t =>
      rw [table] at found
      obtain rfl : SectionDiff.ofPair t t = s := Option.some.inj found
      rw [SectionDiff.rowList_ofPair] at listed
      obtain ⟨finding, rfl⟩ := SectionDiff.rowsOf_self listed
      exact RowDiff.ofPair_self ..

/-- A repeated key, a row without key, an empty last cell and a table without rows. -/
def listedTables : Report :=
  .ofSections [.ofTexts "packages" [("app", ["1"]), ("lib", ["2"]), ("app", ["3", ""]), ("", ["x"])],
    .ofTexts "anomalies" []]

/-- The same rows with the keys in another order. -/
def shuffledTables : Report :=
  .ofSections [.ofTexts "packages" [("", ["x"]), ("lib", ["2"]), ("app", ["1"]), ("app", ["3"])]]

theorem hasChanges_exact_tables :
    listedTables.DistinctSections ∧ shuffledTables.DistinctSections ∧
    (between listedTables shuffledTables).hasChanges = false ∧
    ∀ name, SectionDiff.Unaltered (listedTables.section? name) (shuffledTables.section? name) := by
  have distinct : listedTables.DistinctSections := by decide
  have distinct' : shuffledTables.DistinctSections := by decide
  have unchanged : (between listedTables shuffledTables).hasChanges = false := by decide +kernel
  exact ⟨distinct, distinct', unchanged,
    (hasChanges_exact listedTables shuffledTables distinct distinct').1.mp unchanged⟩

end DiffReport

end ClasspathAudit
