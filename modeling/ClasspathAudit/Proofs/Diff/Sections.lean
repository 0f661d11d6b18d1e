import ClasspathAudit.Proofs.Diff.Origins

/-!
The sections of a difference. A difference has one section for each name that one of the two reports
has, and what it says there depends on the sections of that name only.
-/

namespace ClasspathAudit

/-- Among items that differ in what `f` says of them, each is found by it. -/
theorem find?_of_nodup_map {α β : Type} [DecidableEq β] {f : α → β} {items : List α}
    (apart : (items.map f).Nodup) {item : α} (member : item ∈ items) :
    items.find? (fun other => f other = f item) = some item := by
  have present : (items.find? fun other => f other = f item).isSome = true :=
    List.find?_isSome.mpr ⟨item, member, by simp⟩
  obtain ⟨found, first⟩ := Option.isSome_iff_exists.mp present
  have same : f found = f item := by simpa using List.find?_some first
  rw [first, List.inj_on_of_nodup_map apart (List.mem_of_find?_eq_some first) member same]

/-- No two sections of a report have the same name. -/
def Report.DistinctSections (r : Report) : Prop := (r.sectionList.map Section.name).Nodup

instance (r : Report) : Decidable r.DistinctSections :=
  inferInstanceAs (Decidable (List.Nodup _))

/-- A table of texts with a key for each row. -/
def Section.ofTexts (name : String) (rows : List (String × List String)) : Section where
  name := name
  title := name
  description := ""
  columns := none
  rows := some (rows.map fun (key, texts) => some ⟨key, .info, some (texts.map .string)⟩)

def Report.ofSections (sections : List Section) : Report where
  id := ""
  title := ""
  label := ""
  summary := ⟨0, 0, 8, ⟨0, 0, 0⟩⟩
  sections := some (sections.map some)

namespace SectionDiff

@[simp]
theorem rowList_ofAdded (s : Section) : (ofAdded s).rowList = s.findings.map RowDiff.ofAdded :=
  filterMap_presentItems _

@[simp]
theorem rowList_ofRemoved (s : Section) : (ofRemoved s).rowList = s.findings.map RowDiff.ofRemoved :=
  filterMap_presentItems _

@[simp]
theorem rowList_inverse (d : SectionDiff) : d.inverse.rowList = d.rowList.map RowDiff.inverse :=
  filterMap_presentItems _

/-- The difference of the sections that two reports have under a name. -/
def between? : (old new : Option Section) → Option SectionDiff
  | some old, some new => some (ofPair old new)
  | none, some new => some (ofAdded new)
  | some old, none => some (ofRemoved old)
  | none, none => none

end SectionDiff

namespace DiffReport

theorem sectionList_between (old new : Report) :
    (between old new).sectionList = new.sectionList.map (fun s =>
      match old.section? s.name with
      | some oldSection => .ofPair oldSection s
      | none => .ofAdded s) ++ (lacking old new).map .ofRemoved :=
  filterMap_presentItems _

@[simp]
theorem sectionList_inverse (d : DiffReport) :
    d.inverse.sectionList = d.sectionList.map SectionDiff.inverse :=
  filterMap_presentItems _

theorem section?_inverse (d : DiffReport) (name : String) :
    d.inverse.section? name = (d.section? name).map SectionDiff.inverse := by
  rw [section?, section?, sectionList_inverse, List.find?_map]
  rfl

theorem find?_lacking (old new : Report) (name : String) :
    (lacking old new).find? (·.name = name) =
      if (new.section? name).isNone then old.section? name else none := by
  rw [lacking, List.find?_filter]
  split
  next lacks =>
    rw [Report.section?]
    congr 1
    funext s
    by_cases named : s.name = name
    · simp [named, lacks]
    · simp [named]
  next has =>
    rw [List.find?_eq_none]
    intro s _
    by_cases named : s.name = name
    · simp [named, has]
    · simp [named]

theorem name_against (old : Report) (s : Section) : (match old.section? s.name with
    | some oldSection => SectionDiff.ofPair oldSection s
    | none => SectionDiff.ofAdded s).name = s.name := by
  split <;> rfl

theorem section?_between (old new : Report) (name : String) :
    (between old new).section? name =
      SectionDiff.between? (old.section? name) (new.section? name) := by
  rw [section?, sectionList_between, List.find?_append, List.find?_map, List.find?_map]
  have first : new.sectionList.find? ((fun d : SectionDiff => decide (d.name = name)) ∘ fun s =>
      match old.section? s.name with
      | some oldSection => .ofPair oldSection s
      | none => .ofAdded s) = new.section? name := by
    rw [Report.section?]
    congr 1
    funext s
    simp only [Function.comp_apply, name_against]
  have second : (lacking old new).find? ((fun d : SectionDiff => decide (d.name = name)) ∘
      SectionDiff.ofRemoved) = if (new.section? name).isNone then old.section? name else none :=
    find?_lacking old new name
  rw [first, second]
  cases found : new.section? name with
  | none => cases old.section? name <;> rfl
  | some s =>
    have here : s.name = name := by simpa using List.find?_some found
    simp only [Option.map_some, Option.some_or, here]
    cases old.section? name <;> rfl

def DistinctSections (d : DiffReport) : Prop := (d.sectionList.map SectionDiff.name).Nodup

theorem distinctSections_between {old new : Report} (oldDistinct : old.DistinctSections)
    (newDistinct : new.DistinctSections) : (between old new).DistinctSections := by
  have newNames : (new.sectionList.map fun s => (match old.section? s.name with
      | some oldSection => SectionDiff.ofPair oldSection s
      | none => SectionDiff.ofAdded s).name) = new.sectionList.map Section.name :=
    List.map_congr_left fun s _ => name_against old s
  rw [DistinctSections, sectionList_between, List.map_append, List.map_map, List.map_map,
    Function.comp_def, newNames]
  refine List.nodup_append'.mpr ⟨newDistinct, (List.filter_sublist.map _).nodup oldDistinct, ?_⟩
  intro name inNew inOld
  obtain ⟨s, member, rfl⟩ := List.mem_map.mp inOld
  obtain ⟨t, member', same⟩ := List.mem_map.mp inNew
  have lacks := (List.mem_filter.mp member).2
  rw [Option.isNone_iff_eq_none, Report.section?, List.find?_eq_none] at lacks
  exact lacks t member' (decide_eq_true same)

section

variable {d e : DiffReport}

theorem mem_names_iff {name : String} :
    name ∈ d.sectionList.map SectionDiff.name ↔ (d.section? name).isSome := by
  rw [section?, List.find?_isSome, List.mem_map]
  simp

theorem section?_eq_some_of_mem (distinct : d.DistinctSections) {s : SectionDiff}
    (member : s ∈ d.sectionList) : d.section? s.name = some s :=
  find?_of_nodup_map distinct member

/-- How many rows of a section of a difference have a status. -/
def countIn (d : DiffReport) (status : DiffStatus) (name : String) : Option Nat :=
  (d.section? name).map fun s => s.rowList.countP (·.status = status)

theorem count_eq_sum (distinct : d.DistinctSections) (status : DiffStatus) :
    d.count status = ((d.sectionList.map SectionDiff.name).map fun name =>
      (d.countIn status name).getD 0).sum := by
  rw [count, List.countP_flatMap, List.map_map]
  congr 1
  apply List.map_congr_left
  intro s member
  simp [countIn, section?_eq_some_of_mem distinct member]

/-- Differences that count the same under each name count the same as a whole. -/
theorem count_congr (distinct : d.DistinctSections) (distinct' : e.DistinctSections)
    {status status' : DiffStatus} (same : ∀ name, d.countIn status name = e.countIn status' name) :
    d.count status = e.count status' := by
  have names : (d.sectionList.map SectionDiff.name).Perm (e.sectionList.map SectionDiff.name) := by
    refine (List.perm_ext_iff_of_nodup distinct distinct').mpr fun name => ?_
    have present := congrArg Option.isSome (same name)
    rw [countIn, countIn, Option.isSome_map, Option.isSome_map] at present
    rw [mem_names_iff, mem_names_iff, present]
  rw [count_eq_sum distinct, count_eq_sum distinct']
  simp only [same]
  exact (names.map _).sum_eq

end

end DiffReport

end ClasspathAudit
