import ClasspathAudit.Proofs.Diff.Rows
import ClasspathAudit.Proofs.Diff.Sections

/-!
Comparing in the other direction. The difference of two reports, inverted, has the sections and rows of
the difference the other way round, up to the order of the rows and the lines of changed cells.
-/

namespace ClasspathAudit

namespace SectionDiff

def Origin.swap : Origin → Origin
  | .both oldPlace newPlace => .both newPlace oldPlace
  | .old place => .new place
  | .new place => .old place

theorem Origin.swap_involutive : Function.Involutive Origin.swap := by
  intro origin
  cases origin <;> rfl

theorem Paired.comm {old new : List Row} {oldPlace newPlace : Nat} :
    Paired old new oldPlace newPlace ↔ Paired new old newPlace oldPlace :=
  ⟨Paired.symm, Paired.symm⟩

/-- The two directions have the same origins, with the sides exchanged. -/
theorem map_swap_origins (old new : List Row) :
    ((origins old new).map Origin.swap).Perm (origins new old) := by
  have distinct : ((origins old new).map Origin.swap).Nodup :=
    nodup_origins.map Origin.swap_involutive.injective
  -- the orders differ, but neither list repeats an origin, so it is enough to compare members
  refine (List.perm_ext_iff_of_nodup distinct nodup_origins).mpr fun origin => ?_
  rw [List.mem_map_of_involutive Origin.swap_involutive]
  cases origin with
  | both oldPlace newPlace =>
    rw [Origin.swap, both_mem_origins, both_mem_origins]
    exact Paired.comm
  | old place => simp only [Origin.swap, new_mem_origins, old_mem_origins, Paired.comm]
  | new place => simp only [Origin.swap, new_mem_origins, old_mem_origins, Paired.comm]

section

variable {old new : List Row} (columns columns' : Nat)

theorem Paired.key_eq {oldPlace newPlace : Nat} (paired : Paired old new oldPlace newPlace) :
    (old[oldPlace]?.getD RowDiff.standIn).key = (new[newPlace]?.getD RowDiff.standIn).key := by
  obtain ⟨tag, here, there⟩ := paired
  obtain ⟨row, found, rfl⟩ := Option.map_eq_some_iff.mp here
  obtain ⟨row', found', same⟩ := Option.map_eq_some_iff.mp there
  rw [found, found']
  exact (congrArg Prod.fst same).symm

theorem outline_inverse_unpairedOld (row : Row) :
    (unpairedOld columns row).inverse.outline = (unpairedNew columns' row).outline := by
  rw [unpairedOld, unpairedNew]
  split
  next keyless => exact RowDiff.outline_inverse_ofUnpaired _ _ (String.isEmpty_iff.mp keyless)
  next => rfl

theorem outline_inverse_unpairedNew (row : Row) :
    (unpairedNew columns row).inverse.outline = (unpairedOld columns' row).outline := by
  rw [unpairedOld, unpairedNew]
  split
  next keyless => exact RowDiff.outline_inverse_ofUnpaired _ _ (String.isEmpty_iff.mp keyless).symm
  next => rfl

theorem outline_inverse_rowAt {origin : Origin} (member : origin ∈ origins old new) :
    (rowAt columns old new origin).inverse.outline = (rowAt columns' new old origin.swap).outline := by
  cases origin with
  | both oldPlace newPlace =>
    exact RowDiff.outline_inverse_ofPair _ _ (both_mem_origins.mp member).key_eq
  | old place => exact outline_inverse_unpairedOld ..
  | new place => exact outline_inverse_unpairedNew ..

end

/-- The rows of a difference, inverted, are those of the difference the other way round. -/
theorem outlines_inverse_rowsOf (old new : Section) :
    ((rowsOf old new).map fun d => d.inverse.outline).Perm ((rowsOf new old).map RowDiff.outline) := by
  rw [rowsOf_eq_map old new, rowsOf_eq_map new old, List.map_map, List.map_map]
  have swapped : (origins old.findings new.findings).map
      ((fun d => d.inverse.outline) ∘ rowAt new.columnList.length old.findings new.findings) =
      ((origins old.findings new.findings).map Origin.swap).map
        (RowDiff.outline ∘ rowAt old.columnList.length new.findings old.findings) := by
    rw [List.map_map]
    exact List.map_congr_left fun origin member => outline_inverse_rowAt _ _ member
  rw [swapped]
  exact (map_swap_origins ..).map _

/-- What is compared of a section difference: its status and the outlines of its rows, in no order. -/
def digest (d : SectionDiff) : DiffStatus × Multiset RowDiff.Outline :=
  (d.status, (d.rowList.map RowDiff.outline : List RowDiff.Outline))

theorem allUnchanged_comm (old new : Section) :
    (rowsOf old new).all (·.status = .unchanged) = (rowsOf new old).all (·.status = .unchanged) := by
  calc (rowsOf old new).all (·.status = .unchanged)
    _ = ((rowsOf old new).map fun d => d.inverse.outline).all (·.status = .unchanged) := by
      rw [List.all_map]
      congr 1
      funext d
      exact decide_eq_decide.mpr (DiffStatus.inverse_eq_iff (t := .unchanged)).symm
    _ = ((rowsOf new old).map RowDiff.outline).all (·.status = .unchanged) :=
      (outlines_inverse_rowsOf old new).all_eq
    _ = (rowsOf new old).all (·.status = .unchanged) := by
      rw [List.all_map]
      rfl

theorem digest_inverse_ofPair (old new : Section) :
    (ofPair old new).inverse.digest = (ofPair new old).digest := by
  have status : (ofPair old new).inverse.status = (ofPair new old).status := by
    simp only [inverse, ofPair, allUnchanged_comm old new]
    split <;> rfl
  rw [digest, digest, status, rowList_inverse, List.map_map, rowList_ofPair, rowList_ofPair]
  exact congrArg _ (Multiset.coe_eq_coe.mpr (outlines_inverse_rowsOf old new))

theorem digest_inverse_ofAdded (s : Section) : (ofAdded s).inverse.digest = (ofRemoved s).digest := by
  simp only [digest, rowList_inverse, rowList_ofAdded, rowList_ofRemoved, List.map_map]
  rfl

theorem digest_inverse_ofRemoved (s : Section) : (ofRemoved s).inverse.digest = (ofAdded s).digest := by
  simp only [digest, rowList_inverse, rowList_ofAdded, rowList_ofRemoved, List.map_map]
  rfl

theorem digest_inverse_between? (old new : Option Section) :
    (between? old new).map (fun d => d.inverse.digest) = (between? new old).map digest := by
  match old, new with
  | some old, some new => exact congrArg some (digest_inverse_ofPair old new)
  | none, some new => exact congrArg some (digest_inverse_ofAdded new)
  | some old, none => exact congrArg some (digest_inverse_ofRemoved old)
  | none, none => rfl

theorem lined_rowAt (columns : Nat) (old new : List Row) (origin : Origin) :
    (rowAt columns old new origin).Lined := by
  cases origin with
  | both oldPlace newPlace => exact RowDiff.lined_ofPair _ _ _
  | old place =>
    rw [rowAt, unpairedOld]
    split
    · exact RowDiff.lined_ofPair _ _ _
    · exact List.forall_mem_nil _
  | new place =>
    rw [rowAt, unpairedNew]
    split
    · exact RowDiff.lined_ofPair _ _ _
    · exact List.forall_mem_nil _

/-- Inverting twice gives a section difference back, if it holds its rows as a list without gaps. -/
theorem inverse_inverse {d : SectionDiff} {rows : List RowDiff} (present : d.rows = presentItems rows)
    (lined : ∀ row ∈ rows, row.Lined) : d.inverse.inverse = d := by
  have listed : d.rowList = rows := by rw [rowList, present, filterMap_presentItems]
  have twice : (rows.map RowDiff.inverse).map RowDiff.inverse = rows := by
    rw [List.map_map]
    conv_rhs => rw [← List.map_id rows]
    exact List.map_congr_left fun row member => RowDiff.inverse_inverse (lined row member)
  have restored : d.inverse.inverse =
      { d with rows := presentItems (d.inverse.rowList.map RowDiff.inverse) } := by
    simp [inverse]
  rw [restored, rowList_inverse, listed, twice, ← present]

theorem inverse_inverse_ofPair (old new : Section) :
    (ofPair old new).inverse.inverse = ofPair old new := by
  apply inverse_inverse rfl
  rw [rowsOf_eq_map]
  exact List.forall_mem_map.mpr fun origin _ => lined_rowAt _ _ _ _

theorem inverse_inverse_ofAdded (s : Section) : (ofAdded s).inverse.inverse = ofAdded s :=
  inverse_inverse rfl (List.forall_mem_map.mpr fun _ _ => List.forall_mem_nil _)

theorem inverse_inverse_ofRemoved (s : Section) : (ofRemoved s).inverse.inverse = ofRemoved s :=
  inverse_inverse rfl (List.forall_mem_map.mpr fun _ _ => List.forall_mem_nil _)

end SectionDiff

namespace DiffReport

open SectionDiff (digest)

theorem countIn_between_comm (old new : Report) (status : DiffStatus) (name : String) :
    (between old new).countIn status name = (between new old).countIn status.inverse name := by
  have counted : ∀ d : SectionDiff, d.digest.2.countP (·.status = status.inverse) =
      d.rowList.countP (·.status = status.inverse) := by
    intro d
    rw [digest, Multiset.coe_countP, List.countP_map]
    rfl
  have inverted : ∀ d : SectionDiff, d.inverse.rowList.countP (·.status = status.inverse) =
      d.rowList.countP (·.status = status) := by
    intro d
    rw [SectionDiff.rowList_inverse, List.countP_map]
    apply List.countP_congr
    intro row _
    simp [RowDiff.inverse, DiffStatus.inverse_eq_iff]
  have same := congrArg (Option.map fun compared => compared.2.countP (·.status = status.inverse))
    (SectionDiff.digest_inverse_between? (old.section? name) (new.section? name))
  simp only [Option.map_map, Function.comp_def, counted, inverted] at same
  rw [countIn, countIn, section?_between, section?_between]
  exact same

theorem inverse_inverse_between (old new : Report) :
    (between old new).inverse.inverse = between old new := by
  have sections : ((between old new).sectionList.map SectionDiff.inverse).map SectionDiff.inverse =
      (between old new).sectionList := by
    rw [List.map_map]
    conv_rhs => rw [← List.map_id (between old new).sectionList]
    apply List.map_congr_left
    intro d member
    rw [sectionList_between, List.mem_append, List.mem_map, List.mem_map] at member
    rcases member with ⟨s, _, rfl⟩ | ⟨s, _, rfl⟩
    · simp only [Function.comp_apply, id_eq]
      split
      · exact SectionDiff.inverse_inverse_ofPair ..
      · exact SectionDiff.inverse_inverse_ofAdded ..
    · exact SectionDiff.inverse_inverse_ofRemoved ..
  have twice : (between old new).inverse.inverse = { between old new with
      sections := presentItems ((between old new).inverse.sectionList.map SectionDiff.inverse) } := rfl
  rw [twice, sectionList_inverse, sections, sectionList_between]
  rfl

/-- Comparing in the other direction gives the inverted difference: the same sections with the same
status and the same rows, with added and removed rows exchanged. Inverting twice changes nothing. -/
theorem between_antisymmetric (old new : Report) (oldDistinct : old.DistinctSections)
    (newDistinct : new.DistinctSections) :
    (∀ name, ((between old new).section? name).isSome = ((between new old).section? name).isSome ∧
      ((between old new).inverse.section? name).map digest =
        ((between new old).section? name).map digest) ∧
    (between old new).count .added = (between new old).count .removed ∧
    (between old new).count .removed = (between new old).count .added ∧
    (between old new).count .changed = (between new old).count .changed ∧
    (between old new).count .unchanged = (between new old).count .unchanged ∧
    (between old new).inverse.inverse = between old new := by
  have distinct := distinctSections_between oldDistinct newDistinct
  have distinct' := distinctSections_between newDistinct oldDistinct
  have counts : ∀ status, (between old new).count status = (between new old).count status.inverse :=
    fun status => count_congr distinct distinct' (countIn_between_comm old new status)
  refine ⟨?_, counts .added, counts .removed, counts .changed, counts .unchanged,
    inverse_inverse_between old new⟩
  intro name
  have compared : ((between old new).inverse.section? name).map digest =
      ((between new old).section? name).map digest := by
    rw [section?_inverse, section?_between, section?_between, Option.map_map]
    exact SectionDiff.digest_inverse_between? ..
  refine ⟨?_, compared⟩
  have present := congrArg Option.isSome compared
  rwa [Option.isSome_map, Option.isSome_map, section?_inverse, Option.isSome_map] at present

/-- A key that is repeated, rows without key, and a section that the later report lacks. -/
def earlierTables : Report :=
  .ofSections [.ofTexts "packages" [("app", ["1"]), ("", ["x"]), ("app", ["2"]), ("lib", ["3\n4"])],
    .ofTexts "modules" [("base", ["1"])]]

def laterTables : Report :=
  .ofSections [.ofTexts "classes" [("Main", ["1"])],
    .ofTexts "packages" [("lib", ["3\n5"]), ("", ["x"]), ("app", ["1"]), ("", ["y"])]]

theorem between_antisymmetric_tables :
    earlierTables.DistinctSections ∧ laterTables.DistinctSections ∧
    ((between earlierTables laterTables).inverse.section? "packages").map digest =
      ((between laterTables earlierTables).section? "packages").map digest ∧
    (between earlierTables laterTables).count .removed = 2 ∧
    (between laterTables earlierTables).count .added = 2 := by
  have distinct : earlierTables.DistinctSections := by decide
  have distinct' : laterTables.DistinctSections := by decide
  obtain ⟨sections, _, removed, _⟩ := between_antisymmetric earlierTables laterTables distinct distinct'
  have two : (between earlierTables laterTables).count .removed = 2 := by decide +kernel
  exact ⟨distinct, distinct', (sections "packages").2, two, removed ▸ two⟩

end DiffReport

end ClasspathAudit
