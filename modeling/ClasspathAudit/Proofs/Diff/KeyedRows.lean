import ClasspathAudit.Proofs.Diff.Sections

/-!
Tables whose rows have keys of their own. Between two such tables a difference pairs two rows exactly if
they have the same key, so that a row has one partner at most.
-/

namespace ClasspathAudit

/-- Every row has a key, and no two rows have the same. -/
structure Row.Keyed (rows : List Row) : Prop where
  named : ∀ row ∈ rows, row.key ≠ ""
  apart : (rows.map Row.key).Nodup

/-- The report lists a row in a section of this name. -/
def Report.Lists (r : Report) (name : String) (row : Row) : Prop :=
  ∃ s ∈ r.sectionList, s.name = name ∧ row ∈ s.findings

/-- The difference pairs two rows in a section of this name. -/
def DiffReport.Pairs (d : DiffReport) (name : String) (old new : Row) : Prop :=
  ∃ s ∈ d.sectionList, s.name = name ∧ ∃ row ∈ s.rowList, row.old = some old ∧ row.new = some new

theorem Row.Keyed.sublist {rows kept : List Row} (keyed : Row.Keyed rows)
    (within : kept.Sublist rows) : Row.Keyed kept :=
  ⟨fun row member => keyed.named row (within.subset member), (within.map _).nodup keyed.apart⟩

theorem Report.DistinctSections.section?_eq_some {r : Report} (distinct : r.DistinctSections)
    {s : Section} (member : s ∈ r.sectionList) : r.section? s.name = some s :=
  find?_of_nodup_map distinct member

/-- Where the sections of a name are keyed, a key tells the row. -/
theorem Report.Lists.unique {r : Report} {name : String} (distinct : r.DistinctSections)
    (keyed : ∀ s ∈ r.sectionList, s.name = name → Row.Keyed s.findings) {row row' : Row}
    (here : r.Lists name row) (there : r.Lists name row') (same : row.key = row'.key) : row = row' := by
  obtain ⟨s, member, named, inside⟩ := here
  obtain ⟨t, member', named', inside'⟩ := there
  obtain rfl : s = t := List.inj_on_of_nodup_map distinct member member' (named.trans named'.symm)
  exact List.inj_on_of_nodup_map (keyed s member named).apart inside inside' same

namespace SectionDiff

/-- A row with a key of its own is the first of that key. -/
theorem identity?_of_apart {rows : List Row} (apart : (rows.map Row.key).Nodup) {place : Nat}
    {row : Row} (found : rows[place]? = some row) : identity? rows place = some (row.key, 0) := by
  induction rows generalizing place with
  | nil => cases found
  | cons first rows ih =>
    rw [List.map_cons, List.nodup_cons] at apart
    cases place with
    | zero =>
      obtain rfl : first = row := by simpa using found
      exact identity?_cons_zero first rows
    | succ place =>
      rw [List.getElem?_cons_succ] at found
      have other : first.key ≠ row.key := fun same =>
        apart.1 (List.mem_map.mpr ⟨row, List.mem_of_getElem? found, same.symm⟩)
      simp [ih apart.2 found, other]

section

variable {old new : List Row} {o n : Row}

theorem paired_iff_key (keyed : Row.Keyed old) (keyed' : Row.Keyed new) {oldPlace newPlace : Nat}
    (here : old[oldPlace]? = some o) (there : new[newPlace]? = some n) :
    Paired old new oldPlace newPlace ↔ o.key = n.key := by
  rw [Paired, identity?_of_apart keyed.apart here, identity?_of_apart keyed'.apart there]
  simp [eq_comm]

end

section

variable {old new : Section} {o n : Row}

theorem pairs_rowsOf (keyed : Row.Keyed old.findings) (keyed' : Row.Keyed new.findings) :
    (∃ d ∈ rowsOf old new, d.old = some o ∧ d.new = some n) ↔
      o ∈ old.findings ∧ n ∈ new.findings ∧ o.key = n.key := by
  rw [rowsOf_eq_map]
  constructor
  · rintro ⟨d, listed, hasOld, hasNew⟩
    obtain ⟨origin, member, rfl⟩ := List.mem_map.mp listed
    have told := tells_rowAt new.columnList.length member
    -- a row that stands alone has a key and therefore no stand-in beside it
    cases origin with
    | both oldPlace newPlace =>
      obtain ⟨row, row', here, there, isOld, isNew, -⟩ := told
      obtain rfl := Option.some.inj (isOld.symm.trans hasOld)
      obtain rfl := Option.some.inj (isNew.symm.trans hasNew)
      exact ⟨List.mem_of_getElem? here, List.mem_of_getElem? there,
        (paired_iff_key keyed keyed' here there).mp (both_mem_origins.mp member)⟩
    | old place =>
      obtain ⟨row, here, -, alone⟩ := told
      rw [if_neg (keyed.named row (List.mem_of_getElem? here))] at alone
      rw [alone.1] at hasNew
      cases hasNew
    | new place =>
      obtain ⟨row, there, -, alone⟩ := told
      rw [if_neg (keyed'.named row (List.mem_of_getElem? there))] at alone
      rw [alone.1] at hasOld
      cases hasOld
  · rintro ⟨inOld, inNew, same⟩
    obtain ⟨oldPlace, here⟩ := List.mem_iff_getElem?.mp inOld
    obtain ⟨newPlace, there⟩ := List.mem_iff_getElem?.mp inNew
    have member := both_mem_origins.mpr ((paired_iff_key keyed keyed' here there).mpr same)
    refine ⟨_, List.mem_map_of_mem member, ?_, ?_⟩
    · simp [rowAt, RowDiff.ofPair, here]
    · simp [rowAt, RowDiff.ofPair, there]

end

end SectionDiff

namespace DiffReport

variable {old new : Report} {name : String} {o n : Row}

/-- Where the sections of a name are keyed on both sides, the rows paired in it are those of one key. -/
theorem pairs_between (distinct : old.DistinctSections)
    (keyed : ∀ s ∈ old.sectionList, s.name = name → Row.Keyed s.findings)
    (keyed' : ∀ s ∈ new.sectionList, s.name = name → Row.Keyed s.findings) :
    (between old new).Pairs name o n ↔ old.Lists name o ∧ new.Lists name n ∧ o.key = n.key := by
  rw [Pairs, sectionList_between]
  constructor
  · rintro ⟨d, listed, named, row, inside, hasOld, hasNew⟩
    rcases List.mem_append.mp listed with compared | lone
    · obtain ⟨t, member, rfl⟩ := List.mem_map.mp compared
      rw [name_against] at named
      cases found : old.section? t.name with
      | none =>
        rw [found, SectionDiff.rowList_ofAdded] at inside
        obtain ⟨added, -, rfl⟩ := List.mem_map.mp inside
        cases hasOld
      | some s =>
        rw [found, SectionDiff.rowList_ofPair] at inside
        have member' := List.mem_of_find?_eq_some found
        have named' : s.name = name := by simpa [named] using List.find?_some found
        obtain ⟨inOld, inNew, same⟩ := (SectionDiff.pairs_rowsOf (keyed s member' named')
          (keyed' t member named)).mp ⟨row, inside, hasOld, hasNew⟩
        exact ⟨⟨s, member', named', inOld⟩, ⟨t, member, named, inNew⟩, same⟩
    · obtain ⟨t, -, rfl⟩ := List.mem_map.mp lone
      rw [SectionDiff.rowList_ofRemoved] at inside
      obtain ⟨removed, -, rfl⟩ := List.mem_map.mp inside
      cases hasNew
  · rintro ⟨⟨s, member, named, inOld⟩, ⟨t, member', named', inNew⟩, same⟩
    have found : old.section? t.name = some s := by
      rw [named', ← named]
      exact distinct.section?_eq_some member
    have pairs := (SectionDiff.pairs_rowsOf (keyed s member named) (keyed' t member' named')).mpr
      ⟨inOld, inNew, same⟩
    refine ⟨.ofPair s t, ?_, named', ?_⟩
    · refine List.mem_append_left _ (List.mem_map.mpr ⟨t, member', ?_⟩)
      rw [found]
    · rw [SectionDiff.rowList_ofPair]
      exact pairs

end DiffReport

end ClasspathAudit
