import ClasspathAudit.Diff.Basic
import Mathlib.Tactic

/-!
Which rows belong together. A row is identified by its key and its number among the rows of that key;
a row of the new side gets the old row of the same identity as its partner. Rows without key are the
rows of the empty key.
-/

namespace ClasspathAudit.SectionDiff

/-- The key of a row and how many rows of that key stand before it. -/
def identity? (rows : List Row) (place : Nat) : Option (String × Nat) :=
  rows[place]?.map fun row => (row.key, rows.countPBefore (·.key = row.key) place)

@[simp]
theorem identity?_cons_zero (row : Row) (rows : List Row) :
    identity? (row :: rows) 0 = some (row.key, 0) := by
  simp [identity?]

@[simp]
theorem identity?_cons_succ (row : Row) (rows : List Row) (place : Nat) :
    identity? (row :: rows) (place + 1) =
      (identity? rows place).map fun tag => (tag.1, if row.key = tag.1 then tag.2 + 1 else tag.2) := by
  cases found : rows[place]? with
  | none => simp [identity?, found]
  | some other => simp [identity?, found]

theorem identity?_isSome {rows : List Row} {place : Nat} :
    (identity? rows place).isSome ↔ place < rows.length := by
  simp [identity?]

theorem identity?_injective {rows : List Row} {place place' : Nat} {tag : String × Nat}
    (first : identity? rows place = some tag) (second : identity? rows place' = some tag) :
    place = place' := by
  have located : ∀ {place}, identity? rows place = some tag →
      rows.findIdxNth (·.key = tag.1) tag.2 = place := by
    intro place identified
    obtain ⟨row, found, rfl⟩ := Option.map_eq_some_iff.mp identified
    obtain ⟨bound, rfl⟩ := List.getElem?_eq_some_iff.mp found
    have own : decide (rows[place].key = rows[place].key) = true := by simp
    exact List.findIdxNth_countPBefore_of_lt_length_of_pos own
  exact (located first).symm.trans (located second)

/-- The rows of a key, numbered in their order. -/
theorem getElem?_filter_zipIdx (rows : List Row) (start number : Nat) (key : String)
    (row : Row) (place : Nat) :
    ((rows.zipIdx start).filter (·.1.key = key))[number]? = some (row, place) ↔
      ∃ offset, place = start + offset ∧ rows[offset]? = some row ∧
        identity? rows offset = some (key, number) := by
  induction rows generalizing start number with
  | nil => simp
  | cons first rows ih =>
    rw [List.zipIdx_cons, List.filter_cons]
    constructor
    · intro found
      split at found
      next same =>
        have same : first.key = key := by simpa using same
        cases number with
        | zero =>
          obtain ⟨rfl, rfl⟩ : first = row ∧ start = place := by simpa using found
          exact ⟨0, rfl, rfl, by simp [same]⟩
        | succ number =>
          rw [List.getElem?_cons_succ, ih] at found
          obtain ⟨offset, rfl, found, identified⟩ := found
          exact ⟨offset + 1, by omega, found, by simp [identified, same]⟩
      next other =>
        have other : first.key ≠ key := by simpa using other
        rw [ih] at found
        obtain ⟨offset, rfl, found, identified⟩ := found
        exact ⟨offset + 1, by omega, found, by simp [identified, other]⟩
    · rintro ⟨offset, rfl, found, identified⟩
      cases offset with
      | zero =>
        obtain ⟨rfl, rfl⟩ : first.key = key ∧ 0 = number := by simpa using identified
        simpa using found
      | succ offset =>
        rw [identity?_cons_succ, Option.map_eq_some_iff] at identified
        obtain ⟨⟨key', number'⟩, earlier, tag⟩ := identified
        obtain ⟨rfl, rfl⟩ : key' = key ∧ (if first.key = key' then number' + 1 else number') = number := by
          simpa using tag
        have later := (ih (start + 1) number').mpr ⟨offset, by omega, found, earlier⟩
        by_cases same : first.key = key'
        · simpa [same] using later
        · simpa [same] using later

theorem getElem?_filter_key (rows : List Row) (key : String) (number : Nat) (row : Row) :
    (rows.filter (·.key = key))[number]? = some row ↔
      ∃ place, rows[place]? = some row ∧ identity? rows place = some (key, number) := by
  have numbered : rows.filter (·.key = key) = (rows.zipIdx.filter (·.1.key = key)).map Prod.fst := by
    conv_lhs => rw [← List.zipIdx_map_fst 0 rows, List.filter_map]
    rfl
  rw [numbered, List.getElem?_map, Option.map_eq_some_iff]
  constructor
  · rintro ⟨⟨_, place⟩, found, rfl⟩
    obtain ⟨offset, _, there, identified⟩ := (getElem?_filter_zipIdx ..).mp found
    exact ⟨offset, there, identified⟩
  · rintro ⟨place, there, identified⟩
    exact ⟨(row, place), (getElem?_filter_zipIdx ..).mpr ⟨place, by omega, there, identified⟩, rfl⟩

/-- Without the first free row of a key, the other free rows keep their order. -/
theorem filter_without_first {free : List (Row × Nat)} (distinct : (free.map Prod.snd).Nodup)
    {taken key : String} {entry : Row × Nat} (found : free.find? (·.1.key = taken) = some entry) :
    (free.filter (·.2 ≠ entry.2)).filter (·.1.key = key) =
      if taken = key then (free.filter (·.1.key = key)).tail else free.filter (·.1.key = key) := by
  induction free with
  | nil => cases found
  | cons first free ih =>
    rw [List.map_cons, List.nodup_cons] at distinct
    rw [List.find?_cons] at found
    split at found
    next same =>
      obtain rfl : first = entry := by simpa using found
      have others : free.filter (·.2 ≠ first.2) = free := by
        rw [List.filter_eq_self]
        intro other member
        have apart : other.2 ≠ first.2 := fun equal =>
          distinct.1 (List.mem_map.mpr ⟨other, member, equal⟩)
        simpa using apart
      have same : first.1.key = taken := by simpa using same
      rw [List.filter_cons_of_neg (by simp), others, List.filter_cons]
      by_cases wanted : taken = key
      · simp [same, wanted]
      · simp [same, wanted]
    next other =>
      have other : first.1.key ≠ taken := by simpa using other
      have apart : first.2 ≠ entry.2 := fun equal =>
        distinct.1 (List.mem_map.mpr ⟨entry, List.mem_of_find?_eq_some found, equal.symm⟩)
      rw [List.filter_cons_of_pos (by simpa using apart), List.filter_cons, List.filter_cons,
        ih distinct.2 found]
      by_cases wanted : taken = key
      · simp [← wanted, other]
      · simp [wanted]

/-- The partner of a row: the free row of the same key and number. -/
theorem getElem?_partners {rows : List Row} {free : List (Row × Nat)}
    (distinct : (free.map Prod.snd).Nodup) (place : Nat) :
    (partners rows free)[place]? = rows[place]?.map fun row =>
      ((free.filter (·.1.key = row.key))[rows.countPBefore (·.key = row.key) place]?).map Prod.snd := by
  -- a row that finds a partner takes it out of `free`, while the later rows of its key have one row
  -- less before them
  induction rows generalizing free place with
  | nil => simp [partners]
  | cons row rows ih =>
    rw [partners]
    split
    next entry number found =>
      cases place with
      | zero => simp [← List.head?_eq_getElem?, List.head?_filter, found]
      | succ place =>
        have remaining : ((free.filter (·.2 ≠ number)).map Prod.snd).Nodup :=
          (List.filter_sublist.map Prod.snd).nodup distinct
        rw [List.getElem?_cons_succ, List.getElem?_cons_succ, ih remaining]
        congr 1
        funext other
        rw [filter_without_first distinct found, List.countPBefore_cons_succ]
        by_cases same : row.key = other.key
        · simp [same]
        · simp [same]
    next absent =>
      cases place with
      | zero => simp [← List.head?_eq_getElem?, List.head?_filter, absent]
      | succ place =>
        rw [List.getElem?_cons_succ, List.getElem?_cons_succ, ih distinct]
        congr 1
        funext other
        rw [List.countPBefore_cons_succ]
        by_cases same : row.key = other.key
        · have none : free.filter (·.1.key = other.key) = [] := by
            rw [← List.head?_eq_none_iff, List.head?_filter, ← same]
            exact absent
          simp [none]
        · simp [same]

theorem length_partners (rows : List Row) (free : List (Row × Nat)) :
    (partners rows free).length = rows.length := by
  induction rows generalizing free with
  | nil => rfl
  | cons row rows ih =>
    rw [partners]
    split <;> simp [ih]

/-- Two rows, one of each side, that have the same identity. -/
def Paired (old new : List Row) (oldPlace newPlace : Nat) : Prop :=
  ∃ tag, identity? old oldPlace = some tag ∧ identity? new newPlace = some tag

theorem Paired.symm {old new : List Row} {oldPlace newPlace : Nat}
    (paired : Paired old new oldPlace newPlace) : Paired new old newPlace oldPlace := by
  obtain ⟨tag, first, second⟩ := paired
  exact ⟨tag, second, first⟩

theorem Paired.old_unique {old new : List Row} {place place' newPlace : Nat}
    (first : Paired old new place newPlace) (second : Paired old new place' newPlace) :
    place = place' := by
  obtain ⟨tag, here, there⟩ := first
  obtain ⟨tag', here', there'⟩ := second
  rw [there, Option.some_inj] at there'
  subst there'
  exact identity?_injective here here'

theorem getElem?_partners_eq_some {old new : List Row} {oldPlace newPlace : Nat} :
    (partners new old.zipIdx)[newPlace]? = some (some oldPlace) ↔ Paired old new oldPlace newPlace := by
  have distinct : (old.zipIdx.map Prod.snd).Nodup := by
    rw [List.zipIdx_map_snd]
    exact List.nodup_range'
  rw [getElem?_partners distinct]
  constructor
  · intro found
    obtain ⟨row, there, partner⟩ := Option.map_eq_some_iff.mp found
    obtain ⟨⟨other, place⟩, here, rfl⟩ := Option.map_eq_some_iff.mp partner
    obtain ⟨offset, rfl, _, identified⟩ := (getElem?_filter_zipIdx ..).mp here
    exact ⟨_, by simpa using identified, by simp [identity?, there]⟩
  · rintro ⟨tag, here, there⟩
    obtain ⟨row, found, rfl⟩ := Option.map_eq_some_iff.mp there
    obtain ⟨other, found', _⟩ := Option.map_eq_some_iff.mp here
    have numbered := (getElem?_filter_zipIdx old 0 _ row.key other oldPlace).mpr
      ⟨oldPlace, by omega, found', here⟩
    simp [found, numbered]

end ClasspathAudit.SectionDiff
