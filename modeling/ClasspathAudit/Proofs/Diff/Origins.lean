import ClasspathAudit.Proofs.Diff.Pairing

/-!
Where the rows of a difference come from. Each row of a section difference has an origin, the places of
its rows on the two sides; the difference is the list of its origins with the rows filled in. No row of
either side is lost or repeated, the new side keeps its order, and an old row without partner stands
before the pairs whose old rows follow it.
-/

namespace ClasspathAudit

@[simp]
theorem filterMap_presentItems {α : Type} (items : List α) :
    ((presentItems items).getD []).filterMap (fun item => item) = items := by
  rw [presentItems]
  split
  next none => simp [List.isEmpty_iff.mp none]
  next => simp [List.filterMap_map]

namespace SectionDiff

open RowDiff (standIn)

inductive Origin where
  | both (old new : Nat)
  | old (place : Nat)
  | new (place : Nat)
deriving DecidableEq

namespace Origin

def old? : Origin → Option Nat
  | both place _ => some place
  | old place => some place
  | new _ => none

def new? : Origin → Option Nat
  | both _ place => some place
  | old _ => none
  | new place => some place

/-- The place of an old row without partner. -/
def loneOld? : Origin → Option Nat
  | old place => some place
  | _ => none

end Origin

/-- The origins of the rows of a difference, in their order: `place` is that of the first new row of
`paired`, `lone` has the places of the old rows without partner, and `next` is that of the first old
row that is still to be placed. -/
def arrange (lone : List Nat) : (paired : List (Option Nat)) → (place next : Nat) → List Origin
  | [], _, next => (lone.filter fun p => decide (next ≤ p)).map .old
  | none :: rest, place, next => .new place :: arrange lone rest (place + 1) next
  | some partner :: rest, place, next =>
    (lone.filter fun p => decide (next ≤ p) && decide (p < partner)).map .old ++
      .both partner place :: arrange lone rest (place + 1) (max next partner)

section

variable {lone : List Nat} {paired : List (Option Nat)} {place next : Nat}

theorem both_mem_arrange {oldPlace newPlace : Nat} :
    .both oldPlace newPlace ∈ arrange lone paired place next ↔
      (some oldPlace, newPlace) ∈ paired.zipIdx place := by
  fun_induction arrange lone paired place next with
  | case1 => simp
  | case2 rest place next ih => simp [ih]
  | case3 partner rest place next ih => simp [ih]

theorem new_mem_arrange {newPlace : Nat} :
    .new newPlace ∈ arrange lone paired place next ↔ (none, newPlace) ∈ paired.zipIdx place := by
  fun_induction arrange lone paired place next with
  | case1 => simp
  | case2 rest place next ih => simp [ih]
  | case3 partner rest place next ih => simp [ih]

theorem filterMap_new?_arrange :
    (arrange lone paired place next).filterMap Origin.new? = List.range' place paired.length := by
  fun_induction arrange lone paired place next with
  | case1 place next => simp [List.filterMap_map, Function.comp_def, Origin.new?]
  | case2 rest place next ih => simp [Origin.new?, ih, List.range'_succ]
  | case3 partner rest place next ih =>
    simp [List.filterMap_map, Function.comp_def, Origin.new?, ih, List.range'_succ]

/-- In an ascending list, what lies from one bound on is what lies up to a second one, then the
rest. -/
theorem filter_ascending_split (ascending : lone.Pairwise (· < ·)) (next partner : Nat) :
    (lone.filter fun p => decide (next ≤ p) && decide (p < partner)) ++
      (lone.filter fun p => decide (max next partner ≤ p)) =
        lone.filter fun p => decide (next ≤ p) := by
  induction lone with
  | nil => rfl
  | cons first rest ih =>
    rw [List.pairwise_cons] at ascending
    have later := ih ascending.2
    by_cases below : first < partner
    · by_cases started : next ≤ first
      · simpa [List.filter_cons, started, below] using later
      · simpa [List.filter_cons, started, below] using later
    · have none : rest.filter (fun p => decide (next ≤ p) && decide (p < partner)) = [] := by
        rw [List.filter_eq_nil_iff]
        intro p member
        have := ascending.1 p member
        simp only [Bool.and_eq_true, decide_eq_true_eq, not_and]
        omega
      rw [none, List.nil_append] at later
      by_cases started : next ≤ first
      · simp [List.filter_cons, started, below, none, ← later]
      · simp [started, none, ← later]

theorem filterMap_loneOld?_arrange (ascending : lone.Pairwise (· < ·)) :
    (arrange lone paired place next).filterMap Origin.loneOld? =
      lone.filter fun p => decide (next ≤ p) := by
  fun_induction arrange lone paired place next with
  | case1 place next => simp [List.filterMap_map, Function.comp_def, Origin.loneOld?]
  | case2 rest place next ih => simp [List.filterMap_cons, Origin.loneOld?, ih]
  | case3 partner rest place next ih =>
    rw [List.filterMap_append, List.filterMap_cons, ih,
      ← filter_ascending_split ascending next partner]
    simp [List.filterMap_map, Function.comp_def, Origin.loneOld?]

theorem old_mem_arrange (ascending : lone.Pairwise (· < ·)) {oldPlace : Nat} :
    .old oldPlace ∈ arrange lone paired place next ↔ oldPlace ∈ lone ∧ next ≤ oldPlace := by
  have listed : .old oldPlace ∈ arrange lone paired place next ↔
      oldPlace ∈ (arrange lone paired place next).filterMap Origin.loneOld? := by
    rw [List.mem_filterMap]
    constructor
    · exact fun member => ⟨_, member, rfl⟩
    · rintro ⟨origin, member, found⟩
      cases origin with
      | old p => exact (Option.some.inj found) ▸ member
      | both i j => cases found
      | new j => cases found
  rw [listed, filterMap_loneOld?_arrange ascending, List.mem_filter, decide_eq_true_eq]

theorem nodup_arrange (ascending : lone.Pairwise (· < ·)) :
    (arrange lone paired place next).Nodup := by
  have distinct : lone.Nodup := ascending.imp fun less => less.ne
  have injective : Function.Injective Origin.old := fun _ _ same => Origin.old.inj same
  have beyond : ∀ {rest : List (Option Nat)} {start : Nat} {entry : Option Nat},
      (entry, start) ∉ rest.zipIdx (start + 1) := by
    intro rest start entry member
    have := List.le_snd_of_mem_zipIdx member
    omega
  fun_induction arrange lone paired place next with
  | case1 place next => exact (distinct.filter _).map injective
  | case2 rest place next ih =>
    refine List.nodup_cons.mpr ⟨?_, ih⟩
    rw [new_mem_arrange]
    exact beyond
  | case3 partner rest place next ih =>
    refine List.nodup_append'.mpr ⟨(distinct.filter _).map injective, ?_, ?_⟩
    · refine List.nodup_cons.mpr ⟨?_, ih⟩
      rw [both_mem_arrange]
      exact beyond
    · intro origin early late
      obtain ⟨p, inside, rfl⟩ := List.mem_map.mp early
      simp only [List.mem_filter, Bool.and_eq_true, decide_eq_true_eq] at inside
      rw [List.mem_cons, old_mem_arrange ascending] at late
      rcases late with same | ⟨_, bound⟩
      · cases same
      · omega

/-- No pair stands before an old row without partner that precedes its own. -/
theorem pairwise_arrange (ascending : lone.Pairwise (· < ·)) :
    (arrange lone paired place next).Pairwise fun earlier later =>
      ∀ oldPlace newPlace lonePlace, earlier = .both oldPlace newPlace → later = .old lonePlace →
        oldPlace ≤ lonePlace := by
  fun_induction arrange lone paired place next with
  | case1 place next =>
    rw [List.pairwise_map]
    exact List.pairwise_of_forall fun _ _ _ _ _ pair => by cases pair
  | case2 rest place next ih =>
    refine List.pairwise_cons.mpr ⟨?_, ih⟩
    intro later _ oldPlace newPlace lonePlace pair
    cases pair
  | case3 partner rest place next ih =>
    refine List.pairwise_append.mpr ⟨?_, List.pairwise_cons.mpr ⟨?_, ih⟩, ?_⟩
    · rw [List.pairwise_map]
      exact List.pairwise_of_forall fun _ _ _ _ _ pair => by cases pair
    · rintro later member oldPlace newPlace lonePlace pair rfl
      cases pair
      have := ((old_mem_arrange ascending).mp member).2
      omega
    · intro earlier early later _ oldPlace newPlace lonePlace pair
      obtain ⟨p, _, rfl⟩ := List.mem_map.mp early
      cases pair

end

/-- The places of the old rows without partner. -/
def lonePlaces (old new : List Row) : List Nat :=
  (List.range old.length).filter fun place => !(partners new old.zipIdx).contains (some place)

def origins (old new : List Row) : List Origin :=
  arrange (lonePlaces old new) (partners new old.zipIdx) 0 0

def rowAt (columns : Nat) (old new : List Row) : Origin → RowDiff
  | .both oldPlace newPlace =>
    .ofPair columns (old[oldPlace]?.getD standIn) (new[newPlace]?.getD standIn)
  | .old place => unpairedOld columns (old[place]?.getD standIn)
  | .new place => unpairedNew columns (new[place]?.getD standIn)

section

variable {old new : List Row}

theorem ascending_lonePlaces : (lonePlaces old new).Pairwise (· < ·) :=
  List.Pairwise.filter _ List.pairwise_lt_range

theorem mem_lonePlaces {place : Nat} :
    place ∈ lonePlaces old new ↔ place < old.length ∧ ∀ newPlace, ¬ Paired old new place newPlace := by
  have taken : some place ∈ partners new old.zipIdx ↔ ∃ newPlace, Paired old new place newPlace := by
    simp only [List.mem_iff_getElem?, getElem?_partners_eq_some]
  rw [lonePlaces, List.mem_filter, List.mem_range, Bool.not_eq_true', ← Bool.not_eq_true,
    List.contains_iff_mem, taken, not_exists]

theorem both_mem_origins {oldPlace newPlace : Nat} :
    .both oldPlace newPlace ∈ origins old new ↔ Paired old new oldPlace newPlace := by
  rw [origins, both_mem_arrange, List.mem_zipIdx_iff_getElem?, getElem?_partners_eq_some]

theorem old_mem_origins {place : Nat} :
    .old place ∈ origins old new ↔
      place < old.length ∧ ∀ newPlace, ¬ Paired old new place newPlace := by
  rw [origins, old_mem_arrange ascending_lonePlaces, mem_lonePlaces]
  simp

theorem new_mem_origins {place : Nat} :
    .new place ∈ origins old new ↔
      place < new.length ∧ ∀ oldPlace, ¬ Paired old new oldPlace place := by
  rw [origins, new_mem_arrange, List.mem_zipIdx_iff_getElem?, ← length_partners new old.zipIdx]
  simp only [← getElem?_partners_eq_some]
  constructor
  · intro found
    exact ⟨(List.getElem?_eq_some_iff.mp found).1, by simp [found]⟩
  · rintro ⟨bound, unpaired⟩
    have found := List.getElem?_eq_getElem bound
    cases partner : (partners new old.zipIdx)[place] with
    | none => rw [found, partner]
    | some oldPlace =>
      rw [partner] at found
      exact absurd found (unpaired oldPlace)

theorem map_filter_lone (columns : Nat) {lone : List (Row × Nat)}
    (known : ∀ entry ∈ lone, old[entry.2]? = some entry.1) (test : Nat → Bool) :
    ((lone.filter fun entry => test entry.2).map fun entry => unpairedOld columns entry.1) =
      (((lone.map Prod.snd).filter test).map .old).map (rowAt columns old new) := by
  rw [List.filter_map, List.map_map, List.map_map]
  apply List.map_congr_left
  intro entry member
  simp [rowAt, known entry (List.mem_of_mem_filter member)]

/-- Merging the rows of two sides is arranging their origins. -/
theorem mergeRows_eq_map (columns : Nat) {lone : List (Row × Nat)}
    (known : ∀ entry ∈ lone, old[entry.2]? = some entry.1) (paired : List (Option Nat))
    (place next : Nat) (fits : place + paired.length = new.length) :
    mergeRows columns old lone ((new.drop place).zip paired) next =
      (arrange (lone.map Prod.snd) paired place next).map (rowAt columns old new) := by
  induction paired generalizing place next with
  | nil =>
    rw [List.zip_nil_right, mergeRows, arrange]
    exact map_filter_lone columns known fun p => decide (next ≤ p)
  | cons partner rest ih =>
    rw [List.length_cons] at fits
    have inside : place < new.length := by omega
    have later := fun next => ih (place + 1) next (by omega)
    rw [List.drop_eq_getElem_cons inside, List.zip_cons_cons]
    cases partner with
    | none =>
      rw [mergeRows, arrange, later, List.map_cons]
      simp [rowAt, inside]
    | some partner =>
      rw [mergeRows, arrange, later, List.map_append, List.map_cons,
        ← map_filter_lone columns known fun p => decide (next ≤ p) && decide (p < partner)]
      simp [rowAt, inside]

theorem rowsOf_eq_map (old new : Section) :
    rowsOf old new = (origins old.findings new.findings).map
      (rowAt new.columnList.length old.findings new.findings) := by
  have known : ∀ entry ∈ old.findings.zipIdx.filter (fun entry =>
      !(partners new.findings old.findings.zipIdx).contains (some entry.2)),
      old.findings[entry.2]? = some entry.1 := by
    intro entry member
    exact List.mem_zipIdx_iff_getElem?.mp (List.mem_of_mem_filter member)
  have fits : 0 + (partners new.findings old.findings.zipIdx).length = new.findings.length := by
    rw [length_partners, Nat.zero_add]
  have merged := mergeRows_eq_map new.columnList.length known _ 0 0 fits
  have places : (old.findings.zipIdx.filter (fun entry =>
      !(partners new.findings old.findings.zipIdx).contains (some entry.2))).map Prod.snd =
      lonePlaces old.findings new.findings := by
    rw [lonePlaces, List.range_eq_range', ← List.zipIdx_map_snd 0 old.findings, List.filter_map]
    rfl
  rw [places] at merged
  exact merged

theorem nodup_origins : (origins old new).Nodup := nodup_arrange ascending_lonePlaces

theorem Paired.bounds {oldPlace newPlace : Nat} (paired : Paired old new oldPlace newPlace) :
    oldPlace < old.length ∧ newPlace < new.length := by
  obtain ⟨tag, here, there⟩ := paired
  exact ⟨identity?_isSome.mp (by simp [here]), identity?_isSome.mp (by simp [there])⟩

/-- Every old row has one origin in the difference. -/
theorem filterMap_old?_origins :
    ((origins old new).filterMap Origin.old?).Perm (List.range old.length) := by
  have distinct : ((origins old new).filterMap Origin.old?).Nodup := by
    refine List.pairwise_filterMap.mpr (nodup_origins.imp_of_mem ?_)
    intro first second member member' apart place here place' there same
    subst same
    match first, second, here, there with
    | .both _ _, .both _ _, rfl, rfl =>
      have unique := (both_mem_origins.mp member).symm.old_unique (both_mem_origins.mp member').symm
      exact apart (by rw [unique])
    | .both _ _, .old _, rfl, rfl =>
      exact (old_mem_origins.mp member').2 _ (both_mem_origins.mp member)
    | .old _, .both _ _, rfl, rfl =>
      exact (old_mem_origins.mp member).2 _ (both_mem_origins.mp member')
    | .old _, .old _, rfl, rfl => exact apart rfl
  refine (List.perm_ext_iff_of_nodup distinct List.nodup_range).mpr fun place => ?_
  rw [List.mem_filterMap, List.mem_range]
  constructor
  · rintro ⟨origin, member, here⟩
    match origin, here with
    | .both _ _, rfl => exact (both_mem_origins.mp member).bounds.1
    | .old _, rfl => exact (old_mem_origins.mp member).1
  · intro bound
    by_cases paired : ∃ newPlace, Paired old new place newPlace
    · obtain ⟨newPlace, paired⟩ := paired
      exact ⟨_, both_mem_origins.mpr paired, rfl⟩
    · exact ⟨.old place, old_mem_origins.mpr ⟨bound, not_exists.mp paired⟩, rfl⟩

end

/-- What a row of a difference holds, by its origin. A row without partner that has a key was added or
removed; one without key changed against a row that stands in. -/
def Tells (old new : List Row) (d : RowDiff) : Origin → Prop
  | .both oldPlace newPlace => ∃ row row', old[oldPlace]? = some row ∧ new[newPlace]? = some row' ∧
      d.old = some row ∧ d.new = some row' ∧ (d.status = .unchanged ∨ d.status = .changed)
  | .old place => ∃ row, old[place]? = some row ∧ d.old = some row ∧
      if row.key = "" then d.new = some standIn ∧ d.status = .changed
      else d.new = none ∧ d.status = .removed
  | .new place => ∃ row, new[place]? = some row ∧ d.new = some row ∧
      if row.key = "" then d.old = some standIn ∧ d.status = .changed
      else d.old = none ∧ d.status = .added

theorem tells_rowAt {old new : List Row} (columns : Nat) {origin : Origin}
    (member : origin ∈ origins old new) : Tells old new (rowAt columns old new origin) origin := by
  cases origin with
  | both oldPlace newPlace =>
    obtain ⟨bound, bound'⟩ := (both_mem_origins.mp member).bounds
    refine ⟨old[oldPlace], new[newPlace], by simp, by simp, by simp [rowAt, RowDiff.ofPair, bound],
      by simp [rowAt, RowDiff.ofPair, bound'], ?_⟩
    simp only [rowAt, RowDiff.ofPair]
    split
    · exact .inl rfl
    · exact .inr rfl
  | old place =>
    have bound := (old_mem_origins.mp member).1
    refine ⟨old[place], by simp, ?_⟩
    by_cases keyless : old[place].key = ""
    · simp [rowAt, unpairedOld, bound, keyless, RowDiff.ofUnpaired, RowDiff.ofPair]
    · simp [rowAt, unpairedOld, bound, keyless, RowDiff.ofRemoved]
  | new place =>
    have bound := (new_mem_origins.mp member).1
    refine ⟨new[place], by simp, ?_⟩
    by_cases keyless : new[place].key = ""
    · simp [rowAt, unpairedNew, bound, keyless, RowDiff.ofUnpaired, RowDiff.ofPair]
    · simp [rowAt, unpairedNew, bound, keyless, RowDiff.ofAdded]

/-- The rows of a difference, each with its origin, account for the rows of both sides. -/
structure Account (old new : List Row) (rows : List RowDiff) (origins : List Origin) : Prop where
  told : List.Forall₂ (Tells old new) rows origins
  /-- The new rows stand in their order, each once, and the other rows hold none of them. -/
  newInOrder : origins.filterMap Origin.new? = List.range new.length
  /-- Each old row stands once. -/
  oldOnce : (origins.filterMap Origin.old?).Perm (List.range old.length)
  /-- Rows belong together if they have the same key and the same number among the rows of it. -/
  pairs : ∀ oldPlace newPlace,
    Origin.both oldPlace newPlace ∈ origins ↔ Paired old new oldPlace newPlace
  loneInOrder : (origins.filterMap Origin.loneOld?).Pairwise (· < ·)
  loneFirst : ∀ (lone pair lonePlace oldPlace newPlace : Nat),
    origins[lone]? = some (Origin.old lonePlace) →
    origins[pair]? = some (Origin.both oldPlace newPlace) → lonePlace < oldPlace → lone < pair

theorem rowList_ofPair (old new : Section) : (ofPair old new).rowList = rowsOf old new :=
  filterMap_presentItems _

/-- The difference of two sections loses and repeats no row, keeps the order of the new side, pairs the
rows of equal identity, and places the old rows without partner as early as the order of the old side
asks for. -/
theorem ofPair_accounts (old new : Section) :
    ∃ origins, Account old.findings new.findings (ofPair old new).rowList origins := by
  refine ⟨origins old.findings new.findings, ?_⟩
  rw [rowList_ofPair, rowsOf_eq_map]
  refine ⟨?_, ?_, filterMap_old?_origins, fun _ _ => both_mem_origins, ?_, ?_⟩
  · rw [List.forall₂_map_left_iff, List.forall₂_same]
    exact fun origin member => tells_rowAt _ member
  · rw [origins, filterMap_new?_arrange, length_partners, List.range_eq_range']
  · rw [origins, filterMap_loneOld?_arrange ascending_lonePlaces]
    exact ascending_lonePlaces.filter _
  · intro lone pair lonePlace oldPlace newPlace standsLone standsPair smaller
    -- if the pair stood first, its old row would not follow the one without partner
    by_contra behind
    obtain ⟨bound, here⟩ := List.getElem?_eq_some_iff.mp standsLone
    obtain ⟨bound', there⟩ := List.getElem?_eq_some_iff.mp standsPair
    have apart : pair ≠ lone := by
      rintro rfl
      rw [here] at there
      cases there
    have ordered := List.pairwise_iff_getElem.mp (pairwise_arrange ascending_lonePlaces) pair lone
      bound' bound (by omega) oldPlace newPlace lonePlace there here
    omega

end SectionDiff

end ClasspathAudit
