import ClasspathAudit.Bytecode.ClassFile
import Mathlib.Tactic

/-!
Sets of names kept as ascending lists: sorting yields one, with the same names, and bisection of one
finds exactly its names.
-/

namespace ClasspathAudit

namespace ClassFile

/-- Puts a name in front of a list, unless the list begins with it. -/
def consOnce (name : String) (sorted : List String) : List String :=
  if sorted.head? = some name then sorted else name :: sorted

theorem sortedNames_eq (names : List String) :
    sortedNames names = (names.mergeSort fun a b => decide (a ≤ b)).foldr consOnce [] := rfl

theorem mem_consOnce {name first : String} {sorted : List String} :
    name ∈ consOnce first sorted ↔ name = first ∨ name ∈ sorted := by
  unfold consOnce
  split
  next repeated =>
    have inside : first ∈ sorted := List.mem_of_mem_head? repeated
    constructor
    · exact Or.inr
    · rintro (rfl | rest)
      · exact inside
      · exact rest
  next => exact List.mem_cons

theorem mem_foldr_consOnce {name : String} {names : List String} :
    name ∈ names.foldr consOnce [] ↔ name ∈ names := by
  induction names with
  | nil => rfl
  | cons first names ih => rw [List.foldr_cons, mem_consOnce, ih, List.mem_cons]

theorem foldr_consOnce_pairwise {names : List String} (ascending : names.Pairwise (· ≤ ·)) :
    (names.foldr consOnce []).Pairwise (· < ·) := by
  induction ascending with
  | nil => exact .nil
  | @cons first names least _ ih =>
    rw [List.foldr_cons, consOnce]
    split
    next => exact ih
    next fresh =>
      refine .cons ?_ ih
      intro later member
      have notAbove : first ≤ later := least later (mem_foldr_consOnce.mp member)
      -- The least of the names behind is the first of them, and that is another one.
      have differs : first ≠ later := by
        rintro rfl
        obtain ⟨head, tail, shape⟩ := List.exists_cons_of_ne_nil (List.ne_nil_of_mem member)
        have headAbove : first ≤ head :=
          least head (mem_foldr_consOnce.mp (by rw [shape]; exact List.mem_cons_self))
        rw [shape] at member ih fresh
        rcases List.mem_cons.mp member with same | inTail
        · exact fresh (by rw [same]; rfl)
        · have below : head < first := List.rel_of_pairwise_cons ih inTail
          exact String.not_le.mpr below headAbove
      by_contra notBelow
      exact differs (String.le_antisymm notAbove (String.not_lt.mp notBelow))

/-- Sorted names ascend strictly. -/
theorem sortedNames_pairwise (names : List String) : (sortedNames names).Pairwise (· < ·) := by
  rw [sortedNames_eq]
  exact foldr_consOnce_pairwise (List.pairwise_mergeSort' (· ≤ ·) names)

@[simp] theorem mem_sortedNames {name : String} {names : List String} :
    name ∈ sortedNames names ↔ name ∈ names := by
  rw [sortedNames_eq, mem_foldr_consOnce, List.mem_mergeSort]

end ClassFile

namespace JavaClass

/-- Bisection ends at the first index where a test holds that once true stays true. -/
theorem searchFirst_spec {test : Nat → Bool} {low high : Nat}
    (stays : ∀ i j, i ≤ j → j < high → test i = true → test j = true) (ordered : low ≤ high) :
    searchFirst test low high ≤ high ∧
      (∀ i, low ≤ i → i < searchFirst test low high → test i = false) ∧
      (searchFirst test low high < high → test (searchFirst test low high) = true) := by
  fun_induction searchFirst test low high with
  | case1 low high narrows middle holds ih =>
    obtain ⟨atMost, before, found⟩ := ih (fun i j below inside => stays i j below (by omega)) (by omega)
    refine ⟨by omega, before, fun _ => ?_⟩
    rcases Nat.lt_or_ge (searchFirst test low middle) middle with inside | outside
    · exact found inside
    · have same : searchFirst test low middle = middle := by omega
      rw [same]
      exact holds
  | case2 low high narrows middle fails ih =>
    obtain ⟨atMost, before, found⟩ := ih stays (by omega)
    refine ⟨atMost, ?_, found⟩
    intro i above below
    rcases Nat.lt_or_ge middle i with right | left
    · exact before i right below
    · by_contra holds
      exact fails (stays i middle left (by omega) (by simpa using holds))
  | case3 low high done =>
    exact ⟨ordered, fun i above below => by omega, fun below => by omega⟩

/-- A class mentions exactly the names of its ascending references. -/
theorem mentions_iff_mem {c : JavaClass} (ascending : c.references.Pairwise (· < ·)) (name : String) :
    c.mentions name = true ↔ name ∈ c.references := by
  let test := fun i : Nat => (c.references[i]?).any fun found => decide (name ≤ found)
  let index := searchFirst test 0 c.references.length
  have unfolded : c.mentions name = (c.references[index]? == some name) := by
    simp [mentions, index, test]
  have order := List.pairwise_iff_getElem.mp ascending
  have stays : ∀ i j, i ≤ j → j < c.references.length → test i = true → test j = true := by
    intro i j below inside holds
    have inside' : i < c.references.length := by omega
    simp only [test, List.getElem?_eq_getElem inside, List.getElem?_eq_getElem inside',
      Option.any_some, decide_eq_true_eq] at holds ⊢
    rcases Nat.eq_or_lt_of_le below with rfl | strict
    · exact holds
    · exact String.le_trans holds (String.not_lt.mp (String.lt_asymm (order i j inside' inside strict)))
  obtain ⟨_, before, found⟩ := searchFirst_spec stays (Nat.zero_le _)
  rw [unfolded, beq_iff_eq]
  constructor
  · exact List.mem_of_getElem?
  · intro member
    obtain ⟨k, inside, rfl⟩ := List.getElem_of_mem member
    have atMost : index ≤ k := by
      by_contra past
      have fails := before k (Nat.zero_le k) (by omega)
      simp [test, List.getElem?_eq_getElem inside] at fails
    have bound : index < c.references.length := by omega
    have reached : c.references[k] ≤ c.references[index] := by
      have holds : test index = true := found bound
      simpa only [test, List.getElem?_eq_getElem bound, Option.any_some, decide_eq_true_eq] using holds
    rcases Nat.eq_or_lt_of_le atMost with same | below
    · rw [same, List.getElem?_eq_getElem inside]
    · exact absurd reached (String.not_le.mpr (order index k bound inside below))

end JavaClass

end ClasspathAudit
