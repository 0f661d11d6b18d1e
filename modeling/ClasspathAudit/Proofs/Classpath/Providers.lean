import ClasspathAudit.Classpath.Basic
import Mathlib.Tactic

/-!
The index of providers: the JARs listed for a name are those that show a class of that name.
-/

namespace ClasspathAudit.Classpath

theorem mem_addPosition {index : Std.TreeMap String (List Nat)} {key key' : String}
    {position position' : Nat} :
    position' ∈ (addPosition index key position).getD key' [] ↔
      position' ∈ index.getD key' [] ∨ position' = position ∧ key = key' := by
  rw [addPosition]
  split
  next known =>
    rw [List.contains_iff_mem] at known
    constructor
    · exact Or.inl
    · rintro (old | ⟨rfl, rfl⟩)
      · exact old
      · exact known
  next =>
    rw [Std.TreeMap.getD_insert]
    by_cases same : key = key'
    · subst same
      simp [List.mem_append]
    · simp [same]

theorem mem_addPositions {keys : JavaClass → String} {classes : List JavaClass}
    {index : Std.TreeMap String (List Nat)} {key : String} {position position' : Nat} :
    position' ∈ (classes.foldl (fun index c => addPosition index (keys c) position) index).getD key [] ↔
      position' ∈ index.getD key [] ∨ position' = position ∧ ∃ c ∈ classes, keys c = key := by
  induction classes generalizing index with
  | nil => simp
  | cons c classes ih =>
    rw [List.foldl_cons, ih, mem_addPosition]
    simp only [List.mem_cons, exists_eq_or_imp]
    tauto

theorem mem_indexBy_from {keys : JavaClass → String} {shown : List (List JavaClass × Nat)}
    {index : Std.TreeMap String (List Nat)} {key : String} {position : Nat} :
    position ∈ (shown.foldl (fun index (classes, position) =>
      classes.foldl (fun index c => addPosition index (keys c) position) index) index).getD key [] ↔
      position ∈ index.getD key [] ∨
        ∃ classes, (classes, position) ∈ shown ∧ ∃ c ∈ classes, keys c = key := by
  induction shown generalizing index with
  | nil => simp
  | cons first shown ih =>
    obtain ⟨classes, number⟩ := first
    rw [List.foldl_cons, ih, mem_addPositions]
    simp only [List.mem_cons, Prod.mk.injEq]
    constructor
    · rintro ((old | ⟨rfl, here⟩) | ⟨others, later, there⟩)
      · exact .inl old
      · exact .inr ⟨classes, .inl ⟨rfl, rfl⟩, here⟩
      · exact .inr ⟨others, .inr later, there⟩
    · rintro (old | ⟨others, ⟨rfl, rfl⟩ | later, there⟩)
      · exact .inl (.inl old)
      · exact .inl (.inr ⟨rfl, there⟩)
      · exact .inr ⟨others, later, there⟩

theorem mem_indexBy {keys : JavaClass → String} {effective : List (List JavaClass)} {key : String}
    {position : Nat} :
    position ∈ (indexBy keys effective).getD key [] ↔
      ∃ classes, effective[position]? = some classes ∧ ∃ c ∈ classes, keys c = key := by
  rw [indexBy, mem_indexBy_from, Std.TreeMap.getD_emptyc]
  simp only [List.not_mem_nil, false_or, List.mem_zipIdx_iff_getElem?]

section

variable {jars : List Jar} {release : Int} {position : Nat} {name : String}

theorem classIn?_new : (new jars release).classIn? (.listed position) name =
    ((new jars release).classesOf (.listed position)).find? (·.name = name) := by
  rw [classIn?, classAt?, if_pos rfl]

theorem mem_providersOf : position ∈ (new jars release).providersOf name ↔
    ∃ c, (new jars release).classIn? (.listed position) name = some c := by
  rw [classIn?_new, ← Option.isSome_iff_exists, List.find?_isSome, providersOf]
  simp only [new, mem_indexBy, decide_eq_true_eq, classesOf, List.getElem?_toArray]
  constructor
  · rintro ⟨classes, shown, c, member, named⟩
    refine ⟨c, ?_, named⟩
    rw [shown]
    exact member
  · rintro ⟨c, member, named⟩
    cases shown : (jars.map fun jar => jar.effective (max release baseRelease))[position]? with
    | none =>
      rw [shown] at member
      cases member
    | some classes =>
      rw [shown] at member
      exact ⟨classes, rfl, c, member, named⟩

theorem mem_classNames (provided : position ∈ (new jars release).providersOf name) :
    name ∈ (new jars release).classNames := by
  rw [classNames, Std.TreeMap.mem_keys]
  by_contra absent
  rw [providersOf, Std.TreeMap.getD_eq_fallback absent] at provided
  cases provided

/-- Only the names on the classpath can have several providers. -/
theorem providersOf_length_le
    (single : ∀ name ∈ (new jars release).classNames, ((new jars release).providersOf name).length ≤ 1)
    (name : String) : ((new jars release).providersOf name).length ≤ 1 := by
  cases provided : (new jars release).providersOf name with
  | nil => exact Nat.zero_le 1
  | cons first others =>
    have member : first ∈ (new jars release).providersOf name := by
      rw [provided]
      exact List.mem_cons_self
    rw [← provided]
    exact single name (mem_classNames member)

end

end ClasspathAudit.Classpath
