import ClasspathAudit.Proofs.Graph.MemberSearch
import ClasspathAudit.Proofs.Text.Split
import Mathlib.Data.List.TakeWhile

/-!
The outermost class of a nested one, and the access that nested classes share. A name is what stands in
front of its simple name, then the simple name; only the latter is cut, at its first dollar sign. A simple
name that begins with a dollar sign is not cut at all, so that a class nested in one of such a name counts
as a class of its own.
-/

namespace ClasspathAudit

open Text

namespace ClassName

/-- What stands in front of a simple name: nothing, or a package and a dot. -/
inductive Qualifier : List Char → Prop where
  | unnamed : Qualifier []
  | package (package : List Char) : Qualifier (package ++ ['.'])

/-- The part of a simple name that names the outermost class. -/
def outermost (simple : List Char) : List Char :=
  match simple.takeWhile (· ≠ '$') with
  | [] => simple
  | outer => outer

/-- A simple name that begins with a dollar sign. -/
def LeadsWithDollar (simple : List Char) : Prop := simple.head? = some '$'

instance (simple : List Char) : Decidable (LeadsWithDollar simple) :=
  inferInstanceAs (Decidable (simple.head? = some '$'))

theorem exists_parts (name : String) :
    ∃ front rest, Qualifier front ∧ '.' ∉ rest ∧ name = String.ofList (front ++ rest) := by
  cases parts : splitLast? '.' name.toList with
  | none =>
    refine ⟨[], name.toList, .unnamed, splitLast?_eq_none_iff.mp parts, ?_⟩
    simp
  | some pair =>
    obtain ⟨before, after⟩ := pair
    obtain ⟨same, free⟩ := splitLast?_eq_some parts
    refine ⟨before ++ ['.'], after, .package before, free, ?_⟩
    apply String.toList_inj.mp
    simp [same]

section

variable {front rest : List Char}

theorem Qualifier.splitLast? (qualifier : Qualifier front) (free : '.' ∉ rest) :
    Text.splitLast? '.' (front ++ rest) = if front = [] then none else some (front.dropLast, rest) := by
  cases qualifier with
  | unnamed => simpa using splitLast?_eq_none_iff.mpr free
  | package before => simpa using splitLast?_append free before

theorem simple_parts (qualifier : Qualifier front) (free : '.' ∉ rest) :
    simple (String.ofList (front ++ rest)) = String.ofList rest := by
  rw [simple, String.toList_ofList, qualifier.splitLast? free]
  by_cases unnamed : front = []
  · simp [unnamed]
  · simp [unnamed]

theorem package_parts (qualifier : Qualifier front) (free : '.' ∉ rest) :
    package (String.ofList (front ++ rest)) = String.ofList front.dropLast := by
  rw [package, String.toList_ofList, qualifier.splitLast? free]
  by_cases unnamed : front = []
  · simp [unnamed]
  · simp [unnamed]

theorem topLevel_parts (qualifier : Qualifier front) (free : '.' ∉ rest) :
    topLevel (String.ofList (front ++ rest)) = String.ofList (front ++ outermost rest) := by
  rw [topLevel, String.toList_ofList, qualifier.splitLast? free, outermost]
  cases qualifier with
  | unnamed =>
    simp only [if_true, List.nil_append]
    cases cut : rest.takeWhile (· ≠ '$') <;> rfl
  | package before =>
    have named : before ++ ['.'] ≠ [] := by simp
    simp only [if_neg named, List.dropLast_concat]
    cases cut : rest.takeWhile (· ≠ '$') <;> rfl

end

section

variable {rest : List Char}

theorem outermost_leading (leads : LeadsWithDollar rest) : outermost rest = rest := by
  obtain ⟨tail, rfl⟩ := List.head?_eq_some_iff.mp leads
  rfl

theorem outermost_plain (plain : ¬ LeadsWithDollar rest) :
    outermost rest = rest.takeWhile (· ≠ '$') := by
  cases rest with
  | nil => rfl
  | cons c tail =>
    have other : c ≠ '$' := fun same => plain (congrArg some same)
    simp [outermost, other]

theorem outermost_isPrefix (rest : List Char) : outermost rest <+: rest := by
  by_cases leads : LeadsWithDollar rest
  · rw [outermost_leading leads]
  · rw [outermost_plain leads]
    exact List.takeWhile_prefix _

theorem outermost_outermost (rest : List Char) : outermost (outermost rest) = outermost rest := by
  by_cases leads : LeadsWithDollar rest
  · rw [outermost_leading leads, outermost_leading leads]
  · have plain : ¬ LeadsWithDollar (outermost rest) := by
      rw [outermost_plain leads, LeadsWithDollar, List.head?_takeWhile]
      simp [Option.filter_eq_some_iff]
    rw [outermost_plain plain, outermost_plain leads, List.takeWhile_idem]

theorem takeWhile_mark (mark : Char) (before after : List Char) :
    (before ++ mark :: after).takeWhile (· ≠ mark) = before.takeWhile (· ≠ mark) := by
  induction before with
  | nil => simp
  | cons c before ih =>
    by_cases same : c = mark
    · simp [same]
    · simp only [List.cons_append, List.takeWhile_cons, ih]

/-- What follows a dollar sign makes no difference, unless the name begins with one. -/
theorem outermost_append (filled : rest ≠ []) (inner : List Char) :
    outermost (rest ++ '$' :: inner) = outermost rest ↔ ¬ LeadsWithDollar rest := by
  have same : LeadsWithDollar (rest ++ '$' :: inner) ↔ LeadsWithDollar rest := by
    rw [LeadsWithDollar, List.head?_append_of_ne_nil _ filled, LeadsWithDollar]
  by_cases leads : LeadsWithDollar rest
  · rw [outermost_leading leads, outermost_leading (same.mpr leads)]
    simp [leads]
  · rw [outermost_plain leads, outermost_plain (mt same.mp leads), takeWhile_mark]
    simp [leads]

end

/-- The outermost class is its own outermost class. -/
theorem topLevel_topLevel (name : String) : topLevel (topLevel name) = topLevel name := by
  obtain ⟨front, rest, qualifier, free, rfl⟩ := exists_parts name
  have free' : '.' ∉ outermost rest := fun member => free ((outermost_isPrefix rest).subset member)
  rw [topLevel_parts qualifier free, topLevel_parts qualifier free', outermost_outermost]

/-- The outermost class is in the package of the class. -/
theorem package_topLevel (name : String) : package (topLevel name) = package name := by
  obtain ⟨front, rest, qualifier, free, rfl⟩ := exists_parts name
  have free' : '.' ∉ outermost rest := fun member => free ((outermost_isPrefix rest).subset member)
  rw [topLevel_parts qualifier free, package_parts qualifier free', package_parts qualifier free]

theorem topLevel_nested_iff {outer inner : String} (named : simple outer ≠ "")
    (free : '.' ∉ inner.toList) :
    topLevel (outer ++ "$" ++ inner) = topLevel outer ↔ ¬ LeadsWithDollar (simple outer).toList := by
  obtain ⟨front, rest, qualifier, free', rfl⟩ := exists_parts outer
  rw [simple_parts qualifier free'] at named ⊢
  have filled : rest ≠ [] := by
    rintro rfl
    exact named rfl
  have nested : String.ofList (front ++ rest) ++ "$" ++ inner =
      String.ofList (front ++ (rest ++ '$' :: inner.toList)) := by
    apply String.toList_inj.mp
    simp
  have free'' : '.' ∉ rest ++ '$' :: inner.toList := by simp [free, free']
  rw [nested, topLevel_parts qualifier free'', topLevel_parts qualifier free', String.ofList_inj,
    List.append_cancel_left_eq, String.toList_ofList]
  exact outermost_append filled _

end ClassName

namespace Graph

section

variable {g : Graph} {source : Option JarRef} {c owner : JavaClass} {member : Member}

theorem canAccessMember_nestmate (same : ClassName.topLevel c.name = ClassName.topLevel owner.name) :
    g.canAccessMember source c owner member = true := by
  rw [canAccessMember, if_pos same]
  split <;> rfl

theorem canAccessMember_private (isPrivate : member.access.has .isPrivate = true)
    (notPublic : member.access.has .isPublic = false) :
    g.canAccessMember source c owner member = true ↔
      ClassName.topLevel c.name = ClassName.topLevel owner.name := by
  by_cases same : ClassName.topLevel c.name = ClassName.topLevel owner.name
  · simp [canAccessMember_nestmate same, same]
  · simp [canAccessMember, isPrivate, notPublic, same]

end

open ClassName in
/-- A class and those nested in it have one outermost class and share all their members, in every graph,
unless the simple name of the enclosing class begins with a dollar sign: then they have not, and private
members are refused in both directions. -/
theorem nested_share_members (outer inner : String) (named : simple outer ≠ "")
    (free : '.' ∉ inner.toList) :
    (∀ name, topLevel (topLevel name) = topLevel name ∧ package (topLevel name) = package name) ∧
    (topLevel (outer ++ "$" ++ inner) = topLevel outer ↔ ¬ LeadsWithDollar (simple outer).toList) ∧
    ∀ (g : Graph) (source : Option JarRef) (c d : JavaClass) (member : Member),
      c.name = outer → d.name = outer ++ "$" ++ inner →
      (¬ LeadsWithDollar (simple outer).toList →
        g.canAccessMember source c d member = true ∧
          g.canAccessMember source d c member = true) ∧
      (LeadsWithDollar (simple outer).toList → member.access.has .isPrivate = true →
        member.access.has .isPublic = false →
        g.canAccessMember source c d member = false ∧
          g.canAccessMember source d c member = false) := by
  have shares := topLevel_nested_iff named free
  refine ⟨fun name => ⟨topLevel_topLevel name, package_topLevel name⟩, shares, ?_⟩
  intro g source c d member isOuter isNested
  subst isOuter
  rw [← isNested] at shares
  constructor
  · intro plain
    have same := shares.mpr plain
    exact ⟨canAccessMember_nestmate same.symm, canAccessMember_nestmate same⟩
  · intro leads isPrivate notPublic
    have apart : topLevel d.name ≠ topLevel c.name := fun same => shares.mp same leads
    constructor
    · rw [← Bool.not_eq_true, canAccessMember_private isPrivate notPublic]
      exact apart.symm
    · rw [← Bool.not_eq_true, canAccessMember_private isPrivate notPublic]
      exact apart

theorem nested_share_members_dollars :
    (ClassName.simple "util.Map" ≠ "" ∧ '.' ∉ "Entry$1".toList ∧
      ¬ ClassName.LeadsWithDollar (ClassName.simple "util.Map").toList ∧
      ∀ g : Graph, g.canAccessMember none (bareClass "util.Map" ClassName.object [])
        (bareClass "util.Map$Entry$1" ClassName.object []) ⟨"hash", "I", .isPrivate⟩ = true) ∧
    ClassName.simple "lib.$Unit" ≠ "" ∧ '.' ∉ "Part".toList ∧
      ClassName.LeadsWithDollar (ClassName.simple "lib.$Unit").toList ∧
      AccessFlags.isPrivate.has .isPrivate = true ∧ AccessFlags.isPrivate.has .isPublic = false ∧
      ∀ g : Graph, g.canAccessMember none (bareClass "lib.$Unit" ClassName.object [])
        (bareClass "lib.$Unit$Part" ClassName.object []) ⟨"hash", "I", .isPrivate⟩ = false := by
  refine ⟨⟨by decide, by decide, by decide, fun g => ?_⟩, by decide, by decide, by decide, by decide,
    by decide, fun g => ?_⟩
  · obtain ⟨-, -, access⟩ := nested_share_members "util.Map" "Entry$1" (by decide) (by decide)
    exact ((access g none _ _ _ rfl rfl).1 (by decide)).1
  · obtain ⟨-, -, access⟩ := nested_share_members "lib.$Unit" "Part" (by decide) (by decide)
    exact ((access g none _ _ _ rfl rfl).2 (by decide) (by decide) (by decide)).1

open ClassName in
/-- A class whose name begins with a dollar sign is refused a private member of a class nested in it. -/
theorem nested_private_refused :
    ¬ ∀ outer inner : String, simple outer ≠ "" → inner ≠ "" → '.' ∉ inner.toList →
      topLevel (outer ++ "$" ++ inner) = topLevel outer ∧
      ∀ (g : Graph) (source : Option JarRef) (c d : JavaClass) (member : Member),
        c.name = outer → d.name = outer ++ "$" ++ inner →
        g.canAccessMember source c d member = true ∧
          g.canAccessMember source d c member = true := by
  intro claimed
  obtain ⟨-, shared⟩ := claimed "lib.$Unit" "Part" (by decide) (by decide) (by decide)
  have allowed := shared (build (Classpath.new [] baseRelease) none) none
    (bareClass "lib.$Unit" ClassName.object []) (bareClass "lib.$Unit$Part" ClassName.object [])
    ⟨"run", "()V", .isPrivate⟩ rfl rfl
  exact absurd allowed.1 (by decide +kernel)

end Graph

end ClasspathAudit
