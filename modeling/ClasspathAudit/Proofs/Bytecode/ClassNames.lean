import ClasspathAudit.Bytecode.Descriptor
import Mathlib.Tactic

/-!
The two forms of a class name, and the descriptor that a class name alone makes.
-/

namespace ClasspathAudit

namespace ClassName

/-- A name that both forms of class names can carry: not empty, no separator of the internal form, no
end mark of a descriptor and no array mark in front. -/
@[mk_iff]
structure IsPlain (name : String) : Prop where
  nonempty : name ≠ ""
  noSlash : '/' ∉ name.toList
  noSemicolon : ';' ∉ name.toList
  noArray : Text.hasStart "[" name = false

instance (name : String) : Decidable (IsPlain name) := decidable_of_iff _ (isPlain_iff name).symm

@[simp] theorem toList_internal (name : String) :
    (internal name).toList = name.toList.map fun c => if c = '.' then '/' else c := by
  simp [internal]

@[simp] theorem toList_external (name : String) :
    (external name).toList = name.toList.map fun c => if c = '/' then '.' else c := by
  simp [external]

theorem external_internal {name : String} (noSlash : '/' ∉ name.toList) :
    external (internal name) = name := by
  apply String.toList_inj.mp
  rw [toList_external, toList_internal, List.map_map]
  conv_rhs => rw [← List.map_id name.toList]
  apply List.map_congr_left
  intro c member
  by_cases dot : c = '.'
  · simp [dot]
  · have noSep : c ≠ '/' := fun slash => noSlash (slash ▸ member)
    simp [dot, noSep]

theorem internal_injective {name other : String} (noSlash : '/' ∉ name.toList)
    (noSlash' : '/' ∉ other.toList) (same : internal name = internal other) : name = other := by
  rw [← external_internal noSlash, same, external_internal noSlash']

theorem hasStart_array_iff (name : String) :
    Text.hasStart "[" name = true ↔ ∃ rest, name.toList = '[' :: rest := by
  cases chars : name.toList with
  | nil => simp [Text.hasStart, chars]
  | cons c rest =>
    simp only [Text.hasStart, chars]
    constructor
    · intro starts
      have first : c = '[' := by
        simp [List.isPrefixOf] at starts
        exact starts.symm
      exact ⟨rest, by rw [first]⟩
    · rintro ⟨_, same⟩
      injection same with first _
      simp [List.isPrefixOf, first]

theorem hasStart_array_internal (name : String) :
    Text.hasStart "[" (internal name) = Text.hasStart "[" name := by
  rw [Bool.eq_iff_iff, hasStart_array_iff, hasStart_array_iff, toList_internal]
  cases name.toList with
  | nil => simp
  | cons c rest =>
    by_cases dot : c = '.'
    · simp [dot]
    · simp [dot]

theorem hasStart_array_external (name : String) :
    Text.hasStart "[" (external name) = Text.hasStart "[" name := by
  rw [Bool.eq_iff_iff, hasStart_array_iff, hasStart_array_iff, toList_external]
  cases name.toList with
  | nil => simp
  | cons c rest =>
    by_cases slash : c = '/'
    · simp [slash]
    · simp [slash]

theorem internal_ne_empty {name : String} (nonempty : name ≠ "") : internal name ≠ "" := by
  intro empty
  apply nonempty
  apply String.toList_inj.mp
  have chars := congrArg String.toList empty
  simpa using chars

end ClassName

namespace Descriptor

/-- A class type is read up to its end mark. -/
theorem scanFrom_name (name before rest : List Char) (noEnd : ';' ∉ name)
    (nonempty : name ≠ [] ∨ before ≠ []) :
    scanFrom (some before) (name ++ ';' :: rest) =
      (ClassName.external (String.ofList (before.reverse ++ name)) :: (scanFrom none rest).1,
        (scanFrom none rest).2) := by
  induction name generalizing before with
  | nil =>
    have filled : before.isEmpty = false := by simpa using nonempty
    simp [scanFrom, filled]
  | cons c name ih =>
    have other : c ≠ ';' := fun same => noEnd (by simp [same])
    have noEnd' : ';' ∉ name := fun member => noEnd (List.mem_cons_of_mem c member)
    rw [List.cons_append, scanFrom, if_pos other, ih (c :: before) noEnd' (by simp)]
    simp

/-- The descriptor of a class names that class and nothing else. -/
theorem scan_className {name : String} (plain : ClassName.IsPlain name) :
    scan ("L" ++ ClassName.internal name ++ ";") = ([name], none) := by
  have noEnd : ';' ∉ (ClassName.internal name).toList := by
    rw [ClassName.toList_internal]
    intro member
    obtain ⟨c, inside, same⟩ := List.mem_map.mp member
    by_cases dot : c = '.'
    · simp [dot] at same
    · rw [if_neg dot] at same
      exact plain.noSemicolon (same ▸ inside)
  have filled : (ClassName.internal name).toList ≠ [] := by
    intro empty
    apply ClassName.internal_ne_empty plain.nonempty
    exact String.toList_inj.mp empty
  have chars : ("L" ++ ClassName.internal name ++ ";").toList =
      'L' :: ((ClassName.internal name).toList ++ ';' :: []) := by
    simp
  have inner := scanFrom_name (ClassName.internal name).toList [] [] noEnd (.inl filled)
  rw [scan, chars, scanFrom, if_pos rfl, inner, List.reverse_nil, List.nil_append,
    String.ofList_toList, ClassName.external_internal plain.noSlash]
  rfl

end Descriptor

end ClasspathAudit
