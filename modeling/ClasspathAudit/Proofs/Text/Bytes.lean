import ClasspathAudit.Text.Bytes
import Mathlib.Tactic

/-!
Lines of bytes and the blanks at their ends.
-/

namespace ClasspathAudit.Text

/-- The first line of a text ends at its first line end. -/
theorem byteLines_append {line : List UInt8} (plain : 10 ∉ line) (rest : List UInt8) :
    byteLines (line ++ 10 :: rest) = line :: byteLines rest := by
  induction line with
  | nil => rfl
  | cons b line ih =>
    rw [List.mem_cons, not_or] at plain
    obtain ⟨other, plain⟩ := plain
    rw [List.cons_append, byteLines, if_neg (Ne.symm other), ih plain]
    cases line with
    | nil => rfl
    | cons next line =>
      rw [List.mem_cons, not_or] at plain
      have later : (next :: line ++ 10 :: rest).head? ≠ some 10 := by
        simpa using Ne.symm plain.1
      simp only [if_neg later]

section

variable {marks : List (List UInt8)} {bytes : List UInt8}

theorem dropMarks_eq_self (free : ∀ mark ∈ marks, ¬ mark <+: bytes) (fuel : Nat) :
    dropMarks marks fuel bytes = bytes := by
  cases fuel with
  | zero => rfl
  | succ fuel =>
    have none : marks.find? (·.isPrefixOf bytes) = none := by
      simpa [List.find?_eq_none] using free
    rw [dropMarks, none]

/-- With fuel for every byte, no mark is left at the front. -/
theorem dropMarks_free {fuel : Nat} (solid : [] ∉ marks) (enough : bytes.length ≤ fuel) :
    ∀ mark ∈ marks, ¬ mark <+: dropMarks marks fuel bytes := by
  induction fuel generalizing bytes with
  | zero =>
    obtain rfl := List.eq_nil_of_length_eq_zero (Nat.le_zero.mp enough)
    intro mark member start
    rw [dropMarks, List.prefix_nil] at start
    exact solid (start ▸ member)
  | succ fuel ih =>
    rw [dropMarks]
    split
    next mark found =>
      refine ih ?_
      have positive : 0 < mark.length := by
        rw [List.length_pos_iff]
        rintro rfl
        exact solid (List.mem_of_find?_eq_some found)
      rw [List.length_drop]
      omega
    next none => simpa [List.find?_eq_none] using none

end

/-- The encoding of a blank stands at the front. -/
def StartsBlank (bytes : List UInt8) : Prop := ∃ mark ∈ blankEncodings, mark <+: bytes

/-- The encoding of a blank stands at the end. -/
def EndsBlank (bytes : List UInt8) : Prop := ∃ mark ∈ blankEncodings, mark <:+ bytes

instance (bytes : List UInt8) : Decidable (StartsBlank bytes) :=
  inferInstanceAs (Decidable (∃ mark ∈ blankEncodings, mark <+: bytes))

instance (bytes : List UInt8) : Decidable (EndsBlank bytes) :=
  inferInstanceAs (Decidable (∃ mark ∈ blankEncodings, mark <:+ bytes))

/-- The bytes without the blanks at their end. -/
def trimmedEnd (bytes : List UInt8) : List UInt8 :=
  (dropMarks (blankEncodings.map List.reverse) bytes.length bytes.reverse).reverse

theorem not_endsBlank_trimmedEnd (bytes : List UInt8) : ¬ EndsBlank (trimmedEnd bytes) := by
  rintro ⟨mark, member, ending⟩
  have solid : [] ∉ blankEncodings.map List.reverse := by decide +kernel
  refine dropMarks_free solid bytes.length_reverse.le mark.reverse (List.mem_map_of_mem member) ?_
  rwa [trimmedEnd, ← List.reverse_prefix, List.reverse_reverse] at ending

theorem trimmedEnd_eq_self_iff {bytes : List UInt8} : trimmedEnd bytes = bytes ↔ ¬ EndsBlank bytes := by
  constructor
  · intro same
    rw [← same]
    exact not_endsBlank_trimmedEnd bytes
  · intro plain
    rw [trimmedEnd, dropMarks_eq_self, List.reverse_reverse]
    intro mark member start
    obtain ⟨original, inside, rfl⟩ := List.mem_map.mp member
    exact plain ⟨original, inside, List.reverse_prefix.mp start⟩

theorem trimBytes_of_not_startsBlank {bytes : List UInt8} (plain : ¬ StartsBlank bytes) :
    trimBytes bytes = trimmedEnd bytes := by
  have front : dropMarks blankEncodings bytes.length bytes = bytes :=
    dropMarks_eq_self (fun mark member start => plain ⟨mark, member, start⟩) _
  rw [trimBytes, front, trimmedEnd]

theorem trimBytes_eq_self {bytes : List UInt8} (front : ¬ StartsBlank bytes)
    (back : ¬ EndsBlank bytes) : trimBytes bytes = bytes := by
  rw [trimBytes_of_not_startsBlank front, trimmedEnd_eq_self_iff.mpr back]

/-- A space at the front is dropped first. -/
theorem trimBytes_space (bytes : List UInt8) : trimBytes (32 :: bytes) = trimBytes bytes := by
  have listed : [32] ∈ blankEncodings := by decide +kernel
  have only : ∀ mark ∈ blankEncodings, mark = [32] ∨ mark.head? ≠ some 32 ∧ mark ≠ [] := by
    decide +kernel
  have found : blankEncodings.find? (·.isPrefixOf (32 :: bytes)) = some [32] := by
    cases search : blankEncodings.find? (·.isPrefixOf (32 :: bytes)) with
    | none =>
      have absent := List.find?_eq_none.mp search [32] listed
      simp at absent
    | some mark =>
      have start := List.find?_some search
      rcases only mark (List.mem_of_find?_eq_some search) with same | ⟨other, solid⟩
      · rw [same]
      · obtain ⟨first, more, rfl⟩ := List.exists_cons_of_ne_nil solid
        simp only [List.isPrefixOf_cons_cons, Bool.and_eq_true, beq_iff_eq] at start
        exact absurd (congrArg some start.1) other
  rw [trimBytes, trimBytes, List.length_cons, dropMarks, found]
  rfl

end ClasspathAudit.Text
