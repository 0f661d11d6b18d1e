import ClasspathAudit.Text.Decimal
import ClasspathAudit.Text.Path
import Mathlib.Tactic

/-!
Cutting text at its separators and endings, and reading a number back from its digits.
-/

namespace ClasspathAudit.Text

theorem splitFirst?_append {sep : Char} {before : List Char} (free : sep ∉ before)
    (after : List Char) : splitFirst? sep (before ++ sep :: after) = some (before, after) := by
  induction before with
  | nil => simp [splitFirst?]
  | cons c before ih =>
    have other : c ≠ sep := fun same => free (by simp [same])
    have free' : sep ∉ before := fun member => free (List.mem_cons_of_mem c member)
    rw [List.cons_append, splitFirst?, if_neg other, ih free']
    rfl

theorem not_mem_of_splitFirst? {sep : Char} {text before after : List Char}
    (found : splitFirst? sep text = some (before, after)) : sep ∉ before := by
  induction text generalizing before with
  | nil => cases found
  | cons c text ih =>
    rw [splitFirst?] at found
    split at found
    next same =>
      cases found
      exact List.not_mem_nil
    next other =>
      obtain ⟨⟨front, back⟩, inner, same⟩ := Option.map_eq_some_iff.mp found
      cases same
      intro member
      rcases List.mem_cons.mp member with same | later
      · exact other same.symm
      · exact ih inner later

theorem splitLast?_eq_none_iff {sep : Char} {text : List Char} :
    splitLast? sep text = none ↔ sep ∉ text := by
  induction text with
  | nil => simp [splitLast?]
  | cons c text ih =>
    rw [splitLast?]
    cases inner : splitLast? sep text with
    | some parts =>
      have member : sep ∈ text := by
        by_contra free
        rw [ih.mpr free] at inner
        cases inner
      simp [member]
    | none =>
      have free := ih.mp inner
      by_cases same : c = sep
      · simp [same]
      · simp [same, free, Ne.symm same]

theorem splitLast?_append {sep : Char} {after : List Char} (free : sep ∉ after)
    (before : List Char) : splitLast? sep (before ++ sep :: after) = some (before, after) := by
  induction before with
  | nil =>
    rw [List.nil_append, splitLast?, splitLast?_eq_none_iff.mpr free]
    simp
  | cons c before ih => rw [List.cons_append, splitLast?, ih]

theorem splitLast?_eq_some {sep : Char} {text before after : List Char}
    (found : splitLast? sep text = some (before, after)) :
    text = before ++ sep :: after ∧ sep ∉ after := by
  induction text generalizing before with
  | nil => cases found
  | cons c text ih =>
    rw [splitLast?] at found
    split at found
    next front back inner =>
      cases found
      obtain ⟨rfl, free⟩ := ih inner
      exact ⟨rfl, free⟩
    next inner =>
      split at found
      next same =>
        cases found
        exact ⟨by rw [same]; rfl, splitLast?_eq_none_iff.mp inner⟩
      next other => cases found

theorem splitAll_eq_splitOn (sep : Char) (text : List Char) : splitAll sep text = text.splitOn sep := by
  induction text with
  | nil => simp [splitAll]
  | cons c text ih =>
    obtain ⟨part, parts, cut⟩ := List.exists_cons_of_ne_nil (List.splitOn_ne_nil sep text)
    rw [splitAll, List.splitOn_cons_eq_if_modifyHead, ih, cut]
    by_cases mark : c = sep
    · simp [mark]
    · simp [mark]

theorem splitAll_ne_nil (sep : Char) (text : List Char) : splitAll sep text ≠ [] := by
  rw [splitAll_eq_splitOn]
  exact List.splitOn_ne_nil sep text

/-- The parts of a text with the separator between them are the text. -/
theorem intercalate_splitAll (sep : Char) (text : List Char) :
    List.intercalate [sep] (splitAll sep text) = text := by
  rw [splitAll_eq_splitOn]
  exact List.intercalate_splitOn sep

/-- Digits are taken up to what does not begin with one. -/
theorem span_digits {digits rest : List Char} (all : ∀ c ∈ digits, isDigit c = true)
    (stops : rest.takeWhile isDigit = []) :
    (digits ++ rest).takeWhile isDigit = digits ∧ (digits ++ rest).dropWhile isDigit = rest := by
  have left : rest.dropWhile isDigit = rest := by
    conv_rhs => rw [← List.takeWhile_append_dropWhile (p := isDigit) (l := rest), stops]
    rfl
  rw [List.takeWhile_append_of_pos all, List.dropWhile_append_of_pos all, stops, left]
  simp

theorem hasStart_iff {start s : String} : hasStart start s = true ↔ ∃ rest, s = start ++ rest := by
  rw [hasStart, List.isPrefixOf_iff_prefix]
  constructor
  · rintro ⟨rest, same⟩
    exact ⟨String.ofList rest, String.toList_inj.mp (by simp [same])⟩
  · rintro ⟨rest, rfl⟩
    exact ⟨rest.toList, by simp⟩

theorem hasEnd_iff {ending s : String} : hasEnd ending s = true ↔ ∃ front, s = front ++ ending := by
  rw [hasEnd, List.isSuffixOf_iff_suffix]
  constructor
  · rintro ⟨front, same⟩
    exact ⟨String.ofList front, String.toList_inj.mp (by simp [same])⟩
  · rintro ⟨front, rfl⟩
    exact ⟨front.toList, by simp⟩

theorem dropEnding_append (ending s : String) : dropEnding ending (s ++ ending) = s := by
  have ends : hasEnd ending (s ++ ending) = true := hasEnd_iff.mpr ⟨s, rfl⟩
  rw [dropEnding, if_pos ends]
  apply String.toList_inj.mp
  simp

namespace Path

/-- The extension begins at the last dot, if no slash follows it. -/
theorem extension_append {after : List Char} (noDot : '.' ∉ after) (noSlash : '/' ∉ after)
    (before : String) :
    extension (before ++ String.ofList ('.' :: after)) = String.ofList ('.' :: after) := by
  have chars : (before ++ String.ofList ('.' :: after)).toList = before.toList ++ '.' :: after := by
    simp
  have noSlash' : '/' ∉ '.' :: after := by simp [noSlash]
  rw [extension, chars]
  cases parts : splitLast? '/' before.toList with
  | none =>
    have free := splitLast?_eq_none_iff.mp parts
    have whole : splitLast? '/' (before.toList ++ '.' :: after) = none := by
      rw [splitLast?_eq_none_iff, List.mem_append]
      exact fun member => member.elim free noSlash'
    simp only [whole, splitLast?_append noDot]
  | some pair =>
    obtain ⟨front, segment⟩ := pair
    obtain ⟨same, free⟩ := splitLast?_eq_some parts
    have cut : splitLast? '/' (before.toList ++ '.' :: after) = some (front, segment ++ '.' :: after) := by
      rw [same, List.append_assoc, List.cons_append]
      apply splitLast?_append
      rw [List.mem_append]
      exact fun member => member.elim free noSlash'
    simp only [cut, splitLast?_append noDot]

/-- The last segment of a path, whatever directory stands in front of it. -/
theorem base_segment {front segment : List Char} (filled : segment ≠ []) (inside : '/' ∉ segment)
    (directory : front = [] ∨ ∃ before, front = before ++ ['/']) :
    base (String.ofList (front ++ segment)) = String.ofList segment := by
  have path : (String.ofList (front ++ segment)).isEmpty = false := by simp [filled]
  have text : (front ++ segment).isEmpty = false := by simp [filled]
  have kept : ((front ++ segment).reverse.dropWhile (· = '/')).reverse = front ++ segment := by
    obtain ⟨last, init, reversed⟩ := List.exists_cons_of_ne_nil (List.reverse_ne_nil_iff.mpr filled)
    have other : last ≠ '/' := by
      rintro rfl
      exact inside (List.mem_reverse.mp (reversed ▸ List.mem_cons_self))
    rw [List.reverse_append, reversed, List.cons_append,
      List.dropWhile_cons_of_neg (by simpa using other), ← List.cons_append, ← reversed,
      ← List.reverse_append, List.reverse_reverse]
  simp only [base, path, String.toList_ofList, kept, text, Bool.false_eq_true, if_false]
  rcases directory with rfl | ⟨before, rfl⟩
  · rw [List.nil_append, splitLast?_eq_none_iff.mpr inside]
  · rw [List.append_assoc, List.singleton_append, splitLast?_append inside]

theorem base_ne_empty (path : String) : base path ≠ "" := by
  have filled : ∀ {chars : List Char}, chars ≠ [] → String.ofList chars ≠ "" := by
    intro chars some none
    exact some (by simpa using congrArg String.toList none)
  rw [base]
  split
  · decide
  dsimp only
  split
  · decide
  next text =>
    rw [List.isEmpty_iff] at text
    split
    next before last parts =>
      apply filled
      rintro rfl
      -- an empty last segment would be a slash at the end, and those are cut off
      obtain ⟨same, -⟩ := splitLast?_eq_some parts
      have reversed := congrArg List.reverse same
      rw [List.reverse_reverse, List.reverse_append] at reversed
      have first := List.head?_dropWhile_not (fun c => decide (c = '/')) path.toList.reverse
      rw [reversed] at first
      simp at first
    next => exact filled text

end Path

theorem digitsValue_toDigits (n : Nat) : digitsValue (Nat.toDigits 10 n) = n := by
  have value : ∀ (digits : List Char) (start : Nat),
      digits.foldl (fun n c => n * 10 + (c.toNat - '0'.toNat)) start =
        Nat.ofDigitChars 10 digits start := by
    intro digits
    induction digits with
    | nil => simp
    | cons c digits ih =>
      intro start
      rw [List.foldl_cons, ih, Nat.ofDigitChars_cons, Nat.mul_comm]
  rw [digitsValue, value, Nat.ofDigitChars_ten_toDigits]

theorem isDigit_of_mem_toDigits {n : Nat} {c : Char} (member : c ∈ Nat.toDigits 10 n) :
    isDigit c = true := by
  have digit := Nat.isDigit_of_mem_toDigits (by decide) (by decide) member
  simp only [Char.isDigit, Bool.and_eq_true, decide_eq_true_eq] at digit
  simp only [isDigit, Bool.and_eq_true, decide_eq_true_eq]
  exact digit

/-- The digits of a number start with one. -/
theorem toDigits_front (n : Nat) : ∃ c rest, Nat.toDigits 10 n = c :: rest ∧ isDigit c = true := by
  obtain ⟨c, rest, front⟩ := List.exists_cons_of_ne_nil (Nat.toDigits_ne_nil (b := 10) (n := n))
  exact ⟨c, rest, front, isDigit_of_mem_toDigits (by rw [front]; exact List.mem_cons_self)⟩

theorem digits?_toDigits (n : Nat) : digits? (Nat.toDigits 10 n) = some n := by
  have filled : (Nat.toDigits 10 n).isEmpty = false := by simp
  have all : (Nat.toDigits 10 n).all isDigit = true :=
    List.all_eq_true.mpr fun c member => isDigit_of_mem_toDigits member
  rw [digits?, filled, all, digitsValue_toDigits]
  rfl

theorem toList_toString_natCast (n : Nat) : (toString (n : Int)).toList = Nat.toDigits 10 n := by
  have same : toString (n : Int) = n.repr := rfl
  rw [same, Nat.toList_repr]

theorem toString_injective {m n : Int} (positive : 0 ≤ m) (positive' : 0 ≤ n)
    (same : toString m = toString n) : m = n := by
  obtain ⟨m, rfl⟩ := Int.eq_ofNat_of_zero_le positive
  obtain ⟨n, rfl⟩ := Int.eq_ofNat_of_zero_le positive'
  have digits := congrArg String.toList same
  rw [toList_toString_natCast, toList_toString_natCast] at digits
  rw [← digitsValue_toDigits m, digits, digitsValue_toDigits]

theorem decimal?_toString {n : Nat} (fits : (n : Int) ≤ wordMax) :
    decimal? (toString (n : Int)) = some (n : Int) := by
  have positive : fitsWord (n : Int) = true := by
    rw [fitsWord, Bool.and_eq_true, decide_eq_true_eq, decide_eq_true_eq]
    refine ⟨?_, fits⟩
    rw [wordMin]
    omega
  have value := digits?_toDigits n
  obtain ⟨c, rest, front, digit⟩ := toDigits_front n
  rw [front] at value
  rw [decimal?, toList_toString_natCast, front]
  -- no digit is a sign
  have noMinus : c ≠ '-' := by
    rintro rfl
    exact absurd digit (by decide)
  have noPlus : c ≠ '+' := by
    rintro rfl
    exact absurd digit (by decide)
  simp [noMinus, noPlus, value, positive]

end ClasspathAudit.Text
