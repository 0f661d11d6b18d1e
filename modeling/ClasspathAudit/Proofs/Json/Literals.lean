import ClasspathAudit.Json.Reader
import ClasspathAudit.Json.Writer
import ClasspathAudit.Proofs.Text.Split
import ClasspathAudit.Text.Integer
import Mathlib.Tactic

/-!
Strings and numbers of JSON as they are written, read back. Every character is read from its escape,
those that look like markup or end a line of a script included, and an integer is read to its last digit.
-/

namespace ClasspathAudit.Json

open Text

theorem hexValue?_hexDigit : ∀ digit < 16, hexValue? (hexDigit digit) = some digit := by decide

theorem hexFour?_hexFixed {n : Nat} (small : n < 65536) :
    ∃ a b c d, hexFixed 4 n = [a, b, c, d] ∧ hexFour? a b c d = some n := by
  refine ⟨_, _, _, _, rfl, ?_⟩
  have digit : ∀ m, hexValue? (hexDigit (m % 16)) = some (m % 16) := fun m =>
    hexValue?_hexDigit _ (Nat.mod_lt _ (by decide))
  simp only [hexFour?, digit, Option.bind_eq_bind, Option.bind_some, Option.pure_def, Option.some.injEq]
  omega

/-- A code unit that stands for a character by itself. -/
theorem joinUnit_plain {unit : Nat} (plain : unit < 0xD800 ∨ 0xE000 ≤ unit) :
    joinUnit none unit = ([Char.ofNat unit], none) := by
  have low : ¬(0xD800 ≤ unit ∧ unit < 0xDC00) := by omega
  have high : ¬(0xDC00 ≤ unit ∧ unit < 0xE000) := by omega
  simp [joinUnit, low, high]

/-- Behind a backslash, a letter for a character. -/
theorem stringTail_simple {e c : Char} (escape : simpleEscape? e = some c) (small : c.toNat < 0xD800)
    (notUnicode : e ≠ 'u') (done rest : List Char) :
    stringTail done none ('\\' :: e :: rest) = stringTail (c :: done) none rest := by
  rw [stringTail.eq_3 done none e rest (fun a b c d rest isUnicode => by simp_all)]
  simp only [escape, joinUnit_plain (.inl small), Char.ofNat_toNat]
  rfl

theorem stringTail_unicode {c : Char} (small : c.toNat < 0xD800) (done rest : List Char) :
    stringTail done none (unicodeEscape c.toNat ++ rest) = stringTail (c :: done) none rest := by
  obtain ⟨a, b, d, e, digits, value⟩ := hexFour?_hexFixed (n := c.toNat) (by omega)
  rw [unicodeEscape, digits]
  simp only [List.cons_append, List.nil_append, stringTail, value, joinUnit_plain (.inl small),
    Char.ofNat_toNat]
  rfl

theorem stringTail_cons {c : Char} (notBackslash : c ≠ '\\') (done rest : List Char) :
    stringTail done none (c :: rest) =
      if c = '\x22' then some (done, rest)
      else if c.toNat < 0x20 ∨ c = '\\' then none else stringTail (c :: done) none rest :=
  stringTail.eq_5 done c rest (fun _ _ _ _ _ isBackslash _ => notBackslash isBackslash)
    (fun _ _ isBackslash _ => notBackslash isBackslash)

theorem eq_ofNat {c : Char} {n : Nat} (code : c.toNat = n) : c = Char.ofNat n :=
  code ▸ (Char.ofNat_toNat c).symm

/-- Every character is read from its escape. -/
theorem stringTail_escapeChar (c : Char) (done rest : List Char) :
    stringTail done none (escapeChar c ++ rest) = stringTail (c :: done) none rest := by
  unfold escapeChar
  split
  case h_8 n notQuote notBackslash _ _ _ _ _ =>
    split
    next marked =>
      exact stringTail_unicode (by omega) done rest
    next plain =>
      have isQuote : c ≠ '\x22' := fun same => notQuote (congrArg Char.toNat same)
      have isBackslash : c ≠ '\\' := fun same => notBackslash (congrArg Char.toNat same)
      have isControl : ¬(c.toNat < 0x20 ∨ c = '\\') := by
        rintro (low | same)
        · exact plain (.inl low)
        · exact isBackslash same
      rw [List.singleton_append, stringTail_cons isBackslash, if_neg isQuote, if_neg isControl]
  all_goals
    rename_i code
    rw [eq_ofNat code]
    exact stringTail_simple rfl (by decide) (by decide) done rest

/-- A string is read up to its closing quote. -/
theorem stringTail_escaped (cs done rest : List Char) :
    stringTail done none (cs.flatMap escapeChar ++ '\x22' :: rest) = some (cs.reverse ++ done, rest) := by
  induction cs generalizing done with
  | nil => rw [List.flatMap_nil, List.nil_append, stringTail_cons (by decide), if_pos rfl]; rfl
  | cons c cs ih =>
    rw [List.flatMap_cons, List.append_assoc, stringTail_escapeChar, ih]
    simp

theorem stringTail_quoted (s : String) (rest : List Char) :
    ∃ tail, (quoted s).toList ++ rest = '\x22' :: tail ∧ stringTail [] none tail =
      some (s.toList.reverse, rest) := by
  refine ⟨s.toList.flatMap escapeChar ++ '\x22' :: rest, by simp [quoted], ?_⟩
  rw [stringTail_escaped, List.append_nil]

/-- What can follow a value: a comma or a new line. -/
def Ends (rest : List Char) : Prop := ∃ c tail, rest = c :: tail ∧ (c = ',' ∨ c = '\n')

theorem fraction_ends {rest : List Char} (ends : Ends rest) : fraction rest = some ([], rest) := by
  obtain ⟨c, tail, rfl, rfl | rfl⟩ := ends <;> rfl

theorem exponent_ends {rest : List Char} (ends : Ends rest) : exponent rest = some ([], rest) := by
  obtain ⟨c, tail, rfl, rfl | rfl⟩ := ends <;> rfl

theorem digits_append {ds rest : List Char} (all : ∀ c ∈ ds, isDigit c = true) (ends : Ends rest) :
    digits (ds ++ rest) = (ds, rest) := by
  have stop : rest.takeWhile isDigit = [] ∧ rest.dropWhile isDigit = rest := by
    obtain ⟨c, tail, rfl, rfl | rfl⟩ := ends <;> exact ⟨rfl, rfl⟩
  rw [digits, List.takeWhile_append_of_pos all, List.dropWhile_append_of_pos all, stop.1, stop.2,
    List.append_nil]

/-- The digits of a positive number do not start with a zero. -/
theorem toDigits_of_pos {n : Nat} (positive : 0 < n) :
    ∃ c rest, Nat.toDigits 10 n = c :: rest ∧ c ≠ '0' := by
  induction n using Nat.strong_induction_on with
  | _ n ih =>
    have digit : ∀ d < 10, 0 < d → Nat.digitChar d ≠ '0' := by decide
    rw [Nat.toDigits_eq_if (by decide)]
    split
    next small => exact ⟨_, [], rfl, digit n small positive⟩
    next large =>
      obtain ⟨c, rest, front, nonzero⟩ := ih (n / 10) (by omega) (by omega)
      exact ⟨c, rest ++ [Nat.digitChar (n % 10)], by rw [front, List.cons_append], nonzero⟩

/-- The digits of a number are read whole. -/
theorem wholePart_toDigits (n : Nat) {rest : List Char} (ends : Ends rest) :
    wholePart (Nat.toDigits 10 n ++ rest) = some (Nat.toDigits 10 n, rest) := by
  rcases Nat.eq_zero_or_pos n with rfl | positive
  · rfl
  · have run := digits_append (fun c => isDigit_of_mem_toDigits (n := n)) ends
    obtain ⟨c, tail, front, nonzero⟩ := toDigits_of_pos positive
    rw [front, List.cons_append] at run ⊢
    rw [wholePart.eq_2 _ fun _ same => nonzero (List.cons.inj same).1]
    simp [someDigits, run]

theorem numberSign_toDigits (n : Nat) (rest : List Char) :
    numberSign (Nat.toDigits 10 n ++ rest) = ([], Nat.toDigits 10 n ++ rest) := by
  obtain ⟨c, tail, front, digit⟩ := toDigits_front n
  rw [front]
  refine numberSign.eq_2 _ fun _ same => ?_
  rw [(List.cons.inj same).1] at digit
  exact absurd digit (by decide)

/-- The text of an integer: digits, with a sign in front of those of a negative one. -/
theorem toList_toString (n : Int) : ∃ m : Nat,
    (n = m ∧ (toString n).toList = Nat.toDigits 10 m) ∨
      (n = -m ∧ (toString n).toList = '-' :: Nat.toDigits 10 m) := by
  cases n with
  | ofNat m => exact ⟨m, .inl ⟨rfl, toList_toString_natCast m⟩⟩
  | negSucc m =>
    refine ⟨m + 1, .inr ⟨rfl, ?_⟩⟩
    have same : toString (Int.negSucc m) = "-" ++ (m + 1).repr := rfl
    rw [same, String.toList_append, Nat.toList_repr]
    rfl

/-- An integer is read to its last digit. -/
theorem numberLiteral_toString (n : Int) {rest : List Char} (ends : Ends rest) :
    numberLiteral ((toString n).toList ++ rest) = some ((toString n).toList, rest) := by
  obtain ⟨m, ⟨-, text⟩ | ⟨-, text⟩⟩ := toList_toString n <;> rw [text]
  · simp [numberLiteral, numberSign_toDigits, wholePart_toDigits m ends, fraction_ends ends,
      exponent_ends ends]
  · simp [numberLiteral, numberSign, wholePart_toDigits m ends, fraction_ends ends, exponent_ends ends]

theorem le_foldl_digits (ds : List Char) (start : Nat) :
    start ≤ ds.foldl (fun n c => n * 10 + (c.toNat - '0'.toNat)) start := by
  induction ds generalizing start with
  | nil => exact le_rfl
  | cons c ds ih => exact le_trans (by omega) (ih (start * 10 + (c.toNat - '0'.toNat)))

/-- Digits are read one by one as long as the number stays within a word. -/
theorem digitsFrom_eq {ds : List Char} (all : ∀ c ∈ ds, isDigit c = true) {start : Nat}
    (fits : ds.foldl (fun n c => n * 10 + (c.toNat - '0'.toNat)) start < 0x10000000000000000) :
    Integer.digitsFrom 10 false start ds =
      .ok (ds.foldl (fun n c => n * 10 + (c.toNat - '0'.toNat)) start) := by
  induction ds generalizing start with
  | nil => rfl
  | cons c ds ih =>
    have digit := all c List.mem_cons_self
    have value : Integer.digitValue? c = some (c.toNat - '0'.toNat) := by
      simp [Integer.digitValue?, digit]
    have low : c.toNat ≤ 57 := by
      simp only [isDigit, Bool.and_eq_true, decide_eq_true_eq] at digit
      exact digit.2
    have below : start * 10 + (c.toNat - '0'.toNat) < 0x10000000000000000 :=
      lt_of_le_of_lt (le_foldl_digits ds _) fits
    have decimal : ¬ 10 ≤ c.toNat - '0'.toNat := by
      have : '0'.toNat = 48 := rfl
      omega
    rw [List.foldl_cons] at fits ⊢
    rw [Integer.digitsFrom, ← ih (fun d member => all d (List.mem_cons_of_mem c member)) fits]
    simp only [Bool.false_and, Bool.false_eq_true, if_false, value, if_neg decimal,
      if_neg (not_le.mpr below)]

theorem digitsFrom_toDigits {n : Nat} (fits : n < 0x10000000000000000) :
    Integer.digitsFrom 10 false 0 (Nat.toDigits 10 n) = .ok n := by
  have value : (Nat.toDigits 10 n).foldl (fun n c => n * 10 + (c.toNat - '0'.toNat)) 0 = n :=
    digitsValue_toDigits n
  rw [digitsFrom_eq (fun c => isDigit_of_mem_toDigits) (by rwa [value]), value]

theorem signOf_toDigits (n : Nat) : Integer.signOf (Nat.toDigits 10 n) = (false, Nat.toDigits 10 n) := by
  obtain ⟨c, tail, front, digit⟩ := toDigits_front n
  rw [front]
  refine Integer.signOf.eq_3 _ (fun _ same => ?_) (fun _ same => ?_)
  all_goals
    rw [(List.cons.inj same).1] at digit
    exact absurd digit (by decide)

theorem fitsWord_iff {n : Int} : fitsWord n = true ↔ wordMin ≤ n ∧ n ≤ wordMax := by
  rw [fitsWord, Bool.and_eq_true, decide_eq_true_eq, decide_eq_true_eq]

/-- An integer of 64 bits is read from its text. -/
theorem parseDecimal_toString {n : Int} (fits : fitsWord n = true) :
    Integer.parseDecimal (toString n) = .ok n := by
  obtain ⟨low, high⟩ := fitsWord_iff.mp fits
  rw [wordMin] at low
  rw [wordMax] at high
  rw [Integer.parseDecimal, Integer.signed]
  obtain ⟨m, ⟨rfl, text⟩ | ⟨rfl, text⟩⟩ := toList_toString n <;> rw [text]
  · simp [signOf_toDigits, digitsFrom_toDigits (n := m) (by omega), fits]
  · simp [Integer.signOf, digitsFrom_toDigits (n := m) (by omega), fits]

end ClasspathAudit.Json
