import ClasspathAudit.Text.Utf8
import Mathlib.Tactic

/-!
Texts and their encodings. The order of texts is the order of their bytes: comparing characters by
number and comparing encoded texts byte by byte give the same answer. A text is read back from its
bytes.
-/

namespace ClasspathAudit.Text

/-- Walking over an array collects, behind what was collected before, the bytes from there on. -/
theorem byteArray_collect (bytes : ByteArray) (i : Nat) (collected : List UInt8) :
    ByteArray.toList.loop bytes i collected = collected.reverse ++ bytes.data.toList.drop i := by
  fun_induction ByteArray.toList.loop bytes i collected with
  | case1 i collected inside ih =>
    have bound : i < bytes.data.toList.length := by simpa using inside
    rw [ih, List.drop_eq_getElem_cons bound, List.reverse_cons, List.append_assoc]
    simp [ByteArray.get!, inside]
  | case2 i collected done =>
    have past : bytes.data.toList.length ≤ i := by simpa using Nat.le_of_not_lt done
    rw [List.drop_eq_nil_of_le past, List.append_nil]

/-- A text is encoded character by character. -/
theorem encodeUtf8_eq (s : String) : encodeUtf8 s = s.toList.flatMap String.utf8EncodeChar := by
  have content : s.toUTF8 = s.toList.utf8Encode := String.utf8Encode_toList.symm
  rw [encodeUtf8, content, ByteArray.toList, byteArray_collect]
  simp [List.utf8Encode]

/-- Numbers compare as their digits do, here to the base of six bits. -/
theorem sixBits_lt {m n : Nat} (below : m < n) :
    m / 64 < n / 64 ∨ m / 64 = n / 64 ∧ m % 64 < n % 64 := by
  omega

/-- The encodings of different characters differ in a byte, and the smaller character has the smaller
one there. -/
theorem utf8EncodeChar_append_lt {c d : Char} (below : c < d) (rest rest' : List UInt8) :
    String.utf8EncodeChar c ++ rest < String.utf8EncodeChar d ++ rest' := by
  have order : c.val.toNat < d.val.toNat := below
  have top : d.val.toNat < 0x110000 := by
    have valid := d.valid
    simp only [UInt32.isValidChar, Nat.isValidChar] at valid
    omega
  generalize small : c.val.toNat = m at order
  generalize great : d.val.toNat = n at order top
  have low := sixBits_lt order
  have middle := fun lower : m / 64 < n / 64 => sixBits_lt lower
  have high := fun lower : m / 64 / 64 < n / 64 / 64 => sixBits_lt lower
  simp only [Nat.div_div_eq_div_mul, Nat.reduceMul] at middle high
  simp only [String.utf8EncodeChar, small, great]
  -- One to four bytes on either side; a shorter encoding has the smaller lead byte.
  split <;> [skip; split <;> [skip; split]] <;> (split <;> [skip; split <;> [skip; split]]) <;>
    simp only [List.cons_append, List.nil_append, List.cons_lt_cons_iff, UInt8.lt_iff_toNat_lt,
      ← UInt8.toNat_inj, UInt8.toNat_ofNat'] <;>
    simp (disch := omega) only [Nat.mod_eq_of_lt] <;>
    omega

/-- A text below another one is encoded below it. -/
theorem encodeUtf8_lt {s t : String} (below : s < t) : encodeUtf8 s < encodeUtf8 t := by
  have order : s.toList < t.toList := below
  rw [encodeUtf8_eq, encodeUtf8_eq]
  generalize s.toList = cs at order
  generalize t.toList = ds at order
  induction cs generalizing ds with
  | nil =>
    cases ds with
    | nil => exact absurd order (List.not_lt_nil _)
    | cons d ds =>
      rw [List.flatMap_nil, List.flatMap_cons]
      cases encoded : String.utf8EncodeChar d with
      | nil =>
        have size := String.length_utf8EncodeChar d
        have positive := d.utf8Size_pos
        rw [encoded, List.length_nil] at size
        omega
      | cons first others => exact List.nil_lt_cons first _
  | cons c cs ih =>
    cases ds with
    | nil => exact absurd order (List.not_lt_nil _)
    | cons d ds =>
      rw [List.flatMap_cons, List.flatMap_cons]
      rcases List.cons_lt_cons_iff.mp order with smaller | ⟨rfl, rest⟩
      · exact utf8EncodeChar_append_lt smaller _ _
      · exact List.append_left_lt (ih ds rest)

theorem utf8_single : ∀ n < 128, UInt8.ofNat n < 0x80 ∧ (UInt8.ofNat n).toNat = n := by decide

theorem utf8_tail : ∀ low < 64, isContinuation (UInt8.ofNat (low + 128)) = true ∧
    (UInt8.ofNat (low + 128) &&& 0x3F).toNat = low := by decide

theorem utf8_lead_two : ∀ high < 32, 2 ≤ high →
    ¬ UInt8.ofNat (high + 192) < 0x80 ∧
      (0xC2 ≤ UInt8.ofNat (high + 192) ∧ UInt8.ofNat (high + 192) ≤ 0xDF) ∧
      (UInt8.ofNat (high + 192) &&& 0x1F).toNat = high := by decide

theorem utf8_lead_three : ∀ high < 16,
    ¬ UInt8.ofNat (high + 224) < 0x80 ∧
      ¬ (0xC2 ≤ UInt8.ofNat (high + 224) ∧ UInt8.ofNat (high + 224) ≤ 0xDF) ∧
      (0xE0 ≤ UInt8.ofNat (high + 224) ∧ UInt8.ofNat (high + 224) ≤ 0xEF) ∧
      (UInt8.ofNat (high + 224) &&& 0x0F).toNat = high := by decide

theorem utf8_lead_four : ∀ high < 5,
    ¬ UInt8.ofNat (high + 240) < 0x80 ∧
      ¬ (0xC2 ≤ UInt8.ofNat (high + 240) ∧ UInt8.ofNat (high + 240) ≤ 0xDF) ∧
      ¬ (0xE0 ≤ UInt8.ofNat (high + 240) ∧ UInt8.ofNat (high + 240) ≤ 0xEF) ∧
      (0xF0 ≤ UInt8.ofNat (high + 240) ∧ UInt8.ofNat (high + 240) ≤ 0xF4) ∧
      (UInt8.ofNat (high + 240) &&& 0x07).toNat = high := by decide

/-- The first character is read from its own bytes, whatever follows them. -/
theorem decodeFirst_encoding (c : Char) (rest : List UInt8) :
    ∃ lead more, String.utf8EncodeChar c = lead :: more ∧
      decodeFirst lead (more ++ rest) = some (c, more.length) := by
  have valid := c.valid
  simp only [UInt32.isValidChar, Nat.isValidChar] at valid
  have back : Char.ofNat c.val.toNat = c := Char.ofNat_toNat c
  generalize number : c.val.toNat = n at valid back
  simp only [String.utf8EncodeChar, number]
  split
  next one =>
    obtain ⟨small, value⟩ := utf8_single n (by omega)
    refine ⟨_, [], rfl, ?_⟩
    simp only [decodeFirst, if_pos small, value, back, List.length_nil]
  next beyond =>
    split
    next two =>
      obtain ⟨large, lead, high⟩ := utf8_lead_two (n / 64 % 32) (by omega) (by omega)
      obtain ⟨continues, low⟩ := utf8_tail (n % 64) (by omega)
      have value : n / 64 % 32 * 64 + n % 64 = n := by omega
      refine ⟨_, [_], rfl, ?_⟩
      simp only [decodeFirst, if_neg large, if_pos lead, List.cons_append, if_pos continues, sixBits,
        List.foldl_cons, List.foldl_nil, high, low, value, back, List.length_singleton]
    next beyond' =>
      split
      next three =>
        obtain ⟨large, noTwo, lead, high⟩ := utf8_lead_three (n / 4096 % 16) (by omega)
        obtain ⟨continues, middle⟩ := utf8_tail (n / 64 % 64) (by omega)
        obtain ⟨continues', low⟩ := utf8_tail (n % 64) (by omega)
        have value : (n / 4096 % 16 * 64 + n / 64 % 64) * 64 + n % 64 = n := by omega
        have fits : 0x800 ≤ n ∧ ¬ (0xD800 ≤ n ∧ n ≤ 0xDFFF) := by omega
        refine ⟨_, [_, _], rfl, ?_⟩
        simp only [decodeFirst, if_neg large, if_neg noTwo, if_pos lead, List.cons_append, sixBits,
          List.foldl_cons, List.foldl_nil, high, middle, low, value]
        rw [if_pos ⟨continues, continues', fits⟩, back]
        rfl
      next four =>
        obtain ⟨large, noTwo, noThree, lead, high⟩ := utf8_lead_four (n / 262144 % 8) (by omega)
        obtain ⟨continues, upper⟩ := utf8_tail (n / 4096 % 64) (by omega)
        obtain ⟨continues', middle⟩ := utf8_tail (n / 64 % 64) (by omega)
        obtain ⟨continues'', low⟩ := utf8_tail (n % 64) (by omega)
        have value : ((n / 262144 % 8 * 64 + n / 4096 % 64) * 64 + n / 64 % 64) * 64 + n % 64 = n := by
          omega
        have fits : 0x10000 ≤ n ∧ n ≤ 0x10FFFF := by omega
        refine ⟨_, [_, _, _], rfl, ?_⟩
        simp only [decodeFirst, if_neg large, if_neg noTwo, if_neg noThree, if_pos lead,
          List.cons_append, sixBits, List.foldl_cons, List.foldl_nil, high, upper, middle, low, value]
        rw [if_pos ⟨continues, continues', continues'', fits⟩, back]
        rfl

theorem decodeUtf8Chars_skip (skipped rest : List UInt8) :
    decodeUtf8Chars skipped.length (skipped ++ rest) = decodeUtf8Chars 0 rest := by
  induction skipped with
  | nil => rfl
  | cons b skipped ih => exact ih

theorem decodeUtf8Chars_encoding (cs : List Char) :
    decodeUtf8Chars 0 (cs.flatMap String.utf8EncodeChar) = cs := by
  induction cs with
  | nil => rfl
  | cons c cs ih =>
    obtain ⟨lead, more, encoded, first⟩ :=
      decodeFirst_encoding c (cs.flatMap String.utf8EncodeChar)
    rw [List.flatMap_cons, encoded, List.cons_append, decodeUtf8Chars]
    simp only [first]
    rw [decodeUtf8Chars_skip, ih]

/-- Every text is read back from its bytes. -/
theorem decodeUtf8_encodeUtf8 (s : String) : decodeUtf8 (encodeUtf8 s) = s := by
  rw [decodeUtf8, encodeUtf8_eq, decodeUtf8Chars_encoding, String.ofList_toList]

end ClasspathAudit.Text
