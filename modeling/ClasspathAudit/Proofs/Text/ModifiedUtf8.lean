import ClasspathAudit.Text.ModifiedUtf8
import Mathlib.Tactic

/-!
Writing a text in modified UTF-8 and reading it gives the text back. The proof goes through the code
units of the text: each unit is read from its own bytes, and the surrogates of a supplementary
character are joined again. Plain bytes, which are taken as they are, make no exception.
-/

namespace ClasspathAudit.Text.ModifiedUtf8

theorem two_byte_lead : ∀ high < 32,
    UInt8.ofNat (0xC0 + high) ≠ 0 ∧ ¬UInt8.ofNat (0xC0 + high) < 0x80 ∧
      UInt8.ofNat (0xC0 + high) &&& 0xE0 = 0xC0 ∧
      (UInt8.ofNat (0xC0 + high) &&& 0x1F).toNat = high := by decide

theorem three_byte_lead : ∀ high < 16,
    UInt8.ofNat (0xE0 + high) ≠ 0 ∧ ¬UInt8.ofNat (0xE0 + high) < 0x80 ∧
      ¬UInt8.ofNat (0xE0 + high) &&& 0xE0 = 0xC0 ∧
      UInt8.ofNat (0xE0 + high) &&& 0xF0 = 0xE0 ∧
      (UInt8.ofNat (0xE0 + high) &&& 0x0F).toNat = high := by decide

theorem continuation_byte : ∀ low < 64,
    isContinuation (UInt8.ofNat (0x80 + low)) = true ∧
      (UInt8.ofNat (0x80 + low) &&& 0x3F).toNat = low := by decide

theorem single_byte : ∀ unit < 128, 0 < unit →
    UInt8.ofNat unit ≠ 0 ∧ UInt8.ofNat unit < 0x80 ∧ (UInt8.ofNat unit).toNat = unit := by decide

theorem units_cons {offset unit width : Nat} {lead : UInt8} {rest : List UInt8}
    (read : group offset (lead :: rest) = .ok (unit, width)) :
    units 0 offset (lead :: rest) = (units (width - 1) (offset + 1) rest).map (unit :: ·) := by
  simp only [units, read, bind, Except.bind]
  cases units (width - 1) (offset + 1) rest <;> rfl

/-- The bytes of a code unit are read as that unit, whatever follows them. -/
theorem units_encodeUnit_append {unit : Nat} (small : unit < 0x10000) (offset : Nat)
    (rest : List UInt8) :
    units 0 offset (encodeUnit unit ++ rest) =
      (units 0 (offset + (encodeUnit unit).length) rest).map (unit :: ·) := by
  unfold encodeUnit
  split
  next narrow =>
    obtain ⟨nonzero, below, value⟩ := single_byte unit narrow.2 narrow.1
    have read : group offset (UInt8.ofNat unit :: rest) = .ok (unit, 1) := by
      simp only [group, if_neg nonzero, if_pos below, value]
    exact units_cons read
  next wide =>
    split
    next twoBytes =>
      obtain ⟨nonzero, above, mark, high⟩ := two_byte_lead (unit / 64) (by omega)
      obtain ⟨continues, low⟩ := continuation_byte (unit % 64) (by omega)
      have value : unit / 64 * 64 + unit % 64 = unit := by omega
      have read : group offset
          (UInt8.ofNat (0xC0 + unit / 64) :: UInt8.ofNat (0x80 + unit % 64) :: rest) =
            .ok (unit, 2) := by
        simp only [group, if_neg nonzero, if_neg above, if_pos mark, if_pos continues, sixBits,
          List.foldl_cons, List.foldl_nil, high, low, value]
      exact units_cons read
    next threeBytes =>
      obtain ⟨nonzero, above, noPair, mark, high⟩ := three_byte_lead (unit / 4096) (by omega)
      obtain ⟨continues, middle⟩ := continuation_byte (unit / 64 % 64) (by omega)
      obtain ⟨continues', low⟩ := continuation_byte (unit % 64) (by omega)
      have value : (unit / 4096 * 64 + unit / 64 % 64) * 64 + unit % 64 = unit := by omega
      have read : group offset (UInt8.ofNat (0xE0 + unit / 4096) ::
          UInt8.ofNat (0x80 + unit / 64 % 64) :: UInt8.ofNat (0x80 + unit % 64) :: rest) =
            .ok (unit, 3) := by
        simp only [group, if_neg nonzero, if_neg above, if_neg noPair, if_pos mark,
          if_pos (And.intro continues continues'), sixBits, List.foldl_cons, List.foldl_nil, high,
          middle, low, value]
      exact units_cons read

/-- The code units of a character: itself, or a pair of surrogates. -/
def charUnits (c : Char) : List Nat :=
  if c.toNat < 0x10000 then [c.toNat]
  else [0xD800 + (c.toNat - 0x10000) / 0x400, 0xDC00 + (c.toNat - 0x10000) % 0x400]

theorem toNat_valid (c : Char) : c.toNat < 0xD800 ∨ 0xDFFF < c.toNat ∧ c.toNat < 0x110000 := c.valid

theorem toNat_lt (c : Char) : c.toNat < 0x110000 := by
  have valid := toNat_valid c
  omega

theorem toNat_not_surrogate (c : Char) : ¬(0xD800 ≤ c.toNat ∧ c.toNat < 0xE000) := by
  have valid := toNat_valid c
  omega

theorem units_encodeChar_append (c : Char) (offset : Nat) (rest : List UInt8) :
    units 0 offset (encodeChar c ++ rest) =
      (units 0 (offset + (encodeChar c).length) rest).map (charUnits c ++ ·) := by
  have bound := toNat_lt c
  by_cases basic : c.toNat < 0x10000
  · simp only [encodeChar, charUnits, if_pos basic]
    exact units_encodeUnit_append basic offset rest
  · simp only [encodeChar, charUnits, if_neg basic]
    rw [List.append_assoc, units_encodeUnit_append (by omega), units_encodeUnit_append (by omega),
      List.length_append, Nat.add_assoc]
    cases units 0 _ rest <;> rfl

theorem units_flatMap_encodeChar (cs : List Char) (offset : Nat) :
    units 0 offset (cs.flatMap encodeChar) = .ok (cs.flatMap charUnits) := by
  induction cs generalizing offset with
  | nil => simp [units]
  | cons c cs ih =>
    rw [List.flatMap_cons, units_encodeChar_append, ih]
    rfl

theorem joinSurrogates_plain {unit : Nat} (plain : ¬(0xD800 ≤ unit ∧ unit < 0xE000))
    (rest : List Nat) : joinSurrogates (unit :: rest) = Char.ofNat unit :: joinSurrogates rest := by
  have noHigh : isHighSurrogate unit = false := by
    simp only [isHighSurrogate, Bool.and_eq_false_imp, decide_eq_true_eq, decide_eq_false_iff_not]
    omega
  have noLow : isLowSurrogate unit = false := by
    simp only [isLowSurrogate, Bool.and_eq_false_imp, decide_eq_true_eq, decide_eq_false_iff_not]
    omega
  cases rest with
  | nil => simp [joinSurrogates, noHigh, noLow]
  | cons next rest => simp [joinSurrogates, noHigh, noLow]

theorem joinSurrogates_pair {index : Nat} (small : index < 0x100000) (rest : List Nat) :
    joinSurrogates ((0xD800 + index / 0x400) :: (0xDC00 + index % 0x400) :: rest) =
      Char.ofNat (0x10000 + index) :: joinSurrogates rest := by
  have high : isHighSurrogate (0xD800 + index / 0x400) = true := by
    simp only [isHighSurrogate, Bool.and_eq_true, decide_eq_true_eq]
    omega
  have low : isLowSurrogate (0xDC00 + index % 0x400) = true := by
    simp only [isLowSurrogate, Bool.and_eq_true, decide_eq_true_eq]
    omega
  have value : 0x10000 + (0xD800 + index / 0x400 - 0xD800) * 0x400 +
      (0xDC00 + index % 0x400 - 0xDC00) = 0x10000 + index := by omega
  rw [joinSurrogates, if_pos high, if_pos low, value]

theorem joinSurrogates_charUnits_append (c : Char) (rest : List Nat) :
    joinSurrogates (charUnits c ++ rest) = c :: joinSurrogates rest := by
  have bound := toNat_lt c
  by_cases basic : c.toNat < 0x10000
  · rw [charUnits, if_pos basic, List.singleton_append,
      joinSurrogates_plain (toNat_not_surrogate c), Char.ofNat_toNat]
  · have value : 0x10000 + (c.toNat - 0x10000) = c.toNat := by omega
    rw [charUnits, if_neg basic, List.cons_append, List.cons_append, List.nil_append,
      joinSurrogates_pair (by omega), value, Char.ofNat_toNat]

theorem joinSurrogates_flatMap_charUnits (cs : List Char) :
    joinSurrogates (cs.flatMap charUnits) = cs := by
  induction cs with
  | nil => rfl
  | cons c cs ih => rw [List.flatMap_cons, joinSurrogates_charUnits_append, ih]

theorem units_plain {bytes : List UInt8} (plain : bytes.all isPlain = true) (offset : Nat) :
    units 0 offset bytes = .ok (bytes.map UInt8.toNat) := by
  induction bytes generalizing offset with
  | nil => rfl
  | cons b bytes ih =>
    obtain ⟨here, others⟩ := Bool.and_eq_true_iff.mp plain
    obtain ⟨nonzero, below⟩ := Bool.and_eq_true_iff.mp here
    have read : group offset (b :: bytes) = .ok (b.toNat, 1) := by
      simp only [group, if_neg (of_decide_eq_true nonzero), if_pos (of_decide_eq_true below)]
    rw [units_cons read, ih others]
    rfl

theorem joinSurrogates_bytes (bytes : List UInt8) :
    joinSurrogates (bytes.map UInt8.toNat) = bytes.map fun b => Char.ofNat b.toNat := by
  induction bytes with
  | nil => rfl
  | cons b bytes ih =>
    have byte := b.toNat_lt
    rw [List.map_cons, joinSurrogates_plain (by omega), ih, List.map_cons]

/-- Plain bytes read group by group are what they are taken for. -/
theorem decode_eq (bytes : List UInt8) :
    decode bytes = (units 0 0 bytes).map fun us => String.ofList (joinSurrogates us) := by
  rw [decode]
  split
  next plain =>
    rw [units_plain plain]
    simp only [Except.map, joinSurrogates_bytes]
  next => rfl

/-- Every text is read back from its bytes. -/
theorem decode_encode_text (s : String) : decode (encode s) = .ok s := by
  rw [decode_eq, encode, units_flatMap_encodeChar]
  simp only [Except.map, joinSurrogates_flatMap_charUnits, String.ofList_toList]

end ClasspathAudit.Text.ModifiedUtf8
