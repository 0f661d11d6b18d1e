import ClasspathAudit.Proofs.Text.ModifiedUtf8

/-!
Groups of bytes in modified UTF-8. A byte sequence is read if it falls into groups of one to three
bytes, and then the code units are those of the groups; it is refused exactly where the bytes behind
some groups begin no group.
-/

namespace ClasspathAudit.Text.ModifiedUtf8

/-- A byte that goes on with a group. -/
def IsTail (b : UInt8) : Prop := 0x80 ≤ b.toNat ∧ b.toNat < 0xC0

/-- A byte that announces one more byte. -/
def LeadsTwo (a : UInt8) : Prop := 0xC0 ≤ a.toNat ∧ a.toNat < 0xE0

/-- A byte that announces two more bytes. -/
def LeadsThree (a : UInt8) : Prop := 0xE0 ≤ a.toNat ∧ a.toNat < 0xF0

/-- A byte that is a group of its own, which a zero byte is not. -/
def StandsAlone (a : UInt8) : Prop := 0 < a.toNat ∧ a.toNat < 0x80

/-- The bytes of one code unit, in its shortest form or in a longer one. -/
inductive CodeGroup where
  | one (a : UInt8) (plain : StandsAlone a)
  | two (a b : UInt8) (lead : LeadsTwo a) (tail : IsTail b)
  | three (a b c : UInt8) (lead : LeadsThree a) (tail : IsTail b) (tail' : IsTail c)

namespace CodeGroup

def bytes : CodeGroup → List UInt8
  | one a _ => [a]
  | two a b _ _ => [a, b]
  | three a b c _ _ _ => [a, b, c]

/-- The number that the bits of the group make up. -/
def unit : CodeGroup → Nat
  | one a _ => a.toNat
  | two a b _ _ => (a.toNat - 0xC0) * 64 + (b.toNat - 0x80)
  | three a b c _ _ _ => ((a.toNat - 0xE0) * 64 + (b.toNat - 0x80)) * 64 + (c.toNat - 0x80)

theorem unit_one (a : UInt8) (plain : StandsAlone a) : (one a plain).unit = a.toNat := rfl

theorem unit_two (a b : UInt8) (lead : LeadsTwo a) (tail : IsTail b) :
    (two a b lead tail).unit = (a.toNat - 0xC0) * 64 + (b.toNat - 0x80) := rfl

theorem unit_three (a b c : UInt8) (lead : LeadsThree a) (tail : IsTail b) (tail' : IsTail c) :
    (three a b c lead tail tail').unit =
      ((a.toNat - 0xE0) * 64 + (b.toNat - 0x80)) * 64 + (c.toNat - 0x80) := rfl

theorem unit_lt (g : CodeGroup) : g.unit < 0x10000 := by
  cases g with
  | one a plain =>
    have below : a.toNat < 0x80 := plain.2
    have value := unit_one a plain
    omega
  | two a b lead tail =>
    have below : a.toNat < 0xE0 := lead.2
    have below' : b.toNat < 0xC0 := tail.2
    have value := unit_two a b lead tail
    omega
  | three a b c lead tail tail' =>
    have below : a.toNat < 0xF0 := lead.2
    have below' : b.toNat < 0xC0 := tail.2
    have below'' : c.toNat < 0xC0 := tail'.2
    have value := unit_three a b c lead tail tail'
    omega

theorem zero_not_mem_bytes (g : CodeGroup) : 0 ∉ g.bytes := by
  have positive : ∀ a : UInt8, 0 < a.toNat → 0 ≠ a := by
    rintro a filled rfl
    cases filled
  cases g with
  | one a plain => simpa [bytes] using positive a plain.1
  | two a b lead tail =>
    have first := positive a (Nat.lt_of_lt_of_le (by decide) lead.1)
    have second := positive b (Nat.lt_of_lt_of_le (by decide) tail.1)
    simp [bytes, first, second]
  | three a b c lead tail tail' =>
    have first := positive a (Nat.lt_of_lt_of_le (by decide) lead.1)
    have second := positive b (Nat.lt_of_lt_of_le (by decide) tail.1)
    have third := positive c (Nat.lt_of_lt_of_le (by decide) tail'.1)
    simp [bytes, first, second, third]

end CodeGroup

/-- What is said of the bytes below 256 holds of all bytes. -/
theorem forall_byte {p : UInt8 → Prop} (each : ∀ n < 256, p (UInt8.ofNat n)) (b : UInt8) : p b := by
  have here := each b.toNat b.toNat_lt
  rwa [UInt8.ofNat_toNat] at here

theorem leadsTwo_iff (a : UInt8) : a &&& 0xE0 = 0xC0 ↔ LeadsTwo a :=
  forall_byte (p := fun a => a &&& 0xE0 = 0xC0 ↔ 0xC0 ≤ a.toNat ∧ a.toNat < 0xE0) (by decide +kernel) a

theorem leadsThree_iff (a : UInt8) : a &&& 0xF0 = 0xE0 ↔ LeadsThree a :=
  forall_byte (p := fun a => a &&& 0xF0 = 0xE0 ↔ 0xE0 ≤ a.toNat ∧ a.toNat < 0xF0) (by decide +kernel) a

theorem isContinuation_iff (b : UInt8) : isContinuation b = true ↔ IsTail b :=
  forall_byte (p := fun b => isContinuation b = true ↔ 0x80 ≤ b.toNat ∧ b.toNat < 0xC0)
    (by decide +kernel) b

theorem tail_bits (b : UInt8) (tail : IsTail b) : (b &&& 0x3F).toNat = b.toNat - 0x80 :=
  forall_byte (p := fun b => 0x80 ≤ b.toNat ∧ b.toNat < 0xC0 → (b &&& 0x3F).toNat = b.toNat - 0x80)
    (by decide +kernel) b tail

/-- A byte that can begin a group. -/
def CanStart (a : UInt8) : Prop := StandsAlone a ∨ LeadsTwo a ∨ LeadsThree a

/-- A group whose first byte is followed by too few bytes that go on with it. -/
inductive Unfinished : UInt8 → List UInt8 → Prop where
  | two {a rest} : LeadsTwo a → (∀ b more, rest = b :: more → ¬ IsTail b) → Unfinished a rest
  | three {a rest} : LeadsThree a → (∀ b c more, rest = b :: c :: more → ¬ (IsTail b ∧ IsTail c)) →
      Unfinished a rest

theorem sixBits_two {a b : UInt8} (lead : LeadsTwo a) (tail : IsTail b) :
    sixBits 0x1F a [b] = (CodeGroup.two a b lead tail).unit := by
  have high : (a &&& 0x1F).toNat = a.toNat - 0xC0 :=
    forall_byte (p := fun a => 0xC0 ≤ a.toNat ∧ a.toNat < 0xE0 →
      (a &&& 0x1F).toNat = a.toNat - 0xC0) (by decide +kernel) a lead
  have low : (b &&& 0x3F).toNat = b.toNat - 0x80 := tail_bits b tail
  calc sixBits 0x1F a [b]
      = (a &&& 0x1F).toNat * 64 + (b &&& 0x3F).toNat := rfl
    _ = (a.toNat - 0xC0) * 64 + (b.toNat - 0x80) := by omega

theorem sixBits_three {a b c : UInt8} (lead : LeadsThree a) (tail : IsTail b) (tail' : IsTail c) :
    sixBits 0x0F a [b, c] = (CodeGroup.three a b c lead tail tail').unit := by
  have high : (a &&& 0x0F).toNat = a.toNat - 0xE0 :=
    forall_byte (p := fun a => 0xE0 ≤ a.toNat ∧ a.toNat < 0xF0 →
      (a &&& 0x0F).toNat = a.toNat - 0xE0) (by decide +kernel) a lead
  have middle : (b &&& 0x3F).toNat = b.toNat - 0x80 := tail_bits b tail
  have low : (c &&& 0x3F).toNat = c.toNat - 0x80 := tail_bits c tail'
  calc sixBits 0x0F a [b, c]
      = ((a &&& 0x0F).toNat * 64 + (b &&& 0x3F).toNat) * 64 + (c &&& 0x3F).toNat := rfl
    _ = ((a.toNat - 0xE0) * 64 + (b.toNat - 0x80)) * 64 + (c.toNat - 0x80) := by omega

theorem not_plain {a : UInt8} (high : 0x80 ≤ a.toNat) : ¬ a = 0 ∧ ¬ a < 0x80 := by
  refine ⟨fun zero => ?_, fun below => ?_⟩
  · rw [zero] at high
    exact absurd high (by decide)
  · exact absurd (UInt8.lt_iff_toNat_lt.mp below) (not_lt.mpr high)

theorem group_of_leadsTwo {a : UInt8} (lead : LeadsTwo a) (offset : Nat) (rest : List UInt8) :
    group offset (a :: rest) =
      match rest with
      | b :: _ => if isContinuation b then .ok (sixBits 0x1F a [b], 2) else .error (.twoByte offset)
      | [] => .error (.twoByte offset) := by
  obtain ⟨nonzero, above⟩ := not_plain (Nat.le_trans (by decide) lead.1)
  cases rest <;>
    simp only [group, if_neg nonzero, if_neg above, if_pos ((leadsTwo_iff a).mpr lead)]

theorem group_of_leadsThree {a : UInt8} (lead : LeadsThree a) (offset : Nat) (rest : List UInt8) :
    group offset (a :: rest) =
      match rest with
      | b :: c :: _ =>
        if isContinuation b ∧ isContinuation c then .ok (sixBits 0x0F a [b, c], 3)
        else .error (.threeByte offset)
      | _ => .error (.threeByte offset) := by
  obtain ⟨nonzero, above⟩ := not_plain (Nat.le_trans (by decide) lead.1)
  have noTwo : ¬ a &&& 0xE0 = 0xC0 := fun mark =>
    absurd ((leadsTwo_iff a).mp mark).2 (not_lt.mpr lead.1)
  have mark := (leadsThree_iff a).mpr lead
  match rest with
  | [] => simp only [group, if_neg nonzero, if_neg above, if_neg noTwo, if_pos mark]
  | [b] => simp only [group, if_neg nonzero, if_neg above, if_neg noTwo, if_pos mark]
  | b :: c :: more => simp only [group, if_neg nonzero, if_neg above, if_neg noTwo, if_pos mark]

/-- A group is read as its unit, whatever follows it. -/
theorem group_bytes_append (g : CodeGroup) (offset : Nat) (rest : List UInt8) :
    group offset (g.bytes ++ rest) = .ok (g.unit, g.bytes.length) := by
  cases g with
  | one a plain =>
    have nonzero : ¬ a = 0 := fun zero => absurd plain.1 (by rw [zero]; decide)
    have below : a < 0x80 := UInt8.lt_iff_toNat_lt.mpr plain.2
    change group offset (a :: rest) = .ok (a.toNat, 1)
    simp only [group, if_neg nonzero, if_pos below]
  | two a b lead tail =>
    change group offset (a :: b :: rest) = .ok ((CodeGroup.two a b lead tail).unit, 2)
    simp only [group_of_leadsTwo lead, if_pos ((isContinuation_iff b).mpr tail),
      sixBits_two lead tail]
  | three a b c lead tail tail' =>
    have continues := And.intro ((isContinuation_iff b).mpr tail) ((isContinuation_iff c).mpr tail')
    change group offset (a :: b :: c :: rest) = .ok ((CodeGroup.three a b c lead tail tail').unit, 3)
    simp only [group_of_leadsThree lead, if_pos continues, sixBits_three lead tail tail']

/-- Bytes that begin no group. -/
def Stuck (bytes : List UInt8) : Prop :=
  ∃ a rest, bytes = a :: rest ∧ (¬ CanStart a ∨ Unfinished a rest)

theorem group_or_stuck (a : UInt8) (rest : List UInt8) :
    (∃ (g : CodeGroup) (more : List UInt8), a :: rest = g.bytes ++ more) ∨ Stuck (a :: rest) := by
  by_cases start : CanStart a
  · obtain plain | lead | lead := start
    · exact .inl ⟨.one a plain, rest, rfl⟩
    · by_cases tail : ∃ b more, rest = b :: more ∧ IsTail b
      · obtain ⟨b, more, rfl, tail⟩ := tail
        exact .inl ⟨.two a b lead tail, more, rfl⟩
      · exact .inr ⟨a, rest, rfl, .inr (.two lead fun b more is_rest other =>
          tail ⟨b, more, is_rest, other⟩)⟩
    · by_cases tails : ∃ b c more, rest = b :: c :: more ∧ IsTail b ∧ IsTail c
      · obtain ⟨b, c, more, rfl, tail, tail'⟩ := tails
        exact .inl ⟨.three a b c lead tail tail', more, rfl⟩
      · exact .inr ⟨a, rest, rfl, .inr (.three lead fun b c more is_rest others =>
          tails ⟨b, c, more, is_rest, others⟩)⟩
  · exact .inr ⟨a, rest, rfl, .inl start⟩

theorem group_of_not_canStart {a : UInt8} (noStart : ¬ CanStart a) (offset : Nat)
    (rest : List UInt8) : ∃ fault, group offset (a :: rest) = .error fault := by
  by_cases zero : a = 0
  · exact ⟨.nul offset, by simp only [group, if_pos zero]⟩
  · have above : ¬ a < 0x80 := fun below =>
      noStart (.inl ⟨Nat.pos_of_ne_zero fun none => zero (UInt8.toNat_inj.mp none),
        UInt8.lt_iff_toNat_lt.mp below⟩)
    have noTwo : ¬ a &&& 0xE0 = 0xC0 := fun mark =>
      noStart (.inr (.inl ((leadsTwo_iff a).mp mark)))
    have noThree : ¬ a &&& 0xF0 = 0xE0 := fun mark =>
      noStart (.inr (.inr ((leadsThree_iff a).mp mark)))
    exact ⟨.lead a offset,
      by simp only [group, if_neg zero, if_neg above, if_neg noTwo, if_neg noThree]⟩

theorem group_of_unfinished {a : UInt8} {rest : List UInt8} (unfinished : Unfinished a rest)
    (offset : Nat) : ∃ fault, group offset (a :: rest) = .error fault := by
  cases unfinished with
  | two lead wrong =>
    refine ⟨.twoByte offset, ?_⟩
    rw [group_of_leadsTwo lead]
    split
    next b more =>
      exact if_neg fun continues => wrong b more rfl ((isContinuation_iff b).mp continues)
    next => rfl
  | three lead wrong =>
    refine ⟨.threeByte offset, ?_⟩
    rw [group_of_leadsThree lead]
    split
    next b c more =>
      refine if_neg fun continues => wrong b c more rfl ?_
      exact ⟨(isContinuation_iff b).mp continues.1, (isContinuation_iff c).mp continues.2⟩
    next => rfl

/-- Where no group begins, none is read. -/
theorem group_stuck {bytes : List UInt8} (stuck : Stuck bytes) (offset : Nat) :
    ∃ fault, group offset bytes = .error fault := by
  obtain ⟨a, rest, rfl, noStart | unfinished⟩ := stuck
  · exact group_of_not_canStart noStart offset rest
  · exact group_of_unfinished unfinished offset

theorem units_skip (skipped rest : List UInt8) (offset : Nat) :
    units skipped.length offset (skipped ++ rest) = units 0 (offset + skipped.length) rest := by
  induction skipped generalizing offset with
  | nil => rfl
  | cons b skipped ih =>
    have count : offset + (b :: skipped).length = offset + 1 + skipped.length := by
      rw [List.length_cons]
      omega
    rw [count, ← ih (offset + 1)]
    rfl

theorem units_bytes_append (g : CodeGroup) (offset : Nat) (rest : List UInt8) :
    units 0 offset (g.bytes ++ rest) =
      (units 0 (offset + g.bytes.length) rest).map (g.unit :: ·) := by
  have read := group_bytes_append g offset rest
  obtain ⟨a, others, bytes_eq⟩ : ∃ a others, g.bytes = a :: others := by
    cases g <;> exact ⟨_, _, rfl⟩
  have count : offset + g.bytes.length = offset + 1 + others.length := by
    rw [bytes_eq, List.length_cons]
    omega
  rw [count, ← units_skip]
  rw [bytes_eq] at read ⊢
  exact units_cons read

theorem units_groups_append (groups : List CodeGroup) (offset : Nat) (rest : List UInt8) :
    units 0 offset (groups.flatMap CodeGroup.bytes ++ rest) =
      (units 0 (offset + (groups.flatMap CodeGroup.bytes).length) rest).map
        (groups.map CodeGroup.unit ++ ·) := by
  induction groups generalizing offset with
  | nil =>
    change units 0 offset rest = (units 0 offset rest).map ([] ++ ·)
    cases units 0 offset rest <;> rfl
  | cons g groups ih =>
    rw [List.flatMap_cons, List.append_assoc, units_bytes_append, ih, List.length_append,
      Nat.add_assoc]
    cases units 0 _ rest <;> rfl

theorem units_stuck {bytes : List UInt8} (stuck : Stuck bytes) (offset : Nat) :
    ∃ fault, units 0 offset bytes = .error fault := by
  obtain ⟨fault, refused⟩ := group_stuck stuck offset
  obtain ⟨a, rest, rfl, -⟩ := stuck
  refine ⟨fault, ?_⟩
  simp only [units, refused, bind, Except.bind]

/-- The bytes fall into groups as far as they go, or up to where none begins. -/
theorem groups_then_stuck (bytes : List UInt8) :
    ∃ (groups : List CodeGroup) (rest : List UInt8),
      bytes = groups.flatMap CodeGroup.bytes ++ rest ∧ (rest = [] ∨ Stuck rest) := by
  induction count : bytes.length using Nat.strong_induction_on generalizing bytes with
  | _ n ih =>
    cases bytes with
    | nil => exact ⟨[], [], rfl, .inl rfl⟩
    | cons a rest =>
      obtain ⟨g, more, split⟩ | stuck := group_or_stuck a rest
      · have filled : 0 < g.bytes.length := by cases g <;> exact Nat.succ_pos _
        have shorter : more.length < n := by
          rw [← count, split, List.length_append]
          omega
        obtain ⟨groups, left, here, ending⟩ := ih more.length shorter more rfl
        refine ⟨g :: groups, left, ?_, ending⟩
        rw [split, here, List.flatMap_cons, List.append_assoc]
      · exact ⟨[], a :: rest, rfl, .inr stuck⟩

theorem units_eq_ok_iff (offset : Nat) (bytes : List UInt8) (us : List Nat) :
    units 0 offset bytes = .ok us ↔
      ∃ groups : List CodeGroup,
        bytes = groups.flatMap CodeGroup.bytes ∧ us = groups.map CodeGroup.unit := by
  have reads (groups : List CodeGroup) :
      units 0 offset (groups.flatMap CodeGroup.bytes) = .ok (groups.map CodeGroup.unit) := by
    have whole := units_groups_append groups offset []
    rw [List.append_nil] at whole
    rw [whole]
    simp only [units, Except.map, List.append_nil]
  constructor
  · intro read
    obtain ⟨groups, rest, rfl, rfl | stuck⟩ := groups_then_stuck bytes
    · rw [List.append_nil] at read ⊢
      rw [reads groups] at read
      exact ⟨groups, rfl, (Except.ok.inj read).symm⟩
    · obtain ⟨fault, refused⟩ := units_stuck stuck (offset + (groups.flatMap CodeGroup.bytes).length)
      rw [units_groups_append, refused] at read
      cases read
  · rintro ⟨groups, rfl, rfl⟩
    exact reads groups

theorem units_eq_error_iff (offset : Nat) (bytes : List UInt8) :
    (∃ fault, units 0 offset bytes = .error fault) ↔
      ∃ (groups : List CodeGroup) (rest : List UInt8),
        bytes = groups.flatMap CodeGroup.bytes ++ rest ∧ Stuck rest := by
  constructor
  · rintro ⟨fault, refused⟩
    obtain ⟨groups, rest, rfl, rfl | stuck⟩ := groups_then_stuck bytes
    · rw [List.append_nil] at refused
      rw [(units_eq_ok_iff _ _ _).mpr ⟨groups, rfl, rfl⟩] at refused
      cases refused
    · exact ⟨groups, rest, rfl, stuck⟩
  · rintro ⟨groups, rest, rfl, stuck⟩
    obtain ⟨fault, refused⟩ := units_stuck stuck (offset + (groups.flatMap CodeGroup.bytes).length)
    exact ⟨fault, by rw [units_groups_append, refused]; rfl⟩

/-- A zero byte stands in no group. -/
theorem stuck_of_zero_mem {bytes : List UInt8} (zero : 0 ∈ bytes) :
    ∃ (groups : List CodeGroup) (rest : List UInt8),
      bytes = groups.flatMap CodeGroup.bytes ++ rest ∧ Stuck rest := by
  obtain ⟨groups, rest, rfl, rfl | stuck⟩ := groups_then_stuck bytes
  · rw [List.append_nil] at zero
    obtain ⟨g, -, inside⟩ := List.mem_flatMap.mp zero
    exact absurd inside g.zero_not_mem_bytes
  · exact ⟨groups, rest, rfl, stuck⟩

end ClasspathAudit.Text.ModifiedUtf8
