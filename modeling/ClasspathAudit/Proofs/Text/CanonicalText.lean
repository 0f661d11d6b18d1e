import ClasspathAudit.Proofs.Text.CodeGroups

/-!
Which bytes a text is written in. Of the byte sequences that are read as one text, exactly one is
written for it: the one whose code units all stand in their shortest groups and whose surrogates all
have their partners. NUL has two bytes in its shortest group, since no group is a zero byte.
-/

namespace ClasspathAudit.Text.ModifiedUtf8

/-- No group of fewer bytes has the same code unit. -/
def CodeGroup.IsShortest (g : CodeGroup) : Prop :=
  ∀ other : CodeGroup, other.unit = g.unit → g.bytes.length ≤ other.bytes.length

/-- Code units whose surrogates are high ones directly followed by low ones. -/
inductive Paired : List Nat → Prop where
  | nil : Paired []
  | plain {u us} : isHighSurrogate u = false → isLowSurrogate u = false → Paired us → Paired (u :: us)
  | pair {u v us} : isHighSurrogate u = true → isLowSurrogate v = true → Paired us →
      Paired (u :: v :: us)

/-- Bytes in canonical form. -/
def Canonical (bytes : List UInt8) : Prop :=
  ∃ groups : List CodeGroup, bytes = groups.flatMap CodeGroup.bytes ∧
    (∀ g ∈ groups, g.IsShortest) ∧ Paired (groups.map CodeGroup.unit)

/-- The text that code units spell: each character by its own units, and the replacement character
by a surrogate without partner. -/
inductive Spells : List Nat → List Char → Prop where
  | nil : Spells [] []
  | char (c : Char) {us cs} : Spells us cs → Spells (charUnits c ++ us) (c :: cs)
  | loneHigh {u us cs} : isHighSurrogate u = true →
      (∀ v more, us = v :: more → isLowSurrogate v = false) → Spells us cs →
      Spells (u :: us) (replacement :: cs)
  | loneLow {u us cs} : isLowSurrogate u = true → Spells us cs → Spells (u :: us) (replacement :: cs)

theorem isHighSurrogate_iff (u : Nat) : isHighSurrogate u = true ↔ 0xD800 ≤ u ∧ u < 0xDC00 := by
  simp only [isHighSurrogate, Bool.and_eq_true, decide_eq_true_eq]

theorem isLowSurrogate_iff (u : Nat) : isLowSurrogate u = true ↔ 0xDC00 ≤ u ∧ u < 0xE000 := by
  simp only [isLowSurrogate, Bool.and_eq_true, decide_eq_true_eq]

theorem not_surrogate {u : Nat} (noHigh : isHighSurrogate u = false)
    (noLow : isLowSurrogate u = false) : ¬ (0xD800 ≤ u ∧ u < 0xE000) := by
  rw [Bool.eq_false_iff, Ne, isHighSurrogate_iff] at noHigh
  rw [Bool.eq_false_iff, Ne, isLowSurrogate_iff] at noLow
  omega

theorem toNat_ofNat {n : Nat} (valid : n.isValidChar) : (Char.ofNat n).toNat = n := by
  rw [Char.ofNat, dif_pos valid]
  rfl

/-- A unit that is no surrogate is the one unit of its character. -/
theorem charUnits_plain {u : Nat} (small : u < 0x10000) (noHigh : isHighSurrogate u = false)
    (noLow : isLowSurrogate u = false) : charUnits (Char.ofNat u) = [u] := by
  have plain := not_surrogate noHigh noLow
  have value : (Char.ofNat u).toNat = u := toNat_ofNat (by unfold Nat.isValidChar; omega)
  rw [charUnits, value, if_pos small]

/-- Surrogates that are partners are the units of the character they are joined to. -/
theorem charUnits_pair {u v : Nat} (high : isHighSurrogate u = true) (low : isLowSurrogate v = true) :
    charUnits (Char.ofNat (0x10000 + (u - 0xD800) * 0x400 + (v - 0xDC00))) = [u, v] := by
  rw [isHighSurrogate_iff] at high
  rw [isLowSurrogate_iff] at low
  have value := toNat_ofNat (n := 0x10000 + (u - 0xD800) * 0x400 + (v - 0xDC00))
    (by unfold Nat.isValidChar; omega)
  have first : 0xD800 + (0x10000 + (u - 0xD800) * 0x400 + (v - 0xDC00) - 0x10000) / 0x400 = u := by
    omega
  have second : 0xDC00 + (0x10000 + (u - 0xD800) * 0x400 + (v - 0xDC00) - 0x10000) % 0x400 = v := by
    omega
  rw [charUnits, value, if_neg (by omega), first, second]

theorem joinSurrogates_high_low {u v : Nat} (high : isHighSurrogate u = true)
    (low : isLowSurrogate v = true) (us : List Nat) :
    joinSurrogates (u :: v :: us) =
      Char.ofNat (0x10000 + (u - 0xD800) * 0x400 + (v - 0xDC00)) :: joinSurrogates us := by
  rw [joinSurrogates, if_pos high, if_pos low]

/-- A unit that is not joined with the next one spells one character. -/
theorem Spells.alone {u : Nat} {us : List Nat} {cs : List Char} (small : u < 0x10000)
    (unjoined : isHighSurrogate u = true → ∀ v more, us = v :: more → isLowSurrogate v = false)
    (rest : Spells us cs) :
    Spells (u :: us)
      ((if isHighSurrogate u || isLowSurrogate u then replacement else Char.ofNat u) :: cs) := by
  cases high : isHighSurrogate u with
  | true => exact .loneHigh high (unjoined high) rest
  | false =>
    cases low : isLowSurrogate u with
    | true => exact .loneLow low rest
    | false =>
      have spelled := Spells.char (Char.ofNat u) rest
      rwa [charUnits_plain small high low] at spelled

theorem spells_joinSurrogates (us : List Nat) (small : ∀ u ∈ us, u < 0x10000) :
    Spells us (joinSurrogates us) := by
  fun_induction joinSurrogates us with
  | case1 => exact .nil
  | case2 u => exact .alone (small u List.mem_cons_self) (by simp) .nil
  | case3 u v us high low ih =>
    have spelled := Spells.char
      (Char.ofNat (0x10000 + (u - 0xD800) * 0x400 + (v - 0xDC00)))
      (ih fun w inside => small w (List.mem_cons_of_mem _ (List.mem_cons_of_mem _ inside)))
    rwa [charUnits_pair high low] at spelled
  | case4 u v us high noLow ih =>
    refine .loneHigh high ?_ (ih fun w inside => small w (List.mem_cons_of_mem _ inside))
    rintro _ _ ⟨⟩
    exact Bool.eq_false_iff.mpr noLow
  | case5 u v us noHigh ih =>
    have spelled := Spells.alone (small u List.mem_cons_self) (fun high => absurd high noHigh)
      (ih fun w inside => small w (List.mem_cons_of_mem _ inside))
    rwa [Bool.eq_false_iff.mpr noHigh, Bool.false_or] at spelled

/-- Units without lone surrogates are those of the text they are joined to. -/
theorem flatMap_charUnits_joinSurrogates {us : List Nat} (paired : Paired us)
    (small : ∀ u ∈ us, u < 0x10000) : (joinSurrogates us).flatMap charUnits = us := by
  induction paired with
  | nil => rfl
  | plain noHigh noLow _ ih =>
    rw [joinSurrogates_plain (not_surrogate noHigh noLow), List.flatMap_cons,
      charUnits_plain (small _ List.mem_cons_self) noHigh noLow,
      ih fun w inside => small w (List.mem_cons_of_mem _ inside), List.singleton_append]
  | pair high low _ ih =>
    rw [joinSurrogates_high_low high low, List.flatMap_cons, charUnits_pair high low,
      ih fun w inside => small w (List.mem_cons_of_mem _ (List.mem_cons_of_mem _ inside))]
    rfl

/-- The units of a text have no lone surrogates among them. -/
theorem paired_flatMap_charUnits (cs : List Char) : Paired (cs.flatMap charUnits) := by
  induction cs with
  | nil => exact .nil
  | cons c cs ih =>
    have bound := toNat_lt c
    rw [List.flatMap_cons, charUnits]
    split
    · have plain := toNat_not_surrogate c
      refine .plain (Bool.eq_false_iff.mpr fun high => ?_) (Bool.eq_false_iff.mpr fun low => ?_) ih
      · rw [isHighSurrogate_iff] at high
        omega
      · rw [isLowSurrogate_iff] at low
        omega
    · refine .pair ((isHighSurrogate_iff _).mpr ?_) ((isLowSurrogate_iff _).mpr ?_) ih <;> omega

theorem charUnits_lt {c : Char} {u : Nat} (inside : u ∈ charUnits c) : u < 0x10000 := by
  have bound := toNat_lt c
  unfold charUnits at inside
  split at inside
  · rw [List.mem_singleton.mp inside]
    assumption
  · obtain rfl | last := List.mem_cons.mp inside
    · omega
    · rw [List.mem_singleton.mp last]
      omega

theorem encode_eq (s : String) : encode s = (s.toList.flatMap charUnits).flatMap encodeUnit := by
  have each (c : Char) : encodeChar c = (charUnits c).flatMap encodeUnit := by
    unfold encodeChar charUnits
    dsimp only
    split
    · rw [List.flatMap_singleton]
    · rw [List.flatMap_cons, List.flatMap_singleton]
  rw [encode, List.flatMap_assoc]
  exact List.flatMap_congr fun c _ => each c

theorem toNat_byte {n : Nat} (byte : n < 256) : (UInt8.ofNat n).toNat = n :=
  UInt8.toNat_ofNat_of_lt' byte

theorem standsAlone_ofNat {n : Nat} (positive : 0 < n) (few : n < 0x80) :
    StandsAlone (UInt8.ofNat n) := by
  rw [StandsAlone, toNat_byte (by omega)]
  exact ⟨positive, few⟩

theorem leadsTwo_ofNat {high : Nat} (few : high < 32) : LeadsTwo (UInt8.ofNat (0xC0 + high)) := by
  rw [LeadsTwo, toNat_byte (by omega)]
  omega

theorem leadsThree_ofNat {high : Nat} (few : high < 16) :
    LeadsThree (UInt8.ofNat (0xE0 + high)) := by
  rw [LeadsThree, toNat_byte (by omega)]
  omega

theorem isTail_ofNat {low : Nat} (few : low < 64) : IsTail (UInt8.ofNat (0x80 + low)) := by
  rw [IsTail, toNat_byte (by omega)]
  omega

/-- The bytes written for a unit are a group with that unit. -/
theorem exists_group {u : Nat} (small : u < 0x10000) :
    ∃ g : CodeGroup, g.bytes = encodeUnit u ∧ g.unit = u := by
  have low : (UInt8.ofNat (0x80 + u % 64)).toNat = 0x80 + u % 64 := toNat_byte (by omega)
  have lowTail : IsTail (UInt8.ofNat (0x80 + u % 64)) := isTail_ofNat (by omega)
  unfold encodeUnit
  split
  next narrow =>
    exact ⟨.one _ (standsAlone_ofNat narrow.1 narrow.2), rfl, toNat_byte (by omega)⟩
  next =>
    split
    next twoBytes =>
      have high : (UInt8.ofNat (0xC0 + u / 64)).toNat = 0xC0 + u / 64 := toNat_byte (by omega)
      refine ⟨.two _ _ (leadsTwo_ofNat (by omega)) lowTail, rfl, ?_⟩
      exact (CodeGroup.unit_two _ _ _ _).trans (by omega)
    next threeBytes =>
      have high : (UInt8.ofNat (0xE0 + u / 4096)).toNat = 0xE0 + u / 4096 := toNat_byte (by omega)
      have middle : (UInt8.ofNat (0x80 + u / 64 % 64)).toNat = 0x80 + u / 64 % 64 :=
        toNat_byte (by omega)
      refine ⟨.three _ _ _ (leadsThree_ofNat (by omega)) (isTail_ofNat (by omega)) lowTail, rfl, ?_⟩
      exact (CodeGroup.unit_three _ _ _ _ _ _).trans (by omega)

theorem ofNat_eq {n : Nat} {b : UInt8} (value : b.toNat = n) : UInt8.ofNat n = b := by
  rw [← value, UInt8.ofNat_toNat]

/-- A group has no fewer bytes than are written for its unit, and if it has as many, the same. -/
theorem encodeUnit_unit (g : CodeGroup) :
    (encodeUnit g.unit).length ≤ g.bytes.length ∧
      (g.bytes.length ≤ (encodeUnit g.unit).length → g.bytes = encodeUnit g.unit) := by
  cases g with
  | one a plain =>
    have narrow : 0 < a.toNat ∧ a.toNat < 0x80 := plain
    have written : encodeUnit a.toNat = [a] := by
      rw [encodeUnit, if_pos narrow, ofNat_eq rfl]
    rw [CodeGroup.unit_one, CodeGroup.bytes, written]
    exact ⟨le_rfl, fun _ => rfl⟩
  | two a b lead tail =>
    have leadBounds : 0xC0 ≤ a.toNat ∧ a.toNat < 0xE0 := lead
    have tailBounds : 0x80 ≤ b.toNat ∧ b.toNat < 0xC0 := tail
    rw [CodeGroup.unit_two, CodeGroup.bytes]
    generalize value : (a.toNat - 0xC0) * 64 + (b.toNat - 0x80) = u
    unfold encodeUnit
    split
    next => simp
    next =>
      rw [if_pos (by omega), ofNat_eq (b := a) (by omega), ofNat_eq (b := b) (by omega)]
      exact ⟨le_rfl, fun _ => rfl⟩
  | three a b c lead tail tail' =>
    have leadBounds : 0xE0 ≤ a.toNat ∧ a.toNat < 0xF0 := lead
    have tailBounds : 0x80 ≤ b.toNat ∧ b.toNat < 0xC0 := tail
    have tailBounds' : 0x80 ≤ c.toNat ∧ c.toNat < 0xC0 := tail'
    rw [CodeGroup.unit_three, CodeGroup.bytes]
    generalize value : ((a.toNat - 0xE0) * 64 + (b.toNat - 0x80)) * 64 + (c.toNat - 0x80) = u
    unfold encodeUnit
    split
    next => simp
    next =>
      split
      next => simp
      next =>
        rw [ofNat_eq (b := a) (by omega), ofNat_eq (b := b) (by omega),
          ofNat_eq (b := c) (by omega)]
        exact ⟨le_rfl, fun _ => rfl⟩

/-- A group is a shortest one if it is the one that is written. -/
theorem isShortest_iff (g : CodeGroup) : g.IsShortest ↔ g.bytes = encodeUnit g.unit := by
  constructor
  · intro shortest
    obtain ⟨other, written, same⟩ := exists_group g.unit_lt
    have length := shortest other same
    rw [written] at length
    exact (encodeUnit_unit g).2 length
  · intro written other same
    rw [written, ← same]
    exact (encodeUnit_unit other).1

/-- What is written for units without lone surrogates is canonical. -/
theorem canonical_flatMap_encodeUnit {us : List Nat} (small : ∀ u ∈ us, u < 0x10000)
    (paired : Paired us) : Canonical (us.flatMap encodeUnit) := by
  obtain ⟨groups, written, rfl⟩ : ∃ groups : List CodeGroup,
      (∀ g ∈ groups, g.bytes = encodeUnit g.unit) ∧ us = groups.map CodeGroup.unit := by
    clear paired
    induction us with
    | nil => exact ⟨[], by simp, rfl⟩
    | cons u us ih =>
      obtain ⟨g, here, unit⟩ := exists_group (small u List.mem_cons_self)
      obtain ⟨groups, others, rfl⟩ := ih fun v inside => small v (List.mem_cons_of_mem _ inside)
      refine ⟨g :: groups, List.forall_mem_cons.mpr ⟨by rw [here, unit], others⟩, ?_⟩
      rw [List.map_cons, unit]
  refine ⟨groups, ?_, fun g inside => (isShortest_iff g).mpr (written g inside), paired⟩
  rw [List.flatMap_map]
  exact List.flatMap_congr fun g inside => (written g inside).symm

theorem canonical_encode (s : String) : Canonical (encode s) := by
  have small : ∀ u ∈ s.toList.flatMap charUnits, u < 0x10000 := by
    intro u inside
    obtain ⟨c, -, here⟩ := List.mem_flatMap.mp inside
    exact charUnits_lt here
  rw [encode_eq]
  exact canonical_flatMap_encodeUnit small (paired_flatMap_charUnits s.toList)

theorem units_lt (groups : List CodeGroup) : ∀ u ∈ groups.map CodeGroup.unit, u < 0x10000 := by
  intro u inside
  obtain ⟨g, -, rfl⟩ := List.mem_map.mp inside
  exact g.unit_lt

/-- Bytes that fall into groups are read as the text that the units of the groups spell. -/
theorem decode_groups (groups : List CodeGroup) :
    decode (groups.flatMap CodeGroup.bytes) =
      .ok (String.ofList (joinSurrogates (groups.map CodeGroup.unit))) := by
  rw [decode_eq, (units_eq_ok_iff _ _ _).mpr ⟨groups, rfl, rfl⟩]
  rfl

/-- What is canonical is written for the text that is read from it. -/
theorem encode_eq_of_canonical {bytes : List UInt8} {s : String} (read : decode bytes = .ok s)
    (canonical : Canonical bytes) : encode s = bytes := by
  obtain ⟨groups, rfl, shortest, paired⟩ := canonical
  rw [decode_groups] at read
  have text : String.ofList (joinSurrogates (groups.map CodeGroup.unit)) = s := Except.ok.inj read
  rw [encode_eq, ← text, String.toList_ofList,
    flatMap_charUnits_joinSurrogates paired (units_lt groups), List.flatMap_map]
  exact List.flatMap_congr fun g inside => ((isShortest_iff g).mp (shortest g inside)).symm

theorem exists_groups_of_decode {bytes : List UInt8} {s : String} (read : decode bytes = .ok s) :
    ∃ groups : List CodeGroup, bytes = groups.flatMap CodeGroup.bytes := by
  rw [decode_eq] at read
  cases outcome : units 0 0 bytes with
  | ok us =>
    obtain ⟨groups, split, -⟩ := (units_eq_ok_iff _ _ _).mp outcome
    exact ⟨groups, split⟩
  | error fault =>
    rw [outcome] at read
    cases read

theorem decode_eq_error_iff (bytes : List UInt8) :
    (∃ fault, decode bytes = .error fault) ↔
      ∃ (groups : List CodeGroup) (rest : List UInt8),
        bytes = groups.flatMap CodeGroup.bytes ++ rest ∧ Stuck rest := by
  rw [← units_eq_error_iff 0, decode_eq]
  cases units 0 0 bytes <;> simp [Except.map]

/-- Every text is read back from the bytes written for it. Bytes that are read fall into groups whose
units spell the text, and are those written for it if they are in canonical form. Bytes are refused
if there is a zero byte among them, or if a byte behind some groups can begin no group or begins one
that does not go on. -/
theorem decode_exact :
    (∀ s : String, decode (encode s) = .ok s) ∧
    (∀ (bytes : List UInt8) (s : String), decode bytes = .ok s →
      (∃ groups : List CodeGroup, bytes = groups.flatMap CodeGroup.bytes ∧
        Spells (groups.map CodeGroup.unit) s.toList) ∧
      (encode s = bytes ↔ Canonical bytes)) ∧
    (∀ bytes : List UInt8, (∃ fault, decode bytes = .error fault) ↔
      0 ∈ bytes ∨
      (∃ (groups : List CodeGroup) (a : UInt8) (rest : List UInt8),
        bytes = groups.flatMap CodeGroup.bytes ++ a :: rest ∧ ¬ CanStart a) ∨
      (∃ (groups : List CodeGroup) (a : UInt8) (rest : List UInt8),
        bytes = groups.flatMap CodeGroup.bytes ++ a :: rest ∧ Unfinished a rest)) := by
  refine ⟨decode_encode_text, fun bytes s read => ⟨?_, ?_, encode_eq_of_canonical read⟩, ?_⟩
  · obtain ⟨groups, rfl⟩ := exists_groups_of_decode read
    rw [decode_groups] at read
    have text : String.ofList (joinSurrogates (groups.map CodeGroup.unit)) = s := Except.ok.inj read
    refine ⟨groups, rfl, ?_⟩
    rw [← text, String.toList_ofList]
    exact spells_joinSurrogates _ (units_lt groups)
  · rintro rfl
    exact canonical_encode s
  · intro bytes
    rw [decode_eq_error_iff]
    constructor
    · rintro ⟨groups, _, split, a, rest, rfl, noStart | unfinished⟩
      · exact .inr (.inl ⟨groups, a, rest, split, noStart⟩)
      · exact .inr (.inr ⟨groups, a, rest, split, unfinished⟩)
    · rintro (zero | ⟨groups, a, rest, split, noStart⟩ | ⟨groups, a, rest, split, unfinished⟩)
      · exact stuck_of_zero_mem zero
      · exact ⟨groups, a :: rest, split, a, rest, rfl, .inl noStart⟩
      · exact ⟨groups, a :: rest, split, a, rest, rfl, .inr unfinished⟩

/-- An overlong form is read, but it is not the form that is written. -/
example : decode [0xC1, 0x81] = .ok "A" ∧ encode "A" = [0x41] := ⟨by rfl, by rfl⟩

end ClasspathAudit.Text.ModifiedUtf8
