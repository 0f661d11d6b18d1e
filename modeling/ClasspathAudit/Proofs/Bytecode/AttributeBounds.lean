import ClasspathAudit.Proofs.Bytecode.PrefixFreedom

/-!
Attributes and the length they declare. The body of an attribute is read on a stretch of its own, and a
read past the end of it is noticed when the body is done, for every attribute but one: a default value
that is an enum constant ends without a last look, so its name may be cut off.
-/

namespace ClasspathAudit

namespace Bytecode

open Scan

variable {α β : Type} {pool : ConstantPool}

/-- An index that was read past the end is zero, which no entry of a pool has. -/
theorem u2_of_ne_zero {s s' : Reading} {index : Nat} (run : u2.run.run s = (.ok index, s'))
    (used : index ≠ 0) :
    s.cursor.failure = none ∧ s'.cursor.failure = none ∧
      ∃ high low, s.cursor.rest = high :: low :: s'.cursor.rest := by
  rw [show u2.run.run s = (.ok (s.cursor.unsigned 2).1,
    { s with cursor := (s.cursor.unsigned 2).2 }) from rfl] at run
  obtain ⟨value, rfl⟩ := Prod.mk.inj run
  have met : s.cursor.failure = none ∧ 2 ≤ s.cursor.rest.length := by
    by_contra unmet
    rw [Cursor.unsigned_eq_zero unmet] at value
    cases value
    exact used rfl
  obtain ⟨fresh, fits⟩ := met
  simp only [Cursor.unsigned, Cursor.bytes, fresh, fits, Option.isNone_none, and_self, if_true,
    true_and]
  obtain ⟨high, low, two⟩ := List.length_eq_two.mp (List.length_take_of_le fits)
  have split := List.take_append_drop 2 s.cursor.rest
  rw [two] at split
  exact ⟨high, low, split.symm⟩

theorem u1_of_unmarked {s s' : Reading} {tag : UInt8} (run : u1.run.run s = (.ok tag, s'))
    (unmarked : s'.cursor.failure = none) : s.cursor.rest = tag :: s'.cursor.rest := by
  obtain ⟨n, s₁, read, ended⟩ := run_bind_eq_ok run
  cases ended
  rw [run_read] at read
  obtain ⟨value, rfl⟩ := Prod.mk.inj read
  obtain ⟨fresh, fits⟩ := Cursor.bytes_of_sound unmarked
  cases value
  simp only [Cursor.unsigned, Cursor.bytes, fresh, fits, Option.isNone_none, and_self, if_true]
  obtain ⟨byte, rest, front⟩ := List.exists_cons_of_length_pos fits
  simp [front, Cursor.number]

namespace Scan

/-- Ending well, an action has left the cursor where it was. -/
def Stays (act : Scan α) : Prop := ∀ s s' a, act.run.run s = (.ok a, s') → s'.cursor = s.cursor

theorem Stays.of_blind (act : Scan α) [Blind act] : Stays act := by
  intro s s' a run
  have stays := Blind.cursor_eq act s
  rwa [run] at stays

/-- A text that an index points to, used without moving on: the index was there. -/
theorem checked_text (use : String → Scan Unit) [∀ value, Blind (use value)] :
    Checked (do
      let index ← u2
      use (← pool.utf8 index)) := by
  intro s s' a run
  obtain ⟨index, s₁, indexRun, run⟩ := run_bind_eq_ok run
  obtain ⟨value, s₂, found, run⟩ := run_bind_eq_ok run
  rw [run_lift] at found
  obtain ⟨entry, rfl⟩ := Prod.mk.inj found
  rw [Stays.of_blind (use value) s₁ s' a run]
  exact (u2_of_ne_zero indexRun (ConstantPool.utf8_ne_zero entry)).2.1

end Scan

namespace Attribute

/-- A default value that names an enum constant, the index of its name being cut off. -/
def CutEnum (content : List UInt8) : Prop :=
  ∃ high low rest, content = 101 :: high :: low :: rest ∧ rest.length < 2

instance (content : List UInt8) : Decidable (CutEnum content) :=
  decidable_of_iff (content.head? = some 101 ∧ 3 ≤ content.length ∧ content.length < 5) <| by
    unfold CutEnum
    match content with
    | [] | [_] | [_, _] => simp
    | tag :: high :: low :: rest => simp; omega

theorem cutEnum_cons_iff {tag high low : UInt8} {rest : List UInt8} :
    CutEnum (tag :: high :: low :: rest) ↔ tag = 101 ∧ rest.length < 2 := by
  constructor
  · rintro ⟨_, _, _, ⟨⟩, short⟩
    exact ⟨rfl, short⟩
  · rintro ⟨rfl, short⟩
    exact ⟨high, low, rest, rfl, short⟩

theorem checked_annotationWith (value : Scan Unit) : Checked (annotationWith pool value) :=
  .bind fun _ => .bind fun _ => .bind fun _ => .bind fun _ => .bind fun _ => .checkpoint

/-- The enum constant of a default value: its type has been looked up and its name passed over, and the
descriptor of the type is all that is looked at after that. -/
theorem enumValue_marked {s s' : Reading} (run : (do
      let type ← u2
      let name ← pool.utf8 type
      skip 2
      descriptor addReferences name : Scan Unit).run.run s = (.ok (), s')) :
    ∃ high low rest, s.cursor.rest = high :: low :: rest ∧
      (s'.cursor.failure ≠ none ↔ rest.length < 2) := by
  obtain ⟨type, s₁, typeRun, run⟩ := run_bind_eq_ok run
  obtain ⟨name, s₂, found, run⟩ := run_bind_eq_ok run
  obtain ⟨_, s₃, passed, ended⟩ := run_bind_eq_ok run
  rw [run_lift] at found
  obtain ⟨entry, rfl⟩ := Prod.mk.inj found
  obtain ⟨-, fresh, high, low, front⟩ := u2_of_ne_zero typeRun (ConstantPool.utf8_ne_zero entry)
  refine ⟨high, low, s₁.cursor.rest, front, ?_⟩
  rw [Stays.of_blind (descriptor addReferences name) s₃ s' _ ended]
  have after : s₃.cursor = (s₁.cursor.bytes 2).2 := by
    cases passed
    rfl
  rw [after]
  constructor
  · intro marked
    by_contra long
    apply marked
    simp [Cursor.bytes, fresh, not_lt.mp long]
  · intro short unmarked
    have fits := (Cursor.bytes_of_sound unmarked).2
    omega

theorem char_eq_enum_iff (tag : UInt8) : Char.ofNat tag.toNat = 'e' ↔ tag = 101 := by
  have checked : ∀ n < 256, Char.ofNat n = 'e' ↔ n = 101 := by decide +kernel
  rw [checked tag.toNat tag.toNat_lt, ← UInt8.toNat_inj]
  rfl

/-- A default value that ends well is cut exactly if it is an enum constant without a name. -/
theorem elementValueUpTo_marked {fuel : Nat} {s s' : Reading}
    (run : (elementValueUpTo pool (fuel + 1)).run.run s = (.ok (), s')) :
    s'.cursor.failure ≠ none ↔ CutEnum s.cursor.rest := by
  unfold elementValueUpTo at run
  obtain ⟨tag, s₁, tagRun, rest⟩ := run_bind_eq_ok run
  obtain ⟨_, s₂, checked, valued⟩ := run_bind_eq_ok rest
  obtain ⟨rfl, unmarked⟩ := checkpoint_eq_ok checked
  rw [u1_of_unmarked tagRun unmarked]
  -- Every other value ends with a checkpoint or with an index that the pool knows.
  have whole : Char.ofNat tag.toNat ≠ 'e' → s'.cursor.failure = none →
      (s'.cursor.failure ≠ none ↔ CutEnum (tag :: s₂.cursor.rest)) := by
    intro other sound
    refine ⟨fun marked => absurd sound marked, ?_⟩
    rintro ⟨_, _, _, same, _⟩
    injection same with same
    exact absurd ((char_eq_enum_iff tag).mpr same) other
  split at valued
  case h_10 isEnum =>
    obtain ⟨high, low, rest, front, marked⟩ := enumValue_marked valued
    rw [front, cutEnum_cons_iff, marked]
    simp [(char_eq_enum_iff tag).mp isEnum]
  case h_11 isClass =>
    exact whole (by simp [isClass]) (checked_text (descriptor addReferences) _ _ _ valued)
  case h_12 isNested =>
    exact whole (by simp [isNested]) (checked_annotationWith _ _ _ _ valued)
  case h_13 isArray =>
    refine whole (by simp [isArray])
      (Checked.bind (fun _ => Checked.bind fun _ => .checkpoint) _ _ _ valued)
  case h_14 => cases valued
  all_goals
    rename_i isConstant
    exact whole (by simp [isConstant]) (Checked.bind (fun _ => .checkpoint) _ _ _ valued)

theorem elementValue_marked {s s' : Reading}
    (run : (elementValue pool).run.run s = (.ok (), s')) :
    s'.cursor.failure ≠ none ↔ CutEnum s.cursor.rest := by
  rw [elementValue, run_bind, run_get] at run
  exact elementValueUpTo_marked run

theorem checked_code {nested : Scan Unit} (checked : Checked nested) : Checked (code pool nested) :=
  .bind fun _ => .bind fun _ => .bind fun _ => .bind fun _ => .bind fun _ => checked

theorem checked_moduleInfo : Checked (moduleInfo pool) := by
  unfold moduleInfo
  iterate 9 refine .bind fun _ => ?_
  refine Checked.checkpoint.bind_carries fun _ => ?_
  rintro s _ _ ⟨⟩ unmarked
  exact unmarked

/-- Every attribute but a default value is looked over before it is accepted. -/
theorem checked_body {nested : Scan Unit} (checked : Checked nested) {name : String}
    (other : name ≠ "AnnotationDefault") : Checked (body pool nested name) := by
  unfold body
  split
  case h_1 => exact checked_text signature
  case h_4 => exact checked_code checked
  case h_13 => exact absurd rfl other
  case h_14 => exact checked_moduleInfo
  case h_16 => exact .checkpoint
  all_goals exact .bind fun _ => .bind fun _ => .checkpoint

/-- A body that is accepted was read past its end exactly if it is a default value whose enum constant
is cut. -/
theorem body_marked {nested : Scan Unit} (checked : Checked nested) {name : String} {s s' : Reading}
    (run : (body pool nested name).run.run s = (.ok (), s')) :
    s'.cursor.failure ≠ none ↔ name = "AnnotationDefault" ∧ CutEnum s.cursor.rest := by
  by_cases isDefault : name = "AnnotationDefault"
  · subst isDefault
    simpa using elementValue_marked run
  · have sound := checked_body checked isDefault s s' () run
    simp [sound, isDefault]

end Attribute

end Bytecode

end ClasspathAudit
