import ClasspathAudit.Proofs.Bytecode.ActionKinds

/-!
What bytes behind the read ones can change. A read past the end leaves a mark that nothing takes away, so
an action that ends well and leaves no mark has seen only bytes that were there: it ends the same way
when more of them follow. `Steady act` says so, and it is closed under all ways of combining actions.
Tables of attributes nest as deep as there are bytes left, which more bytes change; the bound is shown
not to matter.
-/

namespace ClasspathAudit.Bytecode

/-- The same bytes and more of them. -/
def Cursor.followedBy (c : Cursor) (more : List UInt8) : Cursor := { c with rest := c.rest ++ more }

/-- The same reading with more bytes behind. -/
def Reading.followedBy (s : Reading) (more : List UInt8) : Reading :=
  { s with cursor := s.cursor.followedBy more }

@[simp] theorem Reading.rest_followedBy (s : Reading) (more : List UInt8) :
    (s.followedBy more).cursor.rest = s.cursor.rest ++ more := rfl

namespace Cursor

variable {c : Cursor} {count : Nat}

theorem failure_fail : (c.fail count).failure ≠ none := by
  unfold fail
  cases marked : c.failure <;> simp [marked]

theorem rest_fail : (c.fail count).rest = c.rest := by
  unfold fail
  cases c.failure <;> rfl

/-- A read leaves no mark where there was none and the bytes sufficed. -/
theorem bytes_of_sound (sound : (c.bytes count).2.failure = none) :
    c.failure = none ∧ count ≤ c.rest.length := by
  unfold bytes at sound
  split at sound
  next fits => exact ⟨by simpa using fits.1, fits.2⟩
  next => exact absurd sound failure_fail

theorem bytes_followedBy (sound : (c.bytes count).2.failure = none) (more : List UInt8) :
    (c.followedBy more).bytes count = ((c.bytes count).1, (c.bytes count).2.followedBy more) := by
  obtain ⟨unmarked, fits⟩ := bytes_of_sound sound
  have fits' : count ≤ c.rest.length + more.length := by omega
  simp [bytes, followedBy, unmarked, fits, fits', List.take_append_of_le_length,
    List.drop_append_of_le_length]

/-- A read that cannot be met yields zero. -/
theorem unsigned_eq_zero (unmet : ¬(c.failure = none ∧ count ≤ c.rest.length)) :
    (c.unsigned count).1 = 0 := by
  have refused : c.bytes count = ([], c.fail count) := if_neg (by simpa using unmet)
  simp [unsigned, refused, number]

theorem bytes_suffix (c : Cursor) (count : Nat) : (c.bytes count).2.rest <:+ c.rest := by
  unfold bytes
  split
  · exact List.drop_suffix _ _
  · rw [rest_fail]

end Cursor

namespace Scan

variable {α β : Type}

/-- An action to which the cursor makes no difference, and which leaves it where it is. -/
class Blind (act : Scan α) : Prop where
  blind : ∀ s cursor, act.run.run { s with cursor } =
    ((act.run.run s).1, { (act.run.run s).2 with cursor })

namespace Blind

theorem cursor_eq (act : Scan α) [Blind act] (s : Reading) : (act.run.run s).2.cursor = s.cursor := by
  have same := (inferInstance : Blind act).blind s s.cursor
  rw [same]

instance pure (a : α) : Blind (Pure.pure a : Scan α) := ⟨fun _ _ => rfl⟩

instance throw (fault : Fault) : Blind (throw fault : Scan α) := ⟨fun _ _ => rfl⟩

instance lift (x : Except Fault α) : Blind (liftM x : Scan α) := ⟨fun _ _ => rfl⟩

instance bind (act : Scan α) (f : α → Scan β) [Blind act] [∀ a, Blind (f a)] : Blind (act >>= f) := by
  constructor
  intro s cursor
  rw [run_bind, run_bind, blind]
  rcases act.run.run s with ⟨fault | a, s₁⟩
  · rfl
  · exact blind s₁ cursor

instance ite {p : Prop} [Decidable p] (yes no : Scan α) [Blind yes] [Blind no] :
    Blind (if p then yes else no) := by
  split <;> assumption

instance rewording (f : Fault → Fault) (act : Scan Unit) [Blind act] : Blind (Scan.rewording f act) := by
  constructor
  intro s cursor
  rw [run_rewording, run_rewording, blind]

instance addReferences (names : List String) : Blind (Scan.addReferences names) := ⟨fun _ _ => rfl⟩

instance addAnnotations (names : List String) : Blind (Scan.addAnnotations names) := ⟨fun _ _ => rfl⟩

instance draft (edit : Draft → Draft) : Blind (Bytecode.draft edit) := ⟨fun _ _ => rfl⟩

instance (priority := low) of_naming (act : Scan α) [naming : Naming act] : Blind act := by
  induction naming with
  | rewording f _ kept => exact @rewording f _ kept
  | bind _ _ first second => exact @bind _ _ _ _ first second
  | _ => infer_instance

end Blind

/-- A checkpoint is passed only without a mark. -/
theorem checkpoint_eq_ok {s s' : Reading} (run : Scan.checkpoint.run.run s = (.ok (), s')) :
    s' = s ∧ s.cursor.failure = none := by
  simp only [Scan.checkpoint, run_bind, run_get] at run
  cases marked : s.cursor.failure with
  | some t =>
    rw [marked] at run
    cases run
  | none =>
    rw [marked] at run
    cases run
    exact ⟨rfl, rfl⟩

theorem run_checkpoint {s : Reading} (unmarked : s.cursor.failure = none) :
    Scan.checkpoint.run.run s = (.ok (), s) := by
  simp only [Scan.checkpoint, run_bind, run_get, unmarked, run_pure]

/-- Ending well, an action has moved forward; if it left no mark there was none before it, and more bytes
behind would have made no difference. -/
class Steady (act : Scan α) : Prop where
  suffix : ∀ {s s' : Reading} {a : α}, act.run.run s = (.ok a, s') → s'.cursor.rest <:+ s.cursor.rest
  sound : ∀ {s s' : Reading} {a : α}, act.run.run s = (.ok a, s') → s'.cursor.failure = none →
    s.cursor.failure = none
  followedBy : ∀ {s s' : Reading} {a : α}, act.run.run s = (.ok a, s') → s'.cursor.failure = none →
    ∀ more, act.run.run (s.followedBy more) = (.ok a, s'.followedBy more)

namespace Steady

/-- Bytes that are not looked at make no difference. -/
instance (priority := low) of_blind (act : Scan α) [Blind act] : Steady act where
  suffix {s _ _} run := by
    have stays := Blind.cursor_eq act s
    rw [run] at stays
    rw [stays]
  sound {s _ _} run unmarked := by
    have stays := Blind.cursor_eq act s
    rw [run] at stays
    rwa [← stays]
  followedBy {s _ _} run _ more := by
    have stays := Blind.cursor_eq act s
    have same := (inferInstance : Blind act).blind s (s.cursor.followedBy more)
    rw [run] at stays same
    rw [Reading.followedBy, same, Reading.followedBy, stays]

instance bind (act : Scan α) (f : α → Scan β) [Steady act] [∀ a, Steady (f a)] :
    Steady (act >>= f) where
  suffix run := by
    obtain ⟨a, s₁, first, second⟩ := run_bind_eq_ok run
    exact (suffix second).trans (suffix first)
  sound run unmarked := by
    obtain ⟨a, s₁, first, second⟩ := run_bind_eq_ok run
    exact sound first (sound second unmarked)
  followedBy run unmarked more := by
    obtain ⟨a, s₁, first, second⟩ := run_bind_eq_ok run
    rw [run_bind, followedBy first (sound second unmarked) more]
    exact followedBy second unmarked more

instance ite {p : Prop} [Decidable p] (yes no : Scan α) [Steady yes] [Steady no] :
    Steady (if p then yes else no) := by
  split <;> assumption

instance read {f : List UInt8 → α} {count : Nat} :
    Steady (Scan.read fun c => (f (c.bytes count).1, (c.bytes count).2)) where
  suffix run := by
    cases run
    exact Cursor.bytes_suffix _ _
  sound run unmarked := by
    cases run
    exact (Cursor.bytes_of_sound unmarked).1
  followedBy run unmarked more := by
    cases run
    simp only [run_read, Reading.followedBy, Cursor.bytes_followedBy unmarked more]

instance u2 : Steady Scan.u2 := read (f := Cursor.number)

instance u4 : Steady Scan.u4 := read (f := Cursor.number)

instance u1 : Steady Scan.u1 := by
  have unsigned : Steady (Scan.read (·.unsigned 1)) := read (f := Cursor.number)
  unfold Scan.u1
  infer_instance

instance bytes (count : Nat) : Steady (Scan.bytes count) := read (f := id)

instance skip (count : Nat) : Steady (Scan.skip count) := read (f := fun _ => ())

instance checkpoint : Steady Scan.checkpoint where
  suffix run := by rw [(checkpoint_eq_ok run).1]
  sound run _ := (checkpoint_eq_ok run).2
  followedBy run _ more := by
    obtain ⟨rfl, unmarked⟩ := checkpoint_eq_ok run
    exact run_checkpoint unmarked

instance (priority := low) of_plain (act : Scan α) [plain : Plain act] : Steady act := by
  induction plain with
  | bind _ _ first second => exact @bind _ _ _ _ first second
  | _ => infer_instance

instance times (count : Nat) (act : Scan Unit) [Steady act] : Steady (Scan.times count act) := by
  induction count with
  | zero => exact of_blind (Pure.pure ())
  | succ count ih =>
    unfold Scan.times
    infer_instance

end Steady

theorem run_within (count : Nat) (act : Scan Unit) (s : Reading) :
    (Scan.within count act).run.run s =
      match (s.cursor.sub count).2.failure with
      | some t => (.error (.truncated t), { s with cursor := (s.cursor.sub count).2 })
      | none =>
        match act.run.run { s with cursor := (s.cursor.sub count).1 } with
        | (.ok _, t) => (.ok (), { t with cursor := (s.cursor.sub count).2 })
        | (.error fault, t) => (.error fault, t) := by
  simp only [Scan.within, Scan.checkpoint, run_bind, run_read, run_get]
  cases (s.cursor.sub count).2.failure with
  | some t => rfl
  | none =>
    simp only [run_pure, run_modify]
    rcases act.run.run { s with cursor := (s.cursor.sub count).1 } with ⟨_ | _, _⟩ <;> rfl

/-- An action on a stretch of its own that ends well: the stretch lies in front, and what is left is what
follows it. -/
theorem within_eq_ok {count : Nat} {act : Scan Unit} {s s' : Reading}
    (run : (Scan.within count act).run.run s = (.ok (), s')) :
    (s.cursor.sub count).2.failure = none ∧ ∃ t,
      act.run.run { s with cursor := (s.cursor.sub count).1 } = (.ok (), t) ∧
      s' = { t with cursor := (s.cursor.sub count).2 } := by
  rw [run_within] at run
  split at run
  · cases run
  next unmarked =>
    split at run
    next t acted =>
      cases run
      exact ⟨unmarked, t, acted, rfl⟩
    next => cases run

instance Steady.within (count : Nat) (act : Scan Unit) : Steady (Scan.within count act) where
  suffix run := by
    obtain ⟨_, t, _, rfl⟩ := within_eq_ok run
    exact Cursor.bytes_suffix _ _
  sound run _ := (Cursor.bytes_of_sound (within_eq_ok run).1).1
  followedBy {s _ _} run _ more := by
    obtain ⟨unmarked, t, acted, rfl⟩ := within_eq_ok run
    have same : (s.followedBy more).cursor.sub count =
        ((s.cursor.sub count).1, (s.cursor.sub count).2.followedBy more) := by
      simp only [Cursor.sub, Reading.followedBy, Cursor.bytes_followedBy unmarked more]
    have acted' : act.run.run { s.followedBy more with cursor := (s.cursor.sub count).1 } =
      (.ok (), t) := acted
    have unmarked' : ((s.cursor.sub count).2.followedBy more).failure = none := unmarked
    rw [run_within, same]
    simp only [unmarked', acted']
    rfl

/-- Two actions that do the same on at most `size` bytes. -/
def Agree (size : Nat) (act act' : Scan α) : Prop :=
  ∀ s : Reading, s.cursor.rest.length ≤ size → act.run.run s = act'.run.run s

namespace Agree

variable {size : Nat}

theorem refl (act : Scan α) : Agree size act act := fun _ _ => rfl

theorem bind {act act' : Scan α} [Steady act] {f g : α → Scan β} (first : Agree size act act')
    (second : ∀ a, Agree size (f a) (g a)) : Agree size (act >>= f) (act' >>= g) := by
  intro s few
  rw [run_bind, run_bind, ← first s few]
  cases run : act.run.run s with
  | mk outcome s' =>
    cases outcome with
    | error fault => rfl
    | ok a => exact second a s' ((Steady.suffix run).length_le.trans few)

theorem times {act act' : Scan Unit} [Steady act] (agree : Agree size act act') (count : Nat) :
    Agree size (Scan.times count act) (Scan.times count act') := by
  induction count with
  | zero => exact refl _
  | succ count ih => exact bind agree fun _ => ih

/-- On a stretch of its own an action has no more bytes than there are. -/
theorem within {act act' : Scan Unit} (agree : Agree size act act') (count : Nat) :
    Agree size (Scan.within count act) (Scan.within count act') := by
  intro s few
  have inner : (s.cursor.sub count).1.rest.length ≤ size := by
    simp only [Cursor.sub, Cursor.bytes]
    split
    · exact (List.length_take_le' _ _).trans few
    · exact Nat.zero_le _
  rw [run_within, run_within, agree { s with cursor := (s.cursor.sub count).1 } inner]

theorem rewording {act act' : Scan Unit} (agree : Agree size act act') (f : Fault → Fault) :
    Agree size (Scan.rewording f act) (Scan.rewording f act') := by
  intro s few
  rw [run_rewording, run_rewording, agree s few]

end Agree

end Scan

namespace Attribute

open Scan

variable {pool : ConstantPool} {size : Nat} {nested nested' : Scan Unit}

instance steady_entry : Steady (entry pool nested) := by
  have each : ∀ nameIndex length : Nat, Steady (match pool.utf8 nameIndex with
      | .error cause => throw (.inAttributeName cause)
      | .ok name => within length (rewording (.inAttribute name) (body pool nested name))) := by
    intro nameIndex length
    split <;> infer_instance
  unfold entry
  infer_instance

instance steady_tableUpTo (fuel : Nat) : Steady (tableUpTo pool fuel) := by
  cases fuel <;> (unfold tableUpTo; infer_instance)

theorem agree_code (agree : Agree size nested nested') :
    Agree size (code pool nested) (code pool nested') := by
  refine .bind (.refl _) fun _ => ?_
  refine .bind (.refl _) fun length => ?_
  refine .bind (.refl _) fun _ => ?_
  refine .bind (.refl _) fun handlers => ?_
  exact .bind (.refl _) fun _ => agree

/-- Of all attributes only code has others inside. -/
theorem agree_body (agree : Agree size nested nested') (name : String) :
    Agree size (body pool nested name) (body pool nested' name) := by
  unfold body
  split
  case h_4 => exact agree_code agree
  all_goals exact .refl _

theorem agree_entry (agree : Agree size nested nested') :
    Agree size (entry pool nested) (entry pool nested') := by
  refine .bind (.refl _) fun nameIndex => ?_
  refine .bind (.refl _) fun length => ?_
  refine .bind (.refl _) fun _ => ?_
  cases pool.utf8 nameIndex with
  | error cause => exact .refl _
  | ok name => exact ((agree_body agree name).rewording _).within length

/-- How deep tables may be nested makes no difference beyond the number of bytes. -/
theorem agree_tableUpTo {fuel fuel' : Nat} (enough : size < fuel) (enough' : size < fuel') :
    Agree size (tableUpTo pool fuel) (tableUpTo pool fuel') := by
  induction size using Nat.strong_induction_on generalizing fuel fuel' with
  | _ size ih =>
    obtain ⟨depth, rfl⟩ := Nat.exists_eq_succ_of_ne_zero (Nat.ne_zero_of_lt enough)
    obtain ⟨depth', rfl⟩ := Nat.exists_eq_succ_of_ne_zero (Nat.ne_zero_of_lt enough')
    intro s few
    unfold tableUpTo
    rw [run_bind, run_bind, show (u2.run.run s) = (.ok (s.cursor.unsigned 2).1,
      { s with cursor := (s.cursor.unsigned 2).2 }) from rfl]
    dsimp only
    -- Without two bytes for the count the table is empty, with them fewer are left for its entries.
    by_cases met : s.cursor.failure = none ∧ 2 ≤ s.cursor.rest.length
    · have smaller : Agree (size - 2) (tableUpTo pool depth) (tableUpTo pool depth') :=
        ih (size - 2) (by omega) (by omega) (by omega)
      refine Agree.bind ((agree_entry smaller).times _) (fun _ => .refl _) _ ?_
      simp only [Cursor.unsigned, Cursor.bytes, met, Option.isNone_none, and_self, if_true,
        List.length_drop]
      omega
    · rw [Cursor.unsigned_eq_zero met]
      simp only [Scan.times]

theorem run_table (s : Reading) :
    (table pool).run.run s = (tableUpTo pool (s.cursor.rest.length + 1)).run.run s := by
  rw [table, run_bind, run_get]

theorem run_table_eq {fuel : Nat} {s : Reading} (enough : s.cursor.rest.length < fuel) :
    (table pool).run.run s = (tableUpTo pool fuel).run.run s := by
  rw [run_table]
  exact agree_tableUpTo (Nat.lt_succ_self _) enough s le_rfl

instance steady_table : Steady (table pool) where
  suffix run := by
    rw [run_table] at run
    exact Steady.suffix run
  sound run := by
    rw [run_table] at run
    exact Steady.sound run
  followedBy {s _ _} run unmarked more := by
    have enough : s.cursor.rest.length < (s.followedBy more).cursor.rest.length + 1 := by
      rw [Reading.rest_followedBy, List.length_append]
      omega
    rw [run_table_eq enough] at run
    rw [run_table]
    exact Steady.followedBy run unmarked more

end Attribute

end ClasspathAudit.Bytecode
