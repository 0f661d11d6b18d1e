import ClasspathAudit.Proofs.Bytecode.Steadiness
import ClasspathAudit.Proofs.Bytecode.SymbolSet

/-!
Accepted class files are prefix-free. All of a file is read under checkpoints, so what an accepted file
holds is read in the same way when more bytes follow, and then these are left over. No file that is
accepted can therefore be continued to another one, nor be cut from one.
-/

namespace ClasspathAudit

namespace Bytecode

open Scan

variable {α β : Type} {pool : ConstantPool}

/-- Ending well, an action has left no mark. -/
def Scan.Checked (act : Scan α) : Prop :=
  ∀ s s' a, act.run.run s = (.ok a, s') → s'.cursor.failure = none

namespace Scan.Checked

theorem checkpoint : Checked Scan.checkpoint := by
  intro s s' _ run
  obtain ⟨rfl, unmarked⟩ := checkpoint_eq_ok run
  exact unmarked

/-- What comes last decides. -/
theorem bind {act : Scan α} {f : α → Scan β} (last : ∀ a, Checked (f a)) : Checked (act >>= f) := by
  intro s s' b run
  obtain ⟨a, s₁, _, second⟩ := run_bind_eq_ok run
  exact last a s₁ s' b second

theorem bind_carries {act : Scan α} {f : α → Scan β} (first : Checked act)
    (second : ∀ a, Carries (fun s => s.cursor.failure = none) (f a)) : Checked (act >>= f) := by
  intro s s' b run
  obtain ⟨a, s₁, firstRun, secondRun⟩ := run_bind_eq_ok run
  exact second a s₁ s' b secondRun (first s s₁ a firstRun)

theorem bind_pure {act : Scan α} (checked : Checked act) (value : α → β) :
    Checked (act >>= fun a => pure (value a)) :=
  checked.bind_carries fun a s s' b run unmarked => by
    cases run
    exact unmarked

end Scan.Checked

namespace Attribute

theorem checked_tableUpTo (fuel : Nat) : Checked (tableUpTo pool fuel) := by
  cases fuel with
  | zero => exact .bind fun _ => .checkpoint
  | succ fuel => exact .bind fun _ => .bind fun _ => .checkpoint

theorem checked_table : Checked (table pool) := by
  intro s s' _ run
  rw [run_table] at run
  exact checked_tableUpTo _ s s' _ run

end Attribute

namespace Constant

theorem checked_read (index : Nat) : Checked (read index) := by
  unfold read
  refine .bind fun tag => ?_
  have ending : ∀ entry : Constant, Checked (do checkpoint; return entry) :=
    fun entry => Checked.checkpoint.bind_pure fun _ => entry
  split
  case h_18 => exact .bind fun _ => .bind ending
  all_goals exact .bind ending

end Constant

namespace ConstantPool

theorem carries_readSlots (count index : Nat) :
    Carries (fun s => s.cursor.failure = none) (readSlots count index) := by
  induction count using Nat.strong_induction_on generalizing index with
  | _ count ih =>
    cases count with
    | zero =>
      intro s s' a run unmarked
      cases run
      exact unmarked
    | succ count =>
      rw [readSlots.eq_def]
      intro s s' a run _
      refine (Constant.checked_read index).bind_carries (fun entry => ?_) s s' a run
      have keeps : ∀ value, Carries (α := List (Option Constant)) (fun s => s.cursor.failure = none)
          (pure value) := by
        rintro value s _ _ ⟨⟩ unmarked
        exact unmarked
      split
      · cases count with
        | zero => exact keeps _
        | succ count => exact .bind (ih count (by omega) _) fun rest => keeps _
      · exact .bind (ih count (by omega) _) fun rest => keeps _

theorem checked_read : Checked read :=
  .bind fun count => Checked.checkpoint.bind_carries fun _ => .bind (carries_readSlots _ _)
    fun entries => by
    rintro s _ _ ⟨⟩ unmarked
    exact unmarked

end ConstantPool

theorem checked_readHeader : Checked ClassFile.readHeader := by
  unfold ClassFile.readHeader
  refine .bind fun magic => ?_
  split
  · exact Checked.checkpoint.bind_pure fun _ => ClassFile.Header.badMagic
  · exact .bind fun minor => .bind fun major =>
      Checked.checkpoint.bind_pure fun _ => ClassFile.Header.versioned major minor

instance steady_readMember : Steady (readMember pool) := by
  unfold readMember
  infer_instance

instance steady_readParent : Steady (readParent pool) := by
  unfold readParent
  infer_instance

instance steady_readInterface : Steady (readInterface pool) := by
  unfold readInterface
  infer_instance

instance steady_readField : Steady (readField pool) := by
  unfold readField
  infer_instance

instance steady_readMethod : Steady (readMethod pool) := by
  unfold readMethod
  infer_instance

instance steady_readStructure : Steady (readStructure pool) := by
  unfold readStructure
  iterate 13 refine @Steady.bind _ _ _ _ inferInstance fun _ => ?_
  infer_instance

theorem checked_readStructure : Checked (readStructure pool) := by
  unfold readStructure
  iterate 13 refine .bind fun _ => ?_
  exact Attribute.checked_table

/-- A file is read to its end when nothing is left behind its structure. -/
theorem readBody_eq_ok {s s' : Reading} (run : (readBody pool).run.run s = (.ok (), s')) :
    (readStructure pool).run.run s = (.ok (), s') ∧ s'.cursor.rest = [] := by
  obtain ⟨_, s₁, walked, ended⟩ := run_bind_eq_ok run
  simp only [readEnd, run_bind, run_get] at ended
  split at ended
  · cases ended
  next nothing =>
    cases ended
    exact ⟨walked, by simpa using nothing⟩

/-- Bytes behind the structure are an error. -/
theorem run_readBody_of_more {s s' : Reading} {more : List UInt8}
    (walked : (readStructure pool).run.run s = (.ok (), s')) (left : s'.cursor.rest = more)
    (nonempty : more ≠ []) :
    (readBody pool).run.run s = (.error (.trailing more.length), s') := by
  have some' : more.length ≠ 0 := by simpa using nonempty
  rw [readBody, run_bind, walked]
  simp only [readEnd, run_bind, run_get, left, ne_eq, some', not_false_eq_true, if_true, run_throw]

end Bytecode

namespace ClassFile

open Bytecode

variable {bytes more : List UInt8} {c : JavaClass} {m : Option ModuleDescriptor}

/-- No class, and the failure of bytes that are no class file. -/
def Parsed.Rejects (p : Parsed) : Prop :=
  p.class? = none ∧ ∃ failure, p.failure? = some failure ∧ failure.code? = some .malformedClassFile

theorem rejects_malformed (defect : Defect) : (Parsed.malformed defect).Rejects := by
  refine ⟨rfl, defect.failure, rfl, ?_⟩
  cases defect <;> rfl

/-- An accepted file with more bytes behind it is one with trailing bytes. -/
theorem parse_append (accepted : parse bytes = .accepted c m) (nonempty : more ≠ []) :
    parse (bytes ++ more) = .malformed (.body c.name (.trailing more.length)) := by
  obtain ⟨major, minor, pool, refs, s₁, s₂, s₃, s₄, header, ⟨notOld, notNew⟩, constants, body, sweep,
    -, rfl⟩ := parse_eq_accepted accepted
  obtain ⟨walked, ended⟩ := readBody_eq_ok body
  have header' := Scan.Steady.followedBy header (checked_readHeader _ _ _ header) more
  have constants' :=
    Scan.Steady.followedBy constants (ConstantPool.checked_read _ _ _ constants) more
  have walked' := Scan.Steady.followedBy walked (checked_readStructure _ _ _ walked) more
  have body' := run_readBody_of_more walked' (by rw [Reading.rest_followedBy, ended, List.nil_append])
    nonempty
  have named : (s₃.followedBy more).draft.name = s₄.draft.name := by
    rw [(Scan.Grows.of_run sweep).draft]
    rfl
  have start : ({ cursor := { rest := bytes ++ more } } : Reading) =
      Reading.followedBy { cursor := { rest := bytes } } more := rfl
  rw [parse, start, header']
  simp only [if_neg (not_lt.mpr notOld), constants', parseBody, body', if_neg (not_lt.mpr notNew),
    named]
  rfl

/-- How a class comes to be degraded: the version is too new, and the header and the pool are sound. -/
theorem parse_eq_degraded (degraded : parse bytes = .degraded c m) :
    ∃ (major minor : Nat) (pool : ConstantPool) (s₁ s₂ : Reading),
      readHeader.run.run { cursor := { rest := bytes } } = (.ok (.versioned major minor), s₁) ∧
      Version.minMajor ≤ major ∧ Version.maxMajor < major ∧
      ConstantPool.read.run.run s₁ = (.ok pool, s₂) := by
  rcases parse_cases bytes with ⟨defect, malformed⟩ | ⟨major, minor, pool, s₁, s₂, s₃, s₄, read, swept,
    header, notOld, constants, -, -, ⟨new, -⟩ | ⟨-, -, -, refs, -, accepted⟩⟩
  · rw [degraded] at malformed
    cases malformed
  · exact ⟨major, minor, pool, s₁, s₂, header, notOld, new, constants⟩
  · rw [degraded] at accepted
    cases accepted

/-- With a sound header and a sound pool, a version that is too new is all that counts. -/
theorem parse_of_new {major minor : Nat} {pool : ConstantPool} {s₁ s₂ : Reading}
    (header : readHeader.run.run { cursor := { rest := bytes } } = (.ok (.versioned major minor), s₁))
    (new : Version.maxMajor < major) (constants : ConstantPool.read.run.run s₁ = (.ok pool, s₂)) :
    ∃ c m, parse bytes = .degraded c m := by
  have notOld : ¬(major : Int) < Version.minMajor := by
    simp only [Version.minMajor, Version.maxMajor] at new ⊢
    omega
  simp only [parse, header, if_neg notOld, constants, parseBody, if_pos new]
  exact ⟨_, _, rfl⟩

/-- A file that is too new stays so with more bytes behind it. -/
theorem degraded_append (more : List UInt8) (degraded : parse bytes = .degraded c m) :
    ∃ c' m', parse (bytes ++ more) = .degraded c' m' := by
  obtain ⟨major, minor, pool, s₁, s₂, header, -, new, constants⟩ := parse_eq_degraded degraded
  have header' := Scan.Steady.followedBy header (checked_readHeader _ _ _ header) more
  have constants' :=
    Scan.Steady.followedBy constants (ConstantPool.checked_read _ _ _ constants) more
  exact parse_of_new header' new constants'

/-- Accepted class files are prefix-free: one of them with bytes behind it, or cut at any place, is
rejected. -/
theorem accepted_prefixFree (accepted : parse bytes = .accepted c m) :
    (∀ more ≠ [], (parse (bytes ++ more)).Rejects) ∧
      ∀ size < bytes.length, (parse (bytes.take size)).Rejects := by
  constructor
  · intro more nonempty
    rw [parse_append accepted nonempty]
    exact rejects_malformed _
  · intro size short
    have nonempty : bytes.drop size ≠ [] := by simpa using short
    have whole := List.take_append_drop size bytes
    cases cut : parse (bytes.take size) with
    | accepted c' m' =>
      have trailing := parse_append cut nonempty
      rw [whole, accepted] at trailing
      cases trailing
    | degraded c' m' =>
      obtain ⟨c'', m'', stays⟩ := degraded_append (bytes.drop size) cut
      rw [whole, accepted] at stays
      cases stays
    | malformed defect => exact rejects_malformed defect

theorem accepted_prefixFree_account :
    (parse account.bytes).failure? = none ∧ (parse (account.bytes ++ [0])).Rejects ∧
      (parse (account.bytes.take 10)).Rejects := by
  have sound : (parse account.bytes).failure?.isNone = true ∧ 10 < account.bytes.length := by
    decide +kernel
  cases outcome : parse account.bytes with
  | accepted c m =>
    obtain ⟨continued, cut⟩ := accepted_prefixFree outcome
    exact ⟨rfl, continued [0] (by decide), cut 10 sound.2⟩
  | degraded c m =>
    rw [outcome] at sound
    cases sound.1
  | malformed defect =>
    rw [outcome] at sound
    cases sound.1

end ClassFile

end ClasspathAudit
