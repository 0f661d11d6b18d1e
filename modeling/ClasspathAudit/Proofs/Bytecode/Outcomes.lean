import ClasspathAudit.Proofs.Bytecode.ModuleAttribute

/-!
How parsing ends. A class is accepted, it is degraded, or the bytes are no class file; which of the three is
settled by the version and the constant pool where the version is too new, and a module descriptor comes out
exactly if one was read.
-/

namespace ClasspathAudit

namespace Bytecode

open Scan

variable {α β : Type}

/-- Ending well and without mark, a steady action has taken bytes that it would take anywhere, and it has
left no trace. -/
class Scan.Exact (act : Scan α) : Prop extends Steady act where
  takes : ∀ size, Takes size act fun bytes a => Reads act bytes a {}

namespace Scan.Exact

instance bind (act : Scan α) (f : α → Scan β) [Exact act] [∀ a, Exact (f a)] : Exact (act >>= f) where
  takes size := Takes.bind (takes size) (fun _ => takes size)
    fun _ _ _ _ first second => first.bind_silent second

/-- An action that takes nothing. -/
theorem of_stays {act : Scan α} [Steady act] (stays : Stays act)
    (reads : ∀ s s' a, act.run.run s = (.ok a, s') → Reads act [] a {}) : Exact act where
  takes _ s s' a _ run _ := ⟨[], by rw [stays s s' a run, List.nil_append], reads s s' a run⟩

instance pure (a : α) : Exact (Pure.pure a : Scan α) :=
  of_stays (.of_blind _) fun _ _ _ run => by
    cases run
    exact Reads.pure a

instance throw (fault : Fault) : Exact (throw fault : Scan α) where
  takes _ _ _ _ _ run _ := by cases run

instance checkpoint : Exact Scan.checkpoint := of_stays .checkpoint fun _ _ _ _ => Reads.checkpoint

instance u1 : Exact Scan.u1 where
  takes _ _ _ tag _ run unmarked := ⟨[tag], u1_of_unmarked run unmarked, Reads.u1 tag⟩

instance u2 : Exact Scan.u2 where
  takes _ := Takes.u2.weaken fun _ _ ⟨same, small⟩ => same ▸ Reads.u2 small

instance u4 : Exact Scan.u4 where
  takes _ := Takes.u4.weaken fun _ _ ⟨same, small⟩ => same ▸ Reads.u4 small

instance bytes (count : Nat) : Exact (Scan.bytes count) where
  takes _ s _ _ _ run unmarked := by
    cases run
    obtain ⟨split, long⟩ := Takes.bytes_taken unmarked
    have reads := Reads.bytes (s.cursor.bytes count).1
    rw [long] at reads
    exact ⟨_, split, reads⟩

instance (priority := low) of_plain (act : Scan α) [plain : Plain act] : Exact act := by
  induction plain with
  | bind _ _ first second => exact @bind _ _ _ _ first second
  | _ => infer_instance

end Scan.Exact

namespace ConstantPool

/-- Bytes are a constant pool that decodes if reading takes all of them. -/
def Decodes (bytes : List UInt8) (pool : ConstantPool) : Prop :=
  ∃ s, read.run.run { cursor := { rest := bytes } } = (.ok pool, s) ∧ s.cursor.rest = []

theorem decodes_of_run {bytes : List UInt8} {pool : ConstantPool}
    (run : (read.run.run { cursor := { rest := bytes } }).1 = .ok pool ∧
      (read.run.run { cursor := { rest := bytes } }).2.cursor.rest = []) : Decodes bytes pool :=
  ⟨_, Prod.ext run.1 rfl, run.2⟩

/-- A pool that decodes does so wherever it stands. -/
theorem Decodes.reads {bytes : List UInt8} {pool : ConstantPool} (decodes : Decodes bytes pool) :
    Reads read bytes pool {} := by
  obtain ⟨s, run, ended⟩ := decodes
  obtain ⟨taken, split, reads⟩ := Exact.takes _ _ s pool le_rfl run (checked_read _ s pool run)
  rw [ended, List.append_nil] at split
  rwa [show bytes = taken from split]

theorem decodes_of_reads {bytes : List UInt8} {pool : ConstantPool} (reads : Reads read bytes pool {}) :
    Decodes bytes pool := by
  have stands : bytes = bytes ++ [] := (List.append_nil bytes).symm
  obtain ⟨run, _, ended⟩ := reads.left (s := { cursor := { rest := bytes } }) rfl stands
  exact ⟨_, run, ended⟩

end ConstantPool

end Bytecode

namespace ClassFile

open Bytecode Scan

variable {bytes : List UInt8}

namespace Parsed

/-- A class and no failure, of a version that is known. -/
def Accepts (p : Parsed) : Prop :=
  p.failure? = none ∧ ∃ c, p.class? = some c ∧ c.degraded = false ∧ 45 ≤ c.major ∧ c.major ≤ 69

/-- A class and the failure of a version that is too new; no member references are resolved in it. -/
def Degrades (p : Parsed) : Prop :=
  (∃ failure, p.failure? = some failure ∧ failure.code? = some .unsupportedClassVersion) ∧
    ∃ c, p.class? = some c ∧ c.degraded = true ∧ 69 < c.major ∧ c.memberRefs = []

end Parsed

/-- A header of a version that is too new, and behind it a constant pool that decodes. -/
def TooNew (front : List UInt8) : Prop :=
  ∃ (minor major : Nat) (constants : List UInt8) (pool : ConstantPool),
    minor < 65536 ∧ major < 65536 ∧ 69 < major ∧ ConstantPool.Decodes constants pool ∧
    front = Assembly.u4 0xCAFEBABE ++ Assembly.u2 minor ++ Assembly.u2 major ++ constants

theorem readHeader_eq_ok {s s' : Reading} {minor major : Nat}
    (run : readHeader.run.run s = (.ok (.versioned major minor), s')) :
    minor < 65536 ∧ major < 65536 ∧ s.cursor.rest =
      Assembly.u4 0xCAFEBABE ++ Assembly.u2 minor ++ Assembly.u2 major ++ s'.cursor.rest := by
  obtain ⟨magic, s₁, magicRun, run⟩ := run_bind_eq_ok run
  split at run
  · obtain ⟨_, _, _, ended⟩ := run_bind_eq_ok run
    cases ended
  next isMagic =>
    obtain ⟨minor, s₂, minorRun, run⟩ := run_bind_eq_ok run
    obtain ⟨major, s₃, majorRun, run⟩ := run_bind_eq_ok run
    obtain ⟨_, s₄, passed, ended⟩ := run_bind_eq_ok run
    cases ended
    obtain ⟨rfl, unmarked⟩ := checkpoint_eq_ok passed
    have unmarked₂ := Steady.sound majorRun unmarked
    have unmarked₁ := Steady.sound minorRun unmarked₂
    obtain ⟨_, first, rfl, _⟩ := Takes.u4 _ _ _ le_rfl magicRun unmarked₁
    obtain ⟨_, second, rfl, smallMinor⟩ := Takes.u2 _ _ _ le_rfl minorRun unmarked₂
    obtain ⟨_, third, rfl, small⟩ := Takes.u2 _ _ _ le_rfl majorRun unmarked
    rw [not_not.mp isMagic] at first
    exact ⟨smallMinor, small, by rw [first, second, third]; simp only [List.append_assoc]⟩

/-- A file that begins as one that is too new is degraded, whatever follows. -/
theorem TooNew.degraded {front : List UInt8} (tooNew : TooNew front) (rest : List UInt8) :
    ∃ c m, parse (front ++ rest) = .degraded c m := by
  obtain ⟨minor, major, constants, pool, smallMinor, small, new, decodes, rfl⟩ := tooNew
  obtain ⟨header, sound, stands⟩ := (Reads.header smallMinor small).left
    (s := { cursor := { rest := _ } }) rfl (List.append_assoc _ constants rest)
  obtain ⟨pooled, _⟩ := decodes.reads.left sound stands
  refine parse_of_new header ?_ pooled
  simp only [Version.maxMajor]
  omega

example : TooNew [0xCA, 0xFE, 0xBA, 0xBE, 0, 0, 0, 70, 0, 1] :=
  ⟨0, 70, [0, 1], ⟨#[none]⟩, by decide, by decide, by decide,
    ConstantPool.decodes_of_reads (.bind_silent (.u2 (n := 1) (by decide)) <|
      .bind_still .checkpoint (.bind_still (.pure []) (.pure _))), by decide⟩

theorem tooNew_of_degraded {c : JavaClass} {m : Option ModuleDescriptor}
    (degraded : parse bytes = .degraded c m) : ∃ front, front <+: bytes ∧ TooNew front := by
  obtain ⟨major, minor, pool, s₁, s₂, header, -, new, constants⟩ := parse_eq_degraded degraded
  obtain ⟨smallMinor, small, split⟩ := readHeader_eq_ok header
  obtain ⟨taken, split', reads⟩ :=
    Exact.takes _ _ s₂ pool le_rfl constants (ConstantPool.checked_read _ s₂ pool constants)
  rw [split'] at split
  refine ⟨_, ⟨s₂.cursor.rest, ?_⟩, minor, major, taken, pool, smallMinor, small, ?_,
    ConstantPool.decodes_of_reads reads, rfl⟩
  · rw [List.append_assoc]
    exact split.symm
  · simp only [Version.maxMajor] at new
    omega

/-- What parsing comes to, with the module descriptor that comes out of it. -/
theorem parse_outcome (bytes : List UInt8) :
    (∃ defect, parse bytes = .malformed defect) ∨
      (∃ c m, parse bytes = .degraded c m ∧ (parse bytes).Degrades ∧ (m.isSome = true ↔ ModuleRead bytes)) ∨
      ∃ c m, parse bytes = .accepted c m ∧ (parse bytes).Accepts ∧ (m.isSome = true ↔ ModuleRead bytes) := by
  rcases parse_cases bytes with malformed | ⟨major, minor, pool, s₁, s₂, s₃, s₄, read, swept,
    header, notOld, constants, body, sweep, ⟨new, degraded⟩ | ⟨notNew, _, _, refs, _, accepted⟩⟩
  · exact .inl malformed
  · refine .inr (.inl ⟨_, _, degraded, ?_, isSome_assembleModule header constants body sweep⟩)
    rw [degraded]
    exact ⟨⟨_, rfl, rfl⟩, _, rfl, rfl, new, rfl⟩
  · refine .inr (.inr ⟨_, _, accepted, ?_, isSome_assembleModule header constants body sweep⟩)
    rw [accepted]
    exact ⟨rfl, _, rfl, rfl, notOld, notNew⟩

/-- Of a class that was parsed, the module descriptor is refused when there is none. -/
theorem parseModule_of_parsed {c : JavaClass} {m : Option ModuleDescriptor}
    (parsed : parse bytes = .degraded c m ∨ parse bytes = .accepted c m) :
    ¬(parse bytes).Rejects ∧
      ((∃ failure, parseModule bytes = .error failure ∧ failure.code? = some .malformedClassFile) ↔
        ¬m.isSome = true) := by
  rcases parsed with same | same
  all_goals
    refine ⟨by simp [Parsed.Rejects, same, Parsed.class?], ?_⟩
    simp only [parseModule, same]
    cases m with
    | none => exact ⟨fun _ => by simp, fun _ => ⟨_, rfl, rfl⟩⟩
    | some found => simp

/-- A module descriptor is refused exactly if the bytes are no class file or none was read. -/
theorem parseModule_eq_error_iff (bytes : List UInt8) :
    (∃ failure, parseModule bytes = .error failure ∧ failure.code? = some .malformedClassFile) ↔
      (parse bytes).Rejects ∨ ¬ModuleRead bytes := by
  rcases parse_outcome bytes with ⟨defect, malformed⟩ | ⟨c, m, degraded, -, read⟩ | ⟨c, m, accepted, -, read⟩
  · obtain ⟨-, failure, stated, code⟩ := rejects_malformed defect
    cases stated
    refine ⟨fun _ => .inl (malformed ▸ rejects_malformed defect), fun _ => ⟨_, ?_, code⟩⟩
    rw [parseModule, malformed]
  · obtain ⟨known, refused⟩ := parseModule_of_parsed (.inl degraded)
    rw [refused, read, or_iff_right known]
  · obtain ⟨known, refused⟩ := parseModule_of_parsed (.inr accepted)
    rw [refused, read, or_iff_right known]

theorem degrades_iff : (parse bytes).Degrades ↔ ∃ c m, parse bytes = .degraded c m := by
  constructor
  · rintro ⟨⟨failure, stated, code⟩, c, isClass, degraded, -⟩
    rcases parse_outcome bytes with ⟨defect, malformed⟩ | ⟨c, m, same, -⟩ | ⟨c, m, accepted, -⟩
    · rw [malformed] at isClass
      cases isClass
    · exact ⟨c, m, same⟩
    · rw [accepted] at stated
      cases stated
  · rintro ⟨c, m, same⟩
    rcases parse_outcome bytes with ⟨defect, malformed⟩ | ⟨_, _, -, degrades, -⟩ | ⟨_, _, accepted, -⟩
    · rw [same] at malformed
      cases malformed
    · exact degrades
    · rw [same] at accepted
      cases accepted

/-- Parsing ends in exactly one of three ways. A class is degraded exactly if the bytes begin with a header
that is too new and a pool that decodes, and what follows these makes no difference. A module descriptor is
refused exactly if the bytes are no class file or no `Module` attribute was read to its end. -/
theorem parse_classified (bytes : List UInt8) :
    ((parse bytes).Accepts ∨ (parse bytes).Degrades ∨ (parse bytes).Rejects) ∧
      ¬((parse bytes).Accepts ∧ (parse bytes).Degrades) ∧
      ¬((parse bytes).Accepts ∧ (parse bytes).Rejects) ∧
      ¬((parse bytes).Degrades ∧ (parse bytes).Rejects) ∧
      ((parse bytes).Degrades ↔ ∃ front, front <+: bytes ∧ TooNew front) ∧
      (∀ front, TooNew front → ∀ rest, (parse (front ++ rest)).Degrades) ∧
      ((∃ failure, parseModule bytes = .error failure ∧ failure.code? = some .malformedClassFile) ↔
        (parse bytes).Rejects ∨ ¬ModuleRead bytes) := by
  refine ⟨?_, ?_, ?_, ?_, ?_, ?_, parseModule_eq_error_iff bytes⟩
  · rcases parse_outcome bytes with ⟨defect, malformed⟩ | ⟨_, _, -, degrades, -⟩ | ⟨_, _, -, accepts, -⟩
    · exact .inr (.inr (malformed ▸ rejects_malformed defect))
    · exact .inr (.inl degrades)
    · exact .inl accepts
  · rintro ⟨⟨none, -⟩, ⟨failure, stated, -⟩, -⟩
    rw [none] at stated
    cases stated
  · rintro ⟨⟨none, -⟩, -, failure, stated, -⟩
    rw [none] at stated
    cases stated
  · rintro ⟨⟨-, c, isClass, -⟩, none, -⟩
    rw [isClass] at none
    cases none
  · rw [degrades_iff]
    constructor
    · rintro ⟨c, m, degraded⟩
      exact tooNew_of_degraded degraded
    · rintro ⟨front, ⟨rest, rfl⟩, tooNew⟩
      exact tooNew.degraded rest
  · exact fun front tooNew rest => degrades_iff.mpr (tooNew.degraded rest)

end ClassFile

end ClasspathAudit
