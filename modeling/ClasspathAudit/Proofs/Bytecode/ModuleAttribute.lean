import ClasspathAudit.Proofs.Bytecode.Layout

/-!
Where module descriptors come from. Of all that is read, only the body of a `Module` attribute leaves a
descriptor behind, and only when it is read to its end. It may stand in any table of attributes that is
come to, nested in code too, and nothing that goes wrong later takes the descriptor away.
-/

namespace ClasspathAudit

namespace Bytecode

open Scan

variable {α β : Type} {pool : ConstantPool} {s : Reading} {P Q : Prop}

/-- What module descriptor has been found stays as it is. -/
def still : Motion where
  Leads s s' := s'.symbols.moduleInfo = s.symbols.moduleInfo
  refl _ := rfl
  trans first second := second.trans first
  moved _ _ := rfl
  referenced _ _ := rfl
  annotated _ _ := rfl
  packaged _ _ := rfl

/-- From `s` on, an action finds a module descriptor exactly if `P` holds, however it ends. -/
def Scan.Finds (act : Scan α) (s : Reading) (P : Prop) : Prop :=
  (act.run.run s).2.symbols.moduleInfo.isSome = true ↔ s.symbols.moduleInfo.isSome = true ∨ P

namespace Scan.Finds

theorem of_still (act : Scan α) [Follows still act] : Finds act s False := by
  have same : (act.run.run s).2.symbols.moduleInfo = s.symbols.moduleInfo :=
    Follows.after (R := still) act s
  rw [Finds, same, or_false]

theorem congr {act : Scan α} (finds : Finds act s P) (same : P ↔ Q) : Finds act s Q := by
  rw [Finds, ← same]
  exact finds

theorem bind {act : Scan α} {f : α → Scan β} {R : α → Reading → Prop} (first : Finds act s P)
    (second : ∀ a s₁, act.run.run s = (.ok a, s₁) → Finds (f a) s₁ (R a s₁)) :
    Finds (act >>= f) s (P ∨ ∃ a s₁, act.run.run s = (.ok a, s₁) ∧ R a s₁) := by
  unfold Finds at first
  rw [Finds, run_bind]
  cases run : act.run.run s with
  | mk outcome s₁ =>
    rw [run] at first
    cases outcome with
    | error fault =>
      refine first.trans (or_congr_right ⟨.inl, ?_⟩)
      rintro (holds | ⟨_, _, ⟨⟩, _⟩)
      exact holds
    | ok a =>
      have both : ((f a).run.run s₁).2.symbols.moduleInfo.isSome = true ↔
          s₁.symbols.moduleInfo.isSome = true ∨ R a s₁ := second a s₁ run
      rw [both, first, or_assoc]
      refine or_congr_right (or_congr_right ⟨fun holds => ⟨a, s₁, rfl, holds⟩, ?_⟩)
      rintro ⟨_, _, ⟨⟩, holds⟩
      exact holds

/-- An action behind one that finds nothing. -/
theorem after {act : Scan α} [Follows still act] {f : α → Scan β} {R : α → Reading → Prop}
    (second : ∀ a s₁, act.run.run s = (.ok a, s₁) → Finds (f a) s₁ (R a s₁)) :
    Finds (act >>= f) s (∃ a s₁, act.run.run s = (.ok a, s₁) ∧ R a s₁) :=
  (bind (of_still act) second).congr (by rw [false_or])

/-- An action that finds a descriptor exactly if it ends well, behind one that finds nothing. -/
theorem ending {act : Scan α} [Follows still act] {f : α → Scan Unit}
    (second : ∀ a s₁, Finds (f a) s₁ (∃ u, (f a).run.run s₁ = (.ok (), u))) :
    Finds (act >>= f) s (∃ u, (act >>= f).run.run s = (.ok (), u)) := by
  refine (after fun a s₁ _ => second a s₁).congr ⟨?_, ?_⟩
  · rintro ⟨a, s₁, first, u, last⟩
    refine ⟨u, ?_⟩
    rw [run_bind, first]
    exact last
  · rintro ⟨u, run⟩
    obtain ⟨a, s₁, first, last⟩ := run_bind_eq_ok run
    exact ⟨a, s₁, first, u, last⟩

/-- An action before others that find nothing. -/
theorem before {act : Scan α} {f : α → Scan β} [∀ a, Follows still (f a)] (first : Finds act s P) :
    Finds (act >>= f) s P :=
  (bind first fun a _ _ => of_still (f a)).congr (by simp)

/-- An action repeated finds a descriptor in one of the rounds it comes to. -/
theorem times {act : Scan Unit} {R : Reading → Prop} (count : Nat)
    (each : ∀ passed s₁, (Scan.times passed act).run.run s = (.ok (), s₁) → Finds act s₁ (R s₁)) :
    Finds (Scan.times count act) s
      (∃ passed < count, ∃ s₁, (Scan.times passed act).run.run s = (.ok (), s₁) ∧ R s₁) := by
  induction count generalizing s with
  | zero => exact (of_still (pure ())).congr (by simp)
  | succ count ih =>
    refine (bind (each 0 s rfl) fun _ s₁ run => ih fun passed s₂ later => each (passed + 1) s₂ ?_).congr ?_
    · rw [Scan.times, run_bind, run]
      exact later
    · constructor
      · rintro (now | ⟨_, s₁, run, passed, few, s₂, later, holds⟩)
        · exact ⟨0, Nat.succ_pos _, s, rfl, now⟩
        · refine ⟨passed + 1, Nat.succ_lt_succ few, s₂, ?_, holds⟩
          rw [Scan.times, run_bind, run]
          exact later
      · rintro ⟨passed, few, s₂, run, holds⟩
        cases passed with
        | zero =>
          cases run
          exact .inl holds
        | succ passed =>
          obtain ⟨_, s₁, first, later⟩ := run_bind_eq_ok run
          exact .inr ⟨(), s₁, first, passed, Nat.lt_of_succ_lt_succ few, s₂, later, holds⟩

theorem rewording {act : Scan Unit} (f : Fault → Fault) (finds : Finds act s P) :
    Finds (Scan.rewording f act) s P := finds

theorem within {act : Scan Unit} {count : Nat}
    (inner : (s.cursor.sub count).2.failure = none →
      Finds act { s with cursor := (s.cursor.sub count).1 } P) :
    Finds (Scan.within count act) s ((s.cursor.sub count).2.failure = none ∧ P) := by
  rw [Finds, run_within]
  cases marked : (s.cursor.sub count).2.failure with
  | some t => simp
  | none =>
    rw [eq_self, true_and]
    refine Iff.trans ?_ (inner marked)
    rcases act.run.run { s with cursor := (s.cursor.sub count).1 } with ⟨_ | _, _⟩ <;> rfl

end Scan.Finds

namespace Attribute

/-- Reading an attribute at `s` comes to its body, of the attribute `name`, at `t`. -/
def Enters (pool : ConstantPool) (s : Reading) (name : String) (t : Reading) : Prop :=
  ∃ (index length : Nat) (s₁ s₂ : Reading),
    u2.run.run s = (.ok index, s₁) ∧ u4.run.run s₁ = (.ok length, s₂) ∧ s₂.cursor.failure = none ∧
    pool.utf8 index = .ok name ∧ (s₂.cursor.sub length).2.failure = none ∧
    t = { s₂ with cursor := (s₂.cursor.sub length).1 }

/-- Reading a table at `s` comes to the body of one of its attributes, `name`, at `t`. -/
def Lists (pool : ConstantPool) (s : Reading) (name : String) (t : Reading) : Prop :=
  ∃ (count passed : Nat) (s₁ s₂ : Reading), u2.run.run s = (.ok count, s₁) ∧ passed < count ∧
    (times passed (entry pool (table pool))).run.run s₁ = (.ok (), s₂) ∧ Enters pool s₂ name t

/-- Reading a table at `s` comes to the body of an attribute `name` at `t`, in the table or in a table
nested in code. -/
inductive ComesTo (pool : ConstantPool) : Reading → String → Reading → Prop
  | here {s t : Reading} {name : String} (listed : Lists pool s name t) : ComesTo pool s name t
  | inCode {s t t' u : Reading} {name : String} (listed : Lists pool s "Code" t)
    (front : (code pool (pure ())).run.run t = (.ok (), t')) (nested : ComesTo pool t' name u) :
    ComesTo pool s name u

/-- Reading a table at `s` reads a module descriptor to its end. -/
def ReadsModule (pool : ConstantPool) (s : Reading) : Prop :=
  ∃ t u, ComesTo pool s "Module" t ∧ (moduleInfo pool).run.run t = (.ok (), u)

/-- Reading the body of the attribute `name` at `t` reads a module descriptor to its end. -/
def BodyReadsModule (pool : ConstantPool) (name : String) (t : Reading) : Prop :=
  (name = "Module" ∧ ∃ u, (moduleInfo pool).run.run t = (.ok (), u)) ∨
    name = "Code" ∧ ∃ t', (code pool (pure ())).run.run t = (.ok (), t') ∧ ReadsModule pool t'

/-- A descriptor is come to at the first level or below one of its codes. -/
theorem readsModule_iff {s : Reading} : ReadsModule pool s ↔
    ∃ name t, Lists pool s name t ∧ BodyReadsModule pool name t := by
  constructor
  · rintro ⟨t, u, comes, read⟩
    cases comes with
    | here listed => exact ⟨_, t, listed, .inl ⟨rfl, u, read⟩⟩
    | inCode listed front nested => exact ⟨_, _, listed, .inr ⟨rfl, _, front, t, u, nested, read⟩⟩
  · rintro ⟨name, t, listed, ⟨rfl, u, read⟩ | ⟨rfl, t', front, v, u, nested, read⟩⟩
    · exact ⟨t, u, .here listed, read⟩
    · exact ⟨v, u, .inCode listed front nested, read⟩

theorem code_eq (nested : Scan Unit) : code pool nested = code pool (pure ()) >>= fun _ => nested := by
  simp only [code, bind_assoc, pure_bind]

/-- Only its last step keeps a descriptor. -/
theorem finds_moduleInfo :
    Finds (moduleInfo pool) s (∃ u, (moduleInfo pool).run.run s = (.ok (), u)) := by
  unfold moduleInfo
  iterate 10 refine .ending fun _ _ => ?_
  simp [Finds]

theorem finds_body {name : String} {t : Reading}
    (nested : ∀ t', (code pool (pure ())).run.run t = (.ok (), t') →
      Finds (table pool) t' (ReadsModule pool t')) :
    Finds (body pool (table pool) name) t (BodyReadsModule pool name t) := by
  by_cases isModule : name = "Module"
  · subst isModule
    exact finds_moduleInfo.congr (by simp [BodyReadsModule])
  by_cases isCode : name = "Code"
  · subst isCode
    show Finds (code pool (table pool)) t _
    rw [code_eq]
    refine (Finds.after fun _ => nested).congr ⟨?_, ?_⟩
    · rintro ⟨⟨⟩, t', front, reads⟩
      exact .inr ⟨rfl, t', front, reads⟩
    · rintro (⟨same, _⟩ | ⟨_, t', front, reads⟩)
      · exact absurd same isModule
      · exact ⟨(), t', front, reads⟩
  · have other : Follows still (body pool (table pool) name) :=
      follows_body pool (fun same => absurd same isCode) fun same => absurd same isModule
    exact (Finds.of_still _).congr (by simp [BodyReadsModule, isModule, isCode])

instance steady_code {nested : Scan Unit} [Steady nested] : Steady (code pool nested) := by
  have handlers : ∀ count, Steady (times count do
      skip 6
      let caught ← u2
      if caught ≠ 0 then classRef pool caught) := fun _ => inferInstance
  unfold code
  infer_instance

theorem finds_entry (nested : ∀ t : Reading, t.cursor.rest.length < s.cursor.rest.length →
      Finds (table pool) t (ReadsModule pool t)) :
    Finds (entry pool (table pool)) s (∃ name t, Enters pool s name t ∧ BodyReadsModule pool name t) := by
  refine (Finds.after fun index s₁ indexRun => Finds.after fun length s₂ lengthRun =>
    Finds.after (R := fun _ s₃ => ∃ name, pool.utf8 index = .ok name ∧
      (s₃.cursor.sub length).2.failure = none ∧
      BodyReadsModule pool name { s₃ with cursor := (s₃.cursor.sub length).1 })
    fun _ s₃ passed => ?_).congr ⟨?_, ?_⟩
  · obtain ⟨rfl, unmarked⟩ := checkpoint_eq_ok passed
    cases pool.utf8 index with
    | error cause => exact (Finds.of_still _).congr (by simp)
    | ok name =>
      refine (Finds.within fun _ => Finds.rewording _ (finds_body fun t front => nested t ?_)).congr
        (by simp)
      exact (Steady.suffix front).length_le.trans_lt (content_shorter indexRun lengthRun unmarked)
  · rintro ⟨index, s₁, indexRun, length, s₂, lengthRun, ⟨⟩, s₃, passed, name, named, fits, reads⟩
    obtain ⟨rfl, unmarked⟩ := checkpoint_eq_ok passed
    exact ⟨name, _, ⟨index, length, s₁, s₃, indexRun, lengthRun, unmarked, named, fits, rfl⟩, reads⟩
  · rintro ⟨name, _, ⟨index, length, s₁, s₂, indexRun, lengthRun, unmarked, named, fits, rfl⟩, reads⟩
    exact ⟨index, s₁, indexRun, length, s₂, lengthRun, (), s₂, run_checkpoint unmarked, name, named,
      fits, reads⟩

/-- Reading a table finds a descriptor exactly if it comes to one and reads it to its end. -/
theorem finds_table (s : Reading) : Finds (table pool) s (ReadsModule pool s) := by
  -- codes nest tables, and what is nested has fewer bytes left
  induction size : s.cursor.rest.length using Nat.strong_induction_on generalizing s with
  | _ size ih =>
    subst size
    rw [Finds, run_table_unfold]
    refine (Finds.after fun count s₁ counted => Finds.before (Finds.times count
      fun passed s₂ before => finds_entry fun t shorter => ih _ ?_ t rfl)).congr ?_
    · exact shorter.trans_le ((Steady.suffix before).trans (Steady.suffix counted)).length_le
    · rw [readsModule_iff]
      constructor
      · rintro ⟨count, s₁, counted, passed, few, s₂, before, name, t, enters, reads⟩
        exact ⟨name, t, ⟨count, passed, s₁, s₂, counted, few, before, enters⟩, reads⟩
      · rintro ⟨name, t, ⟨count, passed, s₁, s₂, counted, few, before, enters⟩, reads⟩
        exact ⟨count, s₁, counted, passed, few, s₂, before, name, t, enters, reads⟩

end Attribute

/-- A field or method up to its table of attributes. -/
def memberFront (pool : ConstantPool) : Scan Member := do
  let access ← u2
  let nameIndex ← u2
  let name ← pool.utf8 nameIndex
  let typeIndex ← u2
  let type ← pool.utf8 typeIndex
  descriptor addReferences type
  return { name, descriptor := type, access := ⟨UInt16.ofNat access⟩ }

/-- What stands in front of the fields, and how many there are. -/
def fieldsFront (pool : ConstantPool) : Scan Nat := do
  let access ← u2
  draft ({ · with access := ⟨UInt16.ofNat access⟩ })
  let this ← u2
  let name ← pool.className this
  draft ({ · with name := ClassName.external name })
  readParent pool
  let interfaces ← u2
  times interfaces (readInterface pool)
  checkpoint
  u2

/-- What stands in front of the methods, and how many there are. -/
def methodsFront (pool : ConstantPool) : Scan Nat := do
  let fields ← fieldsFront pool
  times fields (readField pool)
  u2

/-- A class up to its table of attributes. -/
def classFront (pool : ConstantPool) : Scan Unit := do
  let methods ← methodsFront pool
  times methods (readMethod pool)

theorem readMember_eq : readMember pool = do
    let member ← memberFront pool
    Attribute.table pool
    return member := by
  simp only [readMember, memberFront, bind_assoc, pure_bind]

theorem readStructure_eq :
    readStructure pool = classFront pool >>= fun _ => Attribute.table pool := by
  simp only [readStructure, classFront, methodsFront, fieldsFront, bind_assoc]

/-- Members stand one after the other behind `front`, which says how many: reading them at `s` comes to the
table of one of them at `t`. -/
def MemberTable (pool : ConstantPool) (front : Scan Nat) (member : Scan Unit) (s t : Reading) : Prop :=
  ∃ (count passed : Nat) (s₁ s₂ : Reading) (m : Member), front.run.run s = (.ok count, s₁) ∧
    passed < count ∧ (times passed member).run.run s₁ = (.ok (), s₂) ∧
    (memberFront pool).run.run s₂ = (.ok m, t)

/-- Reading the structure of a class at `s` comes to a table of attributes at `t`. -/
inductive TableAt (pool : ConstantPool) (s t : Reading) : Prop
  | ofField (table : MemberTable pool (fieldsFront pool) (readField pool) s t)
  | ofMethod (table : MemberTable pool (methodsFront pool) (readMethod pool) s t)
  | ofClass (front : (classFront pool).run.run s = (.ok (), t))

instance still_draft (edit : Draft → Draft) : Follows still (draft edit) := ⟨fun _ => rfl⟩

instance still_readParent : Follows still (readParent pool) := by
  unfold readParent
  infer_instance

instance still_readInterface : Follows still (readInterface pool) := by
  unfold readInterface
  infer_instance

instance still_fieldsFront : Follows still (fieldsFront pool) := by
  unfold fieldsFront
  iterate 5 refine @Follows.bind _ _ _ _ _ inferInstance fun _ => ?_
  infer_instance

instance still_memberFront : Follows still (memberFront pool) := by
  unfold memberFront
  infer_instance

/-- Reading a field or method at `s` reads a module descriptor to its end. -/
def MemberReadsModule (pool : ConstantPool) (s : Reading) : Prop :=
  ∃ m t, (memberFront pool).run.run s = (.ok m, t) ∧ Attribute.ReadsModule pool t

theorem finds_readMember : Finds (readMember pool) s (MemberReadsModule pool s) := by
  rw [readMember_eq]
  exact .after fun m t _ => .before (Attribute.finds_table t)

theorem finds_readField : Finds (readField pool) s (MemberReadsModule pool s) := .before finds_readMember

theorem finds_readMethod : Finds (readMethod pool) s (MemberReadsModule pool s) :=
  .before finds_readMember

theorem finds_members (pool : ConstantPool) {front : Scan Nat} {member : Scan Unit} (first : Finds front s P)
    (each : ∀ s, Finds member s (MemberReadsModule pool s)) :
    Finds (front >>= fun count => times count member) s
      (P ∨ ∃ t, MemberTable pool front member s t ∧ Attribute.ReadsModule pool t) := by
  refine (Finds.bind first fun count s₁ _ => Finds.times count fun passed s₂ _ => each s₂).congr
    (or_congr_right ⟨?_, ?_⟩)
  · rintro ⟨count, s₁, counted, passed, few, s₂, before, m, t, fronted, reads⟩
    exact ⟨t, ⟨count, passed, s₁, s₂, m, counted, few, before, fronted⟩, reads⟩
  · rintro ⟨t, ⟨count, passed, s₁, s₂, m, counted, few, before, fronted⟩, reads⟩
    exact ⟨count, s₁, counted, passed, few, s₂, before, m, t, fronted, reads⟩

theorem methodsFront_eq : methodsFront pool =
    (fieldsFront pool >>= fun fields => times fields (readField pool)) >>= fun _ => u2 := by
  rw [methodsFront, bind_assoc]

/-- Reading a structure finds a descriptor exactly if one of its tables has one that is read to its end. -/
theorem finds_readStructure : Finds (readStructure pool) s
    (∃ t, TableAt pool s t ∧ Attribute.ReadsModule pool t) := by
  have fields := finds_members pool (s := s) (.of_still (fieldsFront pool)) fun _ => finds_readField
  have counted := Finds.before (f := fun _ => u2) fields
  rw [← methodsFront_eq] at counted
  have methods := finds_members pool counted fun _ => finds_readMethod
  rw [readStructure_eq]
  refine (Finds.bind methods fun _ t _ => Attribute.finds_table t).congr ⟨?_, ?_⟩
  · rintro (((⟨⟨⟩⟩ | ⟨t, table, reads⟩) | ⟨t, table, reads⟩) | ⟨_, t, front, reads⟩)
    · exact ⟨t, .ofField table, reads⟩
    · exact ⟨t, .ofMethod table, reads⟩
    · exact ⟨t, .ofClass front, reads⟩
  · rintro ⟨t, table | table | front, reads⟩
    · exact .inl (.inl (.inr ⟨t, table, reads⟩))
    · exact .inl (.inr ⟨t, table, reads⟩)
    · exact .inr ⟨(), t, front, reads⟩

instance still_readEnd : Follows still readEnd := by
  unfold readEnd
  infer_instance

theorem finds_readBody : Finds (readBody pool) s
    (∃ t, TableAt pool s t ∧ Attribute.ReadsModule pool t) :=
  .before finds_readStructure

end Bytecode

namespace ClassFile

open Bytecode Scan

/-- A `Module` attribute stands in one of the tables that are come to, and its body is read to its end. -/
def ModuleRead (bytes : List UInt8) : Prop :=
  ∃ (major minor : Nat) (pool : ConstantPool) (s₁ s₂ t : Reading),
    readHeader.run.run { cursor := { rest := bytes } } = (.ok (.versioned major minor), s₁) ∧
    ConstantPool.read.run.run s₁ = (.ok pool, s₂) ∧
    TableAt pool s₂ t ∧ Attribute.ReadsModule pool t

variable {bytes : List UInt8}

/-- A class comes with a module descriptor exactly if one was read. -/
theorem isSome_assembleModule {major minor : Nat} {pool : ConstantPool} {s₁ s₂ s₃ s₄ : Reading}
    {read swept : Except Fault Unit}
    (header : readHeader.run.run { cursor := { rest := bytes } } = (.ok (.versioned major minor), s₁))
    (constants : ConstantPool.read.run.run s₁ = (.ok pool, s₂))
    (body : (readBody pool).run.run s₂ = (read, s₃)) (sweep : pool.symbols.run.run s₃ = (swept, s₄)) :
    (assembleModule s₄).isSome = true ↔ ModuleRead bytes := by
  have fresh : s₂.symbols.moduleInfo = none :=
    (Follows.of_run (R := still) constants).trans (Follows.of_run (R := still) header)
  have swept : s₄.symbols.moduleInfo = s₃.symbols.moduleInfo := Follows.of_run (R := still) sweep
  have walked : Finds (readBody pool) s₂ _ := finds_readBody
  rw [Finds, body, fresh] at walked
  rw [assembleModule, Option.isSome_map, swept, walked]
  constructor
  · rintro (⟨⟨⟩⟩ | ⟨t, table, reads⟩)
    exact ⟨major, minor, pool, s₁, s₂, t, header, constants, table, reads⟩
  · rintro ⟨_, _, pool', s₁', s₂', t, header', constants', table, reads⟩
    rw [header] at header'
    cases header'
    rw [constants] at constants'
    cases constants'
    exact .inr ⟨t, table, reads⟩

end ClassFile

end ClasspathAudit
