import ClasspathAudit.Assembly.ClassSpec
import ClasspathAudit.Proofs.Bytecode.ClassNames
import ClasspathAudit.Proofs.Bytecode.ConstantPool
import ClasspathAudit.Proofs.Bytecode.Motion
import ClasspathAudit.Proofs.Bytecode.NameSet
import ClasspathAudit.Proofs.Text.Utf8

/-!
The references of an accepted class. Two passes find them, one over the structure and one over the
constant pool; together they miss no name that the header, the members, the annotations or the member
references of the class bring up.
-/

namespace ClasspathAudit

namespace Bytecode

open Scan

variable {α β : Type} {pool : ConstantPool}

/-- Ending well, an action carries a property of readings on. -/
def Scan.Carries (I : Reading → Prop) (act : Scan α) : Prop :=
  ∀ s s' a, act.run.run s = (.ok a, s') → I s → I s'

namespace Scan.Carries

variable {I : Reading → Prop}

theorem bind {act : Scan α} {f : α → Scan β} (first : Carries I act)
    (second : ∀ a, Carries I (f a)) : Carries I (act >>= f) := by
  intro s s' b run before
  obtain ⟨a, s₁, firstRun, secondRun⟩ := run_bind_eq_ok run
  exact second a s₁ s' b secondRun (first s s₁ a firstRun before)

theorem times {act : Scan Unit} (each : Carries I act) (count : Nat) :
    Carries I (Scan.times count act) := by
  induction count with
  | zero =>
    intro s s' a run before
    cases run
    exact before
  | succ count ih => exact bind each fun _ => ih

end Scan.Carries

/-- A name that stands for an entry of the pool. -/
def FromPool (pool : ConstantPool) (name : String) : Prop :=
  ∃ i internal, pool.className i = .ok internal ∧ name = ClassName.external internal

/-- What the walk over the structure keeps true: the header names come from the pool, and the types of
the members and the annotation types are among the references. -/
structure Tracks (pool : ConstantPool) (s : Reading) : Prop where
  parent : s.draft.superName = "" ∨ FromPool pool s.draft.superName
  interfaces : ∀ name ∈ s.draft.interfaces, FromPool pool name
  fields : ∀ m ∈ s.draft.fields, (Descriptor.scan m.descriptor).1 ⊆ s.symbols.references
  methods : ∀ m ∈ s.draft.methods, (Descriptor.scan m.descriptor).1 ⊆ s.symbols.references
  annotations : s.symbols.annotations ⊆ s.symbols.references

namespace Tracks

theorem grown {s s' : Reading} (tracks : Tracks pool s) (grown : Grown s s') : Tracks pool s' where
  parent := grown.draft ▸ tracks.parent
  interfaces := grown.draft ▸ tracks.interfaces
  fields m member :=
    List.Subset.trans (tracks.fields m (grown.draft ▸ member)) grown.references
  methods m member :=
    List.Subset.trans (tracks.methods m (grown.draft ▸ member)) grown.references
  annotations := grown.annotations tracks.annotations

theorem of_grows (act : Scan α) [Grows act] : Carries (Tracks pool) act := by
  intro s s' a run tracks
  exact tracks.grown (Grows.of_run run)

end Tracks

/-- A type that was read without fault has its names among the references. -/
theorem descriptor_found {value : String} {s s' : Reading}
    (run : (Scan.descriptor addReferences value).run.run s = (.ok (), s')) :
    (Descriptor.scan value).1 ⊆ s'.symbols.references := by
  unfold Scan.descriptor at run
  obtain ⟨_, s₁, added, ending⟩ := run_bind_eq_ok run
  have found : (Descriptor.scan value).1 ⊆ s₁.symbols.references := by
    cases added
    intro name member
    exact List.mem_append_left _ (List.mem_reverse.mpr member)
  refine List.Subset.trans found (Grown.references ?_)
  split at ending
  · cases ending
  · cases ending
    exact Grown.refl _

theorem readMember_found {s s' : Reading} {m : Member}
    (run : (readMember pool).run.run s = (.ok m, s')) :
    (Descriptor.scan m.descriptor).1 ⊆ s'.symbols.references := by
  unfold readMember at run
  obtain ⟨access, s₁, _, run⟩ := run_bind_eq_ok run
  obtain ⟨nameIndex, s₂, _, run⟩ := run_bind_eq_ok run
  obtain ⟨name, s₃, _, run⟩ := run_bind_eq_ok run
  obtain ⟨typeIndex, s₄, _, run⟩ := run_bind_eq_ok run
  obtain ⟨type, s₅, _, run⟩ := run_bind_eq_ok run
  obtain ⟨_, s₆, typed, run⟩ := run_bind_eq_ok run
  obtain ⟨_, s₇, table, run⟩ := run_bind_eq_ok run
  cases run
  exact List.Subset.trans (descriptor_found typed) (Grows.of_run table).references

namespace Tracks

/-- Filling in a part of the class that the invariant does not speak of. -/
theorem of_draft {edit : Draft → Draft}
    (keeps : ∀ d, (edit d).superName = d.superName ∧ (edit d).interfaces = d.interfaces ∧
      (edit d).fields = d.fields ∧ (edit d).methods = d.methods) :
    Carries (Tracks pool) (draft edit) := by
  rintro s _ _ ⟨⟩ tracks
  obtain ⟨parent, interfaces, fields, methods⟩ := keeps s.draft
  refine ⟨?_, ?_, ?_, ?_, tracks.annotations⟩
  · exact parent.symm ▸ tracks.parent
  · exact interfaces.symm ▸ tracks.interfaces
  · exact fields.symm ▸ tracks.fields
  · exact methods.symm ▸ tracks.methods

theorem readParent : Carries (Tracks pool) (readParent pool) := by
  intro s s' _ run tracks
  obtain ⟨index, s₁, indexRun, run⟩ := run_bind_eq_ok run
  have tracks := tracks.grown (Grows.of_run indexRun)
  split at run
  · obtain ⟨name, s₂, named, run⟩ := run_bind_eq_ok run
    cases run
    rw [run_lift] at named
    obtain ⟨found, rfl⟩ := Prod.mk.inj named
    exact { tracks with parent := .inr ⟨index, name, found, rfl⟩ }
  · cases run
    exact tracks

theorem readInterface : Carries (Tracks pool) (readInterface pool) := by
  intro s s' _ run tracks
  obtain ⟨index, s₁, indexRun, run⟩ := run_bind_eq_ok run
  have tracks := tracks.grown (Grows.of_run indexRun)
  obtain ⟨name, s₂, named, run⟩ := run_bind_eq_ok run
  cases run
  rw [run_lift] at named
  obtain ⟨found, rfl⟩ := Prod.mk.inj named
  refine { tracks with interfaces := ?_ }
  intro other member
  rcases List.mem_append.mp member with old | new
  · exact tracks.interfaces other old
  · exact ⟨index, name, found, List.mem_singleton.mp new⟩

theorem readField : Carries (Tracks pool) (readField pool) := by
  intro s s' _ run tracks
  obtain ⟨m, s₁, memberRun, run⟩ := run_bind_eq_ok run
  have tracks := tracks.grown (Grows.of_run memberRun)
  have found := readMember_found memberRun
  cases run
  exact { tracks with fields := List.forall_mem_append.mpr ⟨tracks.fields, List.forall_mem_singleton.mpr found⟩ }

theorem readMethod : Carries (Tracks pool) (readMethod pool) := by
  intro s s' _ run tracks
  obtain ⟨m, s₁, memberRun, run⟩ := run_bind_eq_ok run
  have tracks := tracks.grown (Grows.of_run memberRun)
  have found := readMember_found memberRun
  cases run
  exact { tracks with methods := List.forall_mem_append.mpr ⟨tracks.methods, List.forall_mem_singleton.mpr found⟩ }

/-- The walk over the whole structure. -/
theorem readStructure : Carries (Tracks pool) (readStructure pool) := by
  refine .bind (of_grows _) fun access => ?_
  refine .bind (of_draft fun d => ⟨rfl, rfl, rfl, rfl⟩) fun _ => ?_
  refine .bind (of_grows _) fun this => ?_
  refine .bind (of_grows _) fun name => ?_
  refine .bind (of_draft fun d => ⟨rfl, rfl, rfl, rfl⟩) fun _ => ?_
  refine .bind readParent fun _ => ?_
  refine .bind (of_grows _) fun interfaces => ?_
  refine .bind (.times readInterface _) fun _ => ?_
  refine .bind (of_grows _) fun _ => ?_
  refine .bind (of_grows _) fun fields => ?_
  refine .bind (.times readField _) fun _ => ?_
  refine .bind (of_grows _) fun methods => ?_
  refine .bind (.times readMethod _) fun _ => ?_
  exact of_grows _

theorem readBody : Carries (Tracks pool) (readBody pool) := by
  refine .bind readStructure fun _ => ?_
  unfold readEnd
  exact of_grows _

end Tracks

/-- What passing over an entry has found. -/
def Found (pool : ConstantPool) (s : Reading) : Constant → Prop
  | .classInfo i => ∀ name, pool.utf8 i = .ok name → Text.hasStart "[" name = false →
    ClassName.external name ∈ s.symbols.references
  | .nameAndType _ i => ∀ type, pool.utf8 i = .ok type →
    (Descriptor.scan type).1 ⊆ s.symbols.references
  | _ => True

theorem Found.grown {s s' : Reading} (grown : Grown s s') {entry : Constant}
    (found : Found pool s entry) : Found pool s' entry := by
  cases entry with
  | classInfo i => exact fun name text plain => grown.references (found name text plain)
  | nameAndType i j => exact fun type text => List.Subset.trans (found type text) grown.references
  | _ => trivial

theorem symbolsOf_found {entry : Constant} {s s' : Reading}
    (run : (pool.symbolsOf entry).run.run s = (.ok (), s')) : Found pool s' entry := by
  cases entry with
  | classInfo i =>
    intro name text plain
    obtain ⟨name', s₁, named, run⟩ := run_bind_eq_ok run
    rw [run_lift, text] at named
    cases named
    rw [Scan.className, plain] at run
    split at run
    · contradiction
    · split at run
      · cases run
      · cases run
        exact List.mem_append_left _ (by simp)
  | nameAndType i j =>
    intro type text
    obtain ⟨type', s₁, named, run⟩ := run_bind_eq_ok run
    rw [run_lift, text] at named
    cases named
    exact descriptor_found run
  | _ => trivial

theorem run_rewording_eq_ok {f : Fault → Fault} {act : Scan Unit} {s s' : Reading}
    (run : (rewording f act).run.run s = (.ok (), s')) : act.run.run s = (.ok (), s') := by
  rw [run_rewording] at run
  obtain ⟨outcome, same⟩ := Prod.mk.inj run
  refine Prod.ext ?_ same
  cases result : (act.run.run s).1 with
  | error fault => simp [result, Except.mapError] at outcome
  | ok a => rfl

/-- The pass over the pool leaves no entry out. -/
theorem symbolsFrom_found {slots : List (Option Constant)} {index : Nat} {s s' : Reading}
    (run : (pool.symbolsFrom index slots).run.run s = (.ok (), s')) {entry : Constant}
    (inside : some entry ∈ slots) : Found pool s' entry := by
  induction slots generalizing index s with
  | nil => simp at inside
  | cons slot slots ih =>
    cases slot with
    | none =>
      have later : some entry ∈ slots := by simpa using inside
      exact ih run later
    | some first =>
      obtain ⟨_, s₁, firstRun, rest⟩ := run_bind_eq_ok run
      rcases List.mem_cons.mp inside with same | later
      · cases same
        exact (symbolsOf_found (run_rewording_eq_ok firstRun)).grown (Grows.of_run rest)
      · exact ih rest later

/-- A reference is resolved from a class that is no array and a name with its type. -/
theorem memberRef_eq_some {slot : Option Constant} {r : MemberRef}
    (found : pool.memberRef slot = .ok (some r)) :
    ∃ i j owner, pool.className i = .ok owner ∧ Text.hasStart "[" owner = false ∧
      r.owner = ClassName.external owner ∧ pool.nameAndType j = .ok (r.name, r.descriptor) := by
  have resolved : ∀ {kind i j}, ConstantPool.memberRef.resolve pool kind i j = .ok (some r) →
      ∃ i j owner, pool.className i = .ok owner ∧ Text.hasStart "[" owner = false ∧
        r.owner = ClassName.external owner ∧ pool.nameAndType j = .ok (r.name, r.descriptor) := by
    intro kind i j found
    unfold ConstantPool.memberRef.resolve at found
    obtain ⟨owner, owned, found⟩ := bind_eq_ok found
    split at found
    · cases found
    next plain =>
      obtain ⟨_, paired, found⟩ := bind_eq_ok found
      cases found
      exact ⟨i, j, owner, owned, by simpa using plain, rfl, paired⟩
  match slot, found with
  | some (.fieldRef _ _), found => exact resolved found
  | some (.methodRef _ _), found => exact resolved found
  | some (.interfaceMethodRef _ _), found => exact resolved found

theorem memberRefs_eq_ok {refs : List MemberRef} (found : pool.memberRefs = .ok refs) {r : MemberRef}
    (member : r ∈ refs) : ∃ slot, pool.memberRef slot = .ok (some r) := by
  unfold ConstantPool.memberRefs at found
  obtain ⟨answers, mapped, found⟩ := bind_eq_ok found
  cases found
  have answered : some r ∈ answers := by simpa using member
  obtain ⟨slot, _, value⟩ := mem_of_mapM_eq_ok mapped answered
  exact ⟨slot, value⟩

end Bytecode

namespace ClassFile

open Bytecode

/-- Whatever is no class file fails on the way; with a sound header and a sound pool, the class is degraded
if its version is too new, and else it is accepted if nothing fails behind the pool. -/
theorem parse_cases (bytes : List UInt8) :
    (∃ defect, parse bytes = .malformed defect) ∨
      ∃ (major minor : Nat) (pool : ConstantPool) (s₁ s₂ s₃ s₄ : Reading) (read swept : Except Fault Unit),
        readHeader.run.run { cursor := { rest := bytes } } = (.ok (.versioned major minor), s₁) ∧
        Version.minMajor ≤ major ∧
        ConstantPool.read.run.run s₁ = (.ok pool, s₂) ∧
        (readBody pool).run.run s₂ = (read, s₃) ∧
        pool.symbols.run.run s₃ = (swept, s₄) ∧
        ((Version.maxMajor < major ∧
            parse bytes = .degraded (assemble bytes major minor s₄ [] true) (assembleModule s₄)) ∨
          (major ≤ Version.maxMajor ∧ read = .ok () ∧ swept = .ok () ∧ ∃ refs, pool.memberRefs = .ok refs ∧
            parse bytes = .accepted (assemble bytes major minor s₄ refs false) (assembleModule s₄))) := by
  unfold parse
  split
  · exact .inl ⟨_, rfl⟩
  · exact .inl ⟨_, rfl⟩
  next major minor s₁ header =>
    split
    · exact .inl ⟨_, rfl⟩
    next notOld =>
      split
      · exact .inl ⟨_, rfl⟩
      next pool s₂ constants =>
        rcases body : (readBody pool).run.run s₂ with ⟨read, s₃⟩
        rcases sweep : pool.symbols.run.run s₃ with ⟨swept, s₄⟩
        simp only [parseBody, body, sweep]
        split
        next new =>
          exact .inr ⟨major, minor, pool, s₁, s₂, s₃, s₄, read, swept, header, not_lt.mp notOld, constants,
            body, sweep, .inl ⟨new, rfl⟩⟩
        next notNew =>
          split
          · exact .inl ⟨_, rfl⟩
          · exact .inl ⟨_, rfl⟩
          · exact .inl ⟨_, rfl⟩
          next refs found =>
            exact .inr ⟨major, minor, pool, s₁, s₂, s₃, s₄, _, _, header, not_lt.mp notOld, constants,
              body, sweep, .inr ⟨not_lt.mp notNew, rfl, rfl, refs, found, rfl⟩⟩

/-- How a class comes to be accepted: the version is known, and the header, the pool, the structure and
the pass over the pool all end well. -/
theorem parse_eq_accepted {bytes : List UInt8} {c : JavaClass} {m : Option ModuleDescriptor}
    (accepted : parse bytes = .accepted c m) :
    ∃ (major minor : Nat) (pool : ConstantPool) (refs : List MemberRef) (s₁ s₂ s₃ s₄ : Reading),
      readHeader.run.run { cursor := { rest := bytes } } = (.ok (.versioned major minor), s₁) ∧
      (Version.minMajor ≤ major ∧ major ≤ Version.maxMajor) ∧
      ConstantPool.read.run.run s₁ = (.ok pool, s₂) ∧
      (readBody pool).run.run s₂ = (.ok (), s₃) ∧
      pool.symbols.run.run s₃ = (.ok (), s₄) ∧
      pool.memberRefs = .ok refs ∧ c = assemble bytes major minor s₄ refs false := by
  rcases parse_cases bytes with ⟨defect, malformed⟩ | ⟨major, minor, pool, s₁, s₂, s₃, s₄, read, swept,
    header, notOld, constants, body, sweep, ⟨_, degraded⟩ | ⟨notNew, rfl, rfl, refs, found, same⟩⟩
  · rw [accepted] at malformed
    cases malformed
  · rw [accepted] at degraded
    cases degraded
  · rw [accepted] at same
    cases same
    exact ⟨major, minor, pool, refs, s₁, s₂, s₃, s₄, header, ⟨notOld, notNew⟩, constants, body, sweep, found,
      rfl⟩

/-- A name that a class knows: one of its references, or its own. -/
def Knows (c : JavaClass) (name : String) : Prop := name ∈ c.references ∨ name = c.name

theorem knows_assemble {bytes : List UInt8} {major minor : Nat} {s : Reading} {refs : List MemberRef}
    {name : String} (found : name ∈ s.symbols.references) :
    Knows (assemble bytes major minor s refs false) name := by
  by_cases own : name = s.draft.name
  · exact .inr own
  · refine .inl (mem_sortedNames.mpr (List.mem_filter.mpr ⟨found, ?_⟩))
    simpa using own

/-- The pass over the pool finds every class that an entry names. -/
theorem mem_references_of_className {pool : ConstantPool} {s s' : Reading}
    (sweep : pool.symbols.run.run s = (.ok (), s')) {i : Nat} {internal : String}
    (named : pool.className i = .ok internal) (plain : Text.hasStart "[" internal = false) :
    ClassName.external internal ∈ s'.symbols.references := by
  obtain ⟨j, entry, text⟩ := ConstantPool.className_eq_ok named
  exact symbolsFrom_found sweep (ConstantPool.get_eq_ok entry) internal text plain

theorem mem_references_of_fromPool {pool : ConstantPool} {s s' : Reading}
    (sweep : pool.symbols.run.run s = (.ok (), s')) {name : String} (named : FromPool pool name)
    (plain : Text.hasStart "[" name = false) : name ∈ s'.symbols.references := by
  obtain ⟨i, internal, found, rfl⟩ := named
  rw [ClassName.hasStart_array_external] at plain
  exact mem_references_of_className sweep found plain

theorem subset_references_of_nameAndType {pool : ConstantPool} {s s' : Reading}
    (sweep : pool.symbols.run.run s = (.ok (), s')) {i : Nat} {name type : String}
    (found : pool.nameAndType i = .ok (name, type)) :
    (Descriptor.scan type).1 ⊆ s'.symbols.references := by
  obtain ⟨j, k, entry, _, text⟩ := ConstantPool.nameAndType_eq_ok found
  exact symbolsFrom_found sweep (ConstantPool.get_eq_ok entry) type text

/-- The references of an accepted class ascend in byte order without the class itself, miss none of the
names that the class brings up elsewhere, and are what bisection finds. -/
theorem references_complete {bytes : List UInt8} {c : JavaClass} {m : Option ModuleDescriptor}
    (accepted : parse bytes = .accepted c m) :
    (c.references.Pairwise (fun a b => Text.encodeUtf8 a < Text.encodeUtf8 b) ∧
        c.name ∉ c.references) ∧
      ((c.superName ≠ "" → Text.hasStart "[" c.superName = false → Knows c c.superName) ∧
        (∀ name ∈ c.interfaces, Text.hasStart "[" name = false → Knows c name) ∧
        (∀ name ∈ c.annotations, Knows c name) ∧
        (∀ r ∈ c.memberRefs, Knows c r.owner) ∧
        (∀ member ∈ c.fields ++ c.methods, ∀ name ∈ (Descriptor.scan member.descriptor).1,
          Knows c name) ∧
        ∀ r ∈ c.memberRefs, ∀ name ∈ (Descriptor.scan r.descriptor).1, Knows c name) ∧
      ∀ name, c.mentions name = true ↔ name ∈ c.references := by
  obtain ⟨major, minor, pool, refs, s₁, s₂, s₃, s₄, header, -, constants, body, sweep, resolved, rfl⟩ :=
    parse_eq_accepted accepted
  have start : Tracks pool { cursor := { rest := bytes } } :=
    ⟨.inl rfl, by simp, by simp, by simp, List.Subset.refl _⟩
  have walked : Tracks pool s₃ := Tracks.readBody s₂ s₃ () body
    ((start.grown (Scan.Grows.of_run header)).grown (Scan.Grows.of_run constants))
  have tracks : Tracks pool s₄ := walked.grown (Scan.Grows.of_run sweep)
  have ascending : (assemble bytes major minor s₄ refs false).references.Pairwise (· < ·) :=
    sortedNames_pairwise _
  refine ⟨⟨ascending.imp Text.encodeUtf8_lt, ?_⟩, ⟨?_, ?_, ?_, ?_, ?_, ?_⟩,
    JavaClass.mentions_iff_mem ascending⟩
  · simp [assemble]
  · intro present plain
    rcases tracks.parent with absent | named
    · exact absurd absent present
    · exact knows_assemble (mem_references_of_fromPool sweep named plain)
  · intro name listed plain
    exact knows_assemble (mem_references_of_fromPool sweep (tracks.interfaces name listed) plain)
  · intro name listed
    have marked : name ∈ s₄.symbols.annotations :=
      (List.mem_filter.mp (mem_sortedNames.mp listed)).1
    exact knows_assemble (tracks.annotations marked)
  · intro r listed
    obtain ⟨slot, answer⟩ := memberRefs_eq_ok resolved listed
    obtain ⟨i, _, owner, owned, plain, same, _⟩ := memberRef_eq_some answer
    rw [same]
    exact knows_assemble (mem_references_of_className sweep owned plain)
  · intro member listed name mentioned
    rcases List.mem_append.mp listed with isField | isMethod
    · exact knows_assemble (tracks.fields member isField mentioned)
    · exact knows_assemble (tracks.methods member isMethod mentioned)
  · intro r listed name mentioned
    obtain ⟨slot, answer⟩ := memberRefs_eq_ok resolved listed
    obtain ⟨_, j, _, _, _, _, paired⟩ := memberRef_eq_some answer
    exact knows_assemble (subset_references_of_nameAndType sweep paired mentioned)

/-- A class that names others in its header, in a member, in an annotation and in the pool alone. -/
def account : Assembly.ClassSpec where
  name := "bank.Account"
  superName := "bank.Party"
  interfaces := ["bank.Audited"]
  fields := [{ name := "owner", descriptor := "Lbank/Owner;" }]
  annotations := [{ type := "bank.Traced" }]
  refs := [{ kind := .method, owner := "bank.Entry", name := "post", descriptor := "()Lbank/Sink;" }]

theorem references_complete_account :
    ∃ c m, parse account.bytes = .accepted c m ∧ c.superName = "bank.Party" ∧
      Knows c "bank.Party" ∧ c.name ∉ c.references ∧
      ∀ name, c.mentions name = true ↔ name ∈ c.references := by
  have checked : (parse account.bytes).failure?.isNone = true ∧
      (parse account.bytes).class?.map JavaClass.superName = some "bank.Party" := by
    decide +kernel
  cases outcome : parse account.bytes with
  | accepted c m =>
    have complete := references_complete outcome
    have parent : c.superName = "bank.Party" := by
      rw [outcome] at checked
      exact Option.some.inj checked.2
    have known := complete.2.1.1
    rw [parent] at known
    exact ⟨c, m, rfl, parent, known (by decide) (by decide), complete.1.2, complete.2.2⟩
  | degraded c m =>
    rw [outcome] at checked
    cases checked.1
  | malformed defect =>
    rw [outcome] at checked
    cases checked.1

end ClassFile

end ClasspathAudit
