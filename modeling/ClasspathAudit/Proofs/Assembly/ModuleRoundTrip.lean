import ClasspathAudit.Proofs.Assembly.Modules

/-!
Class files of module descriptors, read back whole. A descriptor returns as it was given, its packages in
ascending order, and a version that is not known is no hindrance.
-/

namespace ClasspathAudit

namespace Bytecode.Effect

/-- An effect that is none on modules and packages. -/
def Quiet (e : Effect) : Prop := e.found.moduleInfo = none ∧ e.found.packages = []

theorem Quiet.names (found : List String) : (Effect.names found).Quiet := ⟨rfl, rfl⟩

theorem Quiet.all {effects : List Effect} (each : ∀ e ∈ effects, e.Quiet) :
    (Effect.all effects).Quiet := by
  induction effects with
  | nil => exact ⟨rfl, rfl⟩
  | cons e effects ih =>
    obtain ⟨noModule, noPackages⟩ := each e List.mem_cons_self
    obtain ⟨noModule', noPackages'⟩ := ih fun e' member => each e' (List.mem_cons_of_mem e member)
    simp [Quiet, andThen, Symbols.gain, noModule, noPackages, noModule', noPackages']

end Bytecode.Effect

namespace Assembly

open Bytecode (Constant ConstantPool Draft Effect Scan)
open Bytecode.Scan (Reads)

variable {classes : List String} {m : ModuleDescriptor} {records : List Record}

theorem sweepEffect_quiet (records : List Record) : (sweepEffect records).Quiet := by
  refine .all fun e member => ?_
  obtain ⟨s, _, rfl⟩ := List.mem_map.mp member
  cases s.item <;> exact ⟨rfl, rfl⟩

theorem usesEffect_quiet (uses : List String) : (usesEffect uses).Quiet := by
  refine .all fun e member => ?_
  obtain ⟨name, _, rfl⟩ := List.mem_map.mp member
  exact .names [name]

theorem usesEffect_edit (uses : List String) : (usesEffect uses).edit = id :=
  Effect.edit_all_eq_id (by simp)

/-- What reading the list of packages finds. -/
def packagesEffect (packages : List String) : Effect := ⟨{ packages }, id⟩

theorem all_packagesEffect (packages : List String) :
    Effect.all (packages.map fun name => packagesEffect [name]) = packagesEffect packages := by
  induction packages with
  | nil => rfl
  | cons name packages ih =>
    rw [List.map_cons, Effect.all_cons, ih]
    simp [packagesEffect, Effect.andThen, Bytecode.Symbols.gain]

theorem packageTable_writes {packages : List String} (few : packages.length < 65536)
    (noSlash : ∀ name ∈ packages, '/' ∉ name.toList) :
    Writes (Admitted classes) (Admitted classes) (packageTable packages) fun pool attributes =>
      attributes.length ≤ 1 ∧ Listed pool attributes (packagesEffect packages) := by
  have each : ∀ name ∈ packages, Writes (Admitted classes) (Admitted classes) (packageIndex name)
      fun pool part => part.length ≤ 2 ∧ Reads (do
        let index ← Scan.u2
        let name ← pool.moduleOrPackage index
        modify fun s => { s with symbols :=
          { s.symbols with packages := s.symbols.packages ++ [ClassName.external name] } }) part ()
        (packagesEffect [name]) := by
    intro name inside
    refine (packageIndex_writes name).imp fun pool part named => ⟨named.length.le, ?_⟩
    obtain ⟨i, rfl, bounded, found⟩ := named
    refine Reads.bind_only (Reads.u2 bounded) (Reads.bind_still (Reads.lift found) ?_)
    rw [ClassName.external_internal (noSlash name inside)]
    intro s rest sound stands
    simp [Bytecode.Reading.after, Bytecode.Symbols.gain, packagesEffect]
  unfold packageTable
  split
  next empty =>
    have none : packages = [] := by simpa using empty
    subst none
    exact Writes.pure fun pool => ⟨by simp, fun fuel => .nil⟩
  next =>
    refine (counted_tabled_narrow each).map ?_
    rintro pool bytes ⟨size, tabled⟩
    rw [all_packagesEffect] at tabled
    refine ⟨by simp, fun fuel => .single ⟨by dsimp only; omega, ?_⟩⟩
    exact tabled.reads few

/-- The classes that the file of a descriptor names. -/
def moduleClasses (m : ModuleDescriptor) : List String := ClassName.moduleInfo :: serviceNames m

/-- What reading the file of a descriptor leaves. -/
def structureEffect (m : ModuleDescriptor) : Effect :=
  (Effect.fills ({ · with access := ⟨0x8000⟩ })).andThen
    ((Effect.fills ({ · with name := ClassName.moduleInfo })).andThen
      ((declaredEffect m).andThen (packagesEffect m.packages)))

theorem edit_structureEffect (m : ModuleDescriptor) :
    (structureEffect m).edit {} = { access := ⟨0x8000⟩, name := ClassName.moduleInfo } := by
  simp [structureEffect, declaredEffect, usesEffect_edit, packagesEffect]

theorem moduleStructure_writes (describable : Describable m) :
    Writes (Admitted (moduleClasses m)) (Admitted (moduleClasses m)) (moduleStructure m)
      fun pool bytes => Reads (Bytecode.readStructure pool) bytes () (structureEffect m) := by
  have listed : ∀ name ∈ m.packages, '/' ∉ name.toList := fun name inside =>
    describable.packages name (List.mem_append_right _ inside)
  refine Writes.bind (classIndex_writes admitted_welcomes List.mem_cons_self) fun this => ?_
  refine Writes.bind (moduleBody_writes describable (List.subset_cons_self _ _)) fun body => ?_
  refine Writes.bind (packageTable_writes (Nat.lt_succ_of_le describable.fewPackages) listed)
    fun packages => ?_
  refine (table_writes admitted_welcomes _).map ?_
  rintro pool table tableReads ⟨few, packagesListed⟩ ⟨size, bodyReads⟩ ⟨i, rfl, _, bounded, found⟩
  have small : body.length < 4294967296 := by
    rw [size]
    exact describable.small
  have bodyListed : Listed pool [⟨"Module", body⟩] (declaredEffect m) := fun fuel =>
    .single ⟨small, bodyReads⟩
  have tableRead := tableReads (by simp only [List.length_cons]; omega) _
    (bodyListed.append packagesListed)
  have sameName : ClassName.external (ClassName.internal ClassName.moduleInfo) =
      ClassName.moduleInfo := by decide
  simp only [List.append_assoc]
  refine Reads.bind_silent (Reads.u2 (by decide)) ?_
  refine Reads.bind_first (Reads.draft _) ?_
  refine Reads.bind_silent (Reads.u2 bounded) (Reads.bind_still (Reads.lift found) ?_)
  rw [sameName]
  refine Reads.bind_first (Reads.draft _) ?_
  refine Reads.bind_silent (Reads.bind_last (Reads.u2 (by decide)) (Reads.pure ())) ?_
  refine Reads.bind_silent (Reads.u2 (by decide)) (Reads.bind_still (Reads.pure ()) ?_)
  refine Reads.bind_still Reads.checkpoint ?_
  refine Reads.bind_silent (Reads.u2 (by decide)) (Reads.bind_still (Reads.pure ()) ?_)
  exact Reads.bind_silent (Reads.u2 (by decide)) (Reads.bind_still (Reads.pure ()) tableRead)

theorem symbolsOf_reads_admitted {p : Pool} (laid : Laid p records)
    (small : (cells records).length < 65535) (admitted : Admitted classes records)
    (services : ∀ name ∈ classes, IsService name) {s : Record} (member : s ∈ records) :
    Reads ((poolOf records).symbolsOf s.constant) [] () s.item.effect := by
  obtain ⟨item, constant, index⟩ := s
  have stored := laid.stored member
  have admits := admitted _ member
  simp only at stored admits ⊢
  cases stored with
  | classInfo name =>
    obtain ⟨external, inside, rfl⟩ := admits
    have service := services external inside
    exact symbolsOf_classInfo_reads laid small name service.nonempty service.noArray
  | utf8 | moduleInfo | packageInfo => exact Reads.pure ()
  | _ => cases admits

/-- A descriptor has no references to members. -/
theorem memberRef_admitted {p : Pool} (laid : Laid p records) (admitted : Admitted classes records)
    {s : Record} (member : s ∈ records) :
    (poolOf records).memberRef (some s.constant) = .ok s.item.memberRef? := by
  obtain ⟨item, constant, index⟩ := s
  have stored := laid.stored member
  have admits := admitted _ member
  simp only at stored admits ⊢
  cases stored with
  | field | method | interfaceMethod => cases admits
  | _ => rfl

/-- A descriptor with its packages in ascending order. -/
def ordered (m : ModuleDescriptor) : ModuleDescriptor :=
  { m with packages := m.packages.mergeSort fun a b => decide (a ≤ b) }

theorem parse_moduleBytes (describable : Describable m) {major : Nat} (notOld : 45 ≤ major)
    (small : major < 65536) :
    ∃ c : JavaClass, c.name = ClassName.moduleInfo ∧ c.superName = "" ∧
      ClassFile.parse (moduleBytes m major) = if Version.maxMajor < (major : Int) then
        .degraded c (some (ordered m)) else .accepted c (some (ordered m)) := by
  obtain ⟨records, laid, admitted, written⟩ :=
    moduleStructure_writes describable {} [] .empty (by simp [Admitted])
  rw [List.append_nil] at laid admitted written
  have few : (cells records).length < 65535 := by
    have slots := describable.fewSlots
    rw [laid.cells_length]
    omega
  have texts : ∀ value i, Stands records (.utf8 value) i →
      (Text.ModifiedUtf8.encode value).length < 65536 := fun value i stands =>
    laid.texts_fit (moduleStructure_fitting describable.shortTexts {} (List.forall_mem_nil _)) stands
  have services : ∀ name ∈ moduleClasses m, IsService name := by
    intro name inside
    rcases List.mem_cons.mp inside with rfl | named
    · decide
    · exact describable.services name named
  obtain ⟨final, symbols, draft, parsed⟩ := parse_versioned notOld small (laid.pool_reads few texts)
    (written _ (laid.resolves few))
    (sweep_reads fun _ member => symbolsOf_reads_admitted laid few admitted services member)
    (memberRefs_of_each fun _ member => memberRef_admitted laid admitted member)
  rw [Effect.edit_andThen, edit_sweepEffect, Function.id_comp, edit_structureEffect] at draft
  have described : ClassFile.assembleModule final = some (ordered m) := by
    obtain ⟨noModule, noPackages⟩ := usesEffect_quiet m.uses
    obtain ⟨noModule', noPackages'⟩ := sweepEffect_quiet records
    simp [ClassFile.assembleModule, symbols, structureEffect, declaredEffect, packagesEffect,
      Effect.andThen, Bytecode.Symbols.gain, noModule, noPackages, noModule', noPackages', declared,
      ordered]
  rw [described] at parsed
  by_cases new : Version.maxMajor < (major : Int)
  · rw [if_pos new] at parsed
    refine ⟨_, ?_, ?_, by rw [if_pos new]; exact parsed⟩ <;> simp only [ClassFile.assemble, draft]
  · rw [if_neg new] at parsed
    refine ⟨_, ?_, ?_, by rw [if_neg new]; exact parsed⟩ <;> simp only [ClassFile.assemble, draft]

/-- Every module that a class file can describe is read back from it, its packages in ascending order,
and the class around it has the name of all descriptors and no superclass. -/
theorem parseModule_moduleBytes (describable : Describable m) {major : Nat} (notOld : 45 ≤ major)
    (small : major ≤ 65535) :
    (∃ packages : List String, packages.Perm m.packages ∧ packages.Pairwise (· ≤ ·) ∧
      ClassFile.parseModule (moduleBytes m major) = .ok { m with packages }) ∧
    ∃ c : JavaClass, (ClassFile.parse (moduleBytes m major)).class? = some c ∧
      c.name = "module-info" ∧ c.superName = "" ∧
      (major ≤ 69 → (ClassFile.parse (moduleBytes m major)).failure? = none) := by
  obtain ⟨c, named, noParent, parsed⟩ := parse_moduleBytes describable notOld (Nat.lt_succ_of_le small)
  refine ⟨⟨(ordered m).packages, List.mergeSort_perm _ _, List.pairwise_mergeSort' (· ≤ ·) _, ?_⟩, c, ?_,
    named, noParent, ?_⟩
  · rw [ClassFile.parseModule, parsed]
    by_cases new : Version.maxMajor < (major : Int)
    · rw [if_pos new]
      rfl
    · rw [if_neg new]
      rfl
  · rw [parsed]
    split <;> rfl
  · intro known
    have old : ¬ Version.maxMajor < (major : Int) := by
      simp only [Version.maxMajor]
      omega
    rw [parsed, if_neg old]
    rfl

/-- A module of every kind of table, two of its packages out of order. -/
def ledgerModule : ModuleDescriptor where
  name := "bank.ledger"
  version := "2.1"
  isOpen := true
  requires := [{ name := "java.base", isTransitive := false, isStatic := false },
    { name := "bank/audit", isTransitive := true, isStatic := true }]
  exports := [{ package := "bank.ledger", targets := ["bank.ledger", "bank.desk"] },
    { package := "bank.entry", targets := [] }]
  opens := [{ package := "bank.page", targets := ["bank.desk"] }]
  packages := ["bank.page", "bank.ledger", "bank.entry"]
  uses := ["bank.ledger.Sink"]
  provides := [{ service := "bank.entry.Source", implementations := ["bank.page.Reader"] }]

theorem parseModule_ledgerModule :
    (∃ packages : List String, packages.Perm ledgerModule.packages ∧ packages.Pairwise (· ≤ ·) ∧
      ClassFile.parseModule (moduleBytes ledgerModule 70) = .ok { ledgerModule with packages }) ∧
    ∃ c : JavaClass, (ClassFile.parse (moduleBytes ledgerModule 70)).class? = some c ∧
      c.name = "module-info" ∧ c.superName = "" := by
  have describable : Describable ledgerModule := by decide +kernel
  have notOld : 45 ≤ 70 := by decide
  obtain ⟨described, c, found, named, noParent, _⟩ :=
    parseModule_moduleBytes describable notOld (by decide)
  exact ⟨described, c, found, named, noParent⟩

end Assembly

end ClasspathAudit
