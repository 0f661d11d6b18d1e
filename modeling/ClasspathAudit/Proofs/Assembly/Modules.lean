import ClasspathAudit.Proofs.Assembly.RoundTrip
import ClasspathAudit.Proofs.Assembly.Texts

/-!
Module descriptors as they are written, read back. Names of modules stand in the pool as they are, those
of packages and classes in their internal form, and each table of a descriptor returns the list it was
written from.
-/

namespace ClasspathAudit.Assembly

open Bytecode (Constant ConstantPool Draft Effect Scan)
open Bytecode.Scan (Reads)

variable {α β : Type} {keeps : List Record → Prop} {classes : List String} {pool : ConstantPool}

/-- An action that collects what the written items of a list are read as. -/
theorem collect_reads {act : Scan α} {items : List α} {parts : List (List UInt8)}
    {effect : α → Effect}
    (each : List.Forall₂ (fun x part => Reads act part x (effect x)) items parts) :
    Reads (Scan.collect items.length act) parts.flatten items (Effect.all (items.map effect)) := by
  induction each with
  | nil => exact Reads.pure []
  | cons first _ ih => exact Reads.bind first (Reads.bind_last ih (Reads.pure _))

/-- So many readings in a row, their number in front, that return a list. -/
def Collected (act : Scan α) (items : List α) (bytes : List UInt8) (e : Effect) : Prop :=
  ∃ content, bytes = u2 items.length ++ content ∧
    Reads (Scan.collect items.length act) content items e

theorem Collected.reads {act : Scan α} {items : List α} {bytes : List UInt8} {e : Effect}
    (collected : Collected act items bytes e) (few : items.length < 65536) :
    Reads (do let count ← Scan.u2; Scan.collect count act) bytes items e := by
  obtain ⟨content, rfl, reads⟩ := collected
  exact Reads.bind_silent (Reads.u2 few) reads

theorem flatten_length_eq {R : α → List UInt8 → Prop} {items : List α} {parts : List (List UInt8)}
    {size : α → Nat} (written : List.Forall₂ R items parts)
    (exact : ∀ x part, R x part → part.length = size x) :
    parts.flatten.length = (items.map size).sum := by
  induction written with
  | nil => rfl
  | cons first _ ih => simp [exact _ _ first, ih]

/-- A table is collected item by item, and its size is known. -/
theorem counted_collected {items : List α} {item : α → Build (List UInt8)}
    {act : ConstantPool → Scan α} {effect : α → Effect} {size : α → Nat}
    (each : ∀ x ∈ items, Writes keeps keeps (item x) fun pool part =>
      part.length = size x ∧ Reads (act pool) part x (effect x)) :
    Writes keeps keeps (counted items item) fun pool bytes =>
      bytes.length = 2 + (items.map size).sum ∧
      Collected (act pool) items bytes (Effect.all (items.map effect)) := by
  refine (counted_writes each).imp ?_
  rintro pool bytes ⟨parts, rfl, written⟩
  refine ⟨?_, _, rfl, collect_reads (written.imp fun _ _ fits => fits.2)⟩
  rw [List.length_append, u2_length, flatten_length_eq written fun _ _ fits => fits.1]

/-- A table of items that leave no trace. -/
theorem counted_silent {items : List α} {item : α → Build (List UInt8)} {act : ConstantPool → Scan α}
    {size : α → Nat} (each : ∀ x ∈ items, Writes keeps keeps (item x) fun pool part =>
      part.length = size x ∧ Reads (act pool) part x {}) :
    Writes keeps keeps (counted items item) fun pool bytes =>
      bytes.length = 2 + (items.map size).sum ∧ Collected (act pool) items bytes {} := by
  have silent : Effect.all (items.map fun _ => ({} : Effect)) = {} := by
    clear each
    induction items with
    | nil => rfl
    | cons x items ih => rw [List.map_cons, Effect.all_cons, ih, Effect.none_andThen]
  have written := counted_collected each
  rwa [silent] at written

theorem moduleName_places (name : String) :
    Places (Pool.moduleName name) [.utf8 name, .moduleInfo name] (.moduleInfo name) :=
  indexed_places (fun _ _ => .moduleInfo) rfl fun other same => by
    cases other <;> simp_all [Item.key]

theorem packageName_places (package : String) :
    Places (Pool.packageName package)
      [.utf8 (ClassName.internal package), .packageInfo (ClassName.internal package)]
      (.packageInfo (ClassName.internal package)) :=
  indexed_places (fun _ _ => .packageInfo) rfl fun other same => by
    cases other <;> simp_all [Item.key]

/-- Bytes that name a module or package of the pool. -/
def NamesUnit (pool : ConstantPool) (name : String) (bytes : List UInt8) : Prop :=
  ∃ i, bytes = u2 i ∧ i < 65536 ∧ pool.moduleOrPackage i = .ok name

theorem NamesUnit.length {name : String} {bytes : List UInt8} (named : NamesUnit pool name bytes) :
    bytes.length = 2 := by
  obtain ⟨i, rfl, _⟩ := named
  rfl

theorem NamesUnit.reads {name : String} {bytes : List UInt8} (named : NamesUnit pool name bytes) :
    Reads (do let index ← Scan.u2; pool.moduleOrPackage index) bytes name {} := by
  obtain ⟨i, rfl, bounded, found⟩ := named
  exact Reads.bind_only (Reads.u2 bounded) (Reads.lift found)

/-- What a module descriptor may put into a pool: texts, names of modules and packages, and the given
classes. -/
def Admits (classes : List String) : Item → Prop
  | .classInfo name => ∃ external ∈ classes, name = ClassName.internal external
  | .utf8 _ | .moduleInfo _ | .packageInfo _ => True
  | _ => False

def Admitted (classes : List String) (records : List Record) : Prop :=
  ∀ r ∈ records, Admits classes r.item

theorem admitted_absorbs {item : Item} (admits : Admits classes item) :
    Absorbs (Admitted classes) item := by
  intro records constant index admitted r member
  rcases List.mem_cons.mp member with rfl | old
  · exact admits
  · exact admitted r old

theorem admitted_welcomes : Welcomes (Admitted classes) classes where
  texts _ := admitted_absorbs trivial
  classes name member := admitted_absorbs ⟨name, member, rfl⟩

theorem moduleIndex_writes (name : String) :
    Writes (Admitted classes) (Admitted classes) (moduleIndex name) fun pool =>
      NamesUnit pool name := by
  refine ((moduleName_places name).writes ?_).map fun pool i found => ⟨i, rfl, found.2.1, found.2.2⟩
  simp only [List.forall_mem_cons, List.not_mem_nil, false_implies, implies_true, and_true]
  exact ⟨admitted_absorbs trivial, admitted_absorbs trivial⟩

theorem packageIndex_writes (package : String) :
    Writes (Admitted classes) (Admitted classes) (packageIndex package) fun pool =>
      NamesUnit pool (ClassName.internal package) := by
  refine ((packageName_places package).writes ?_).map fun pool i found =>
    ⟨i, rfl, found.2.1, found.2.2⟩
  simp only [List.forall_mem_cons, List.not_mem_nil, false_implies, implies_true, and_true]
  exact ⟨admitted_absorbs trivial, admitted_absorbs trivial⟩

/-- The name of a service or of an implementation of one. -/
@[mk_iff]
structure IsService (name : String) : Prop where
  nonempty : name ≠ ""
  noSlash : '/' ∉ name.toList
  noArray : Text.hasStart "[" name = false

instance (name : String) : Decidable (IsService name) := decidable_of_iff _ (isService_iff name).symm

/-- A class of the pool by its external name. -/
theorem NamesClass.reads_external {name : String} {bytes : List UInt8} (noSlash : '/' ∉ name.toList)
    (named : NamesClass pool name bytes) :
    Reads (do let index ← Scan.u2; return ClassName.external (← pool.className index)) bytes name
      {} := by
  obtain ⟨i, rfl, _, bounded, found⟩ := named
  refine Reads.bind_only (Reads.u2 bounded) (Reads.bind_still (Reads.lift found) ?_)
  rw [ClassName.external_internal noSlash]
  exact Reads.pure name

theorem requireFlags (isTransitive isStatic : Bool) :
    let flags := (if isTransitive then 0x20 else 0) + (if isStatic then 0x40 else 0)
    flags < 65536 ∧ decide (flags &&& 0x20 ≠ 0) = isTransitive ∧
      decide (flags &&& 0x40 ≠ 0) = isStatic := by
  cases isTransitive <;> cases isStatic <;> decide

theorem requireBytes_writes (r : ModuleRequire) :
    Writes (Admitted classes) (Admitted classes) (requireBytes r) fun pool part =>
      part.length = 6 ∧ Reads (do
        let index ← Scan.u2
        let name ← pool.moduleOrPackage index
        let flags ← Scan.u2
        Scan.skip 2
        return ({ name, isTransitive := flags &&& 0x20 ≠ 0, isStatic := flags &&& 0x40 ≠ 0 } :
          ModuleRequire)) part r {} := by
  refine (moduleIndex_writes r.name).map fun pool name named => ⟨by simp [named.length], ?_⟩
  obtain ⟨i, rfl, bounded, found⟩ := named
  obtain ⟨small, transitive, static⟩ := requireFlags r.isTransitive r.isStatic
  rw [List.append_assoc]
  refine Reads.bind_silent (Reads.u2 bounded) (Reads.bind_still (Reads.lift found) ?_)
  refine Reads.bind_silent (Reads.u2 small) (Reads.bind_last (Reads.skip rfl) ?_)
  rw [transitive, static]
  exact Reads.pure r

theorem moduleRequires_writes {requires : List ModuleRequire} (few : requires.length < 65536) :
    Writes (Admitted classes) (Admitted classes) (counted requires requireBytes) fun pool bytes =>
      bytes.length = 2 + (requires.map fun _ => 6).sum ∧
      Reads (Bytecode.Attribute.moduleRequires pool) bytes requires {} :=
  (counted_silent fun r _ => requireBytes_writes r).imp fun _ _ ⟨size, collected⟩ =>
    ⟨size, collected.reads few⟩

/-- The bytes that an exported or opened package takes. -/
def exportSize (e : ModuleExport) : Nat := 6 + (e.targets.map fun _ => 2).sum

theorem exportBytes_writes {e : ModuleExport} (noSlash : '/' ∉ e.package.toList)
    (few : e.targets.length < 65536) :
    Writes (Admitted classes) (Admitted classes) (exportBytes e) fun pool part =>
      part.length = exportSize e ∧ Reads (do
        let index ← Scan.u2
        let package ← pool.moduleOrPackage index
        Scan.skip 2
        let targets ← Scan.u2
        let targets ← Scan.collect targets do
          let index ← Scan.u2
          pool.moduleOrPackage index
        return ({ package := ClassName.external package, targets } : ModuleExport)) part e {} := by
  refine Writes.bind (packageIndex_writes e.package) fun package => ?_
  refine (counted_silent fun name _ => (moduleIndex_writes name).imp fun pool bytes named =>
    ⟨named.length, named.reads⟩).map ?_
  rintro pool targets ⟨size, content, rfl, reads⟩ named
  refine ⟨by simp [exportSize, named.length, size]; omega, ?_⟩
  obtain ⟨i, rfl, bounded, found⟩ := named
  simp only [List.append_assoc]
  refine Reads.bind_silent (Reads.u2 bounded) (Reads.bind_still (Reads.lift found) ?_)
  refine Reads.bind_silent (Reads.skip rfl) ?_
  refine Reads.bind_silent (Reads.u2 few) (Reads.bind_last reads ?_)
  rw [ClassName.external_internal noSlash]
  exact Reads.pure e

theorem moduleExports_writes {exports : List ModuleExport} (few : exports.length < 65536)
    (noSlash : ∀ e ∈ exports, '/' ∉ e.package.toList)
    (fewTargets : ∀ e ∈ exports, e.targets.length < 65536) :
    Writes (Admitted classes) (Admitted classes) (counted exports exportBytes) fun pool bytes =>
      bytes.length = 2 + (exports.map exportSize).sum ∧
      Reads (Bytecode.Attribute.moduleExports pool) bytes exports {} := by
  refine (counted_silent fun e inside =>
    exportBytes_writes (noSlash e inside) (fewTargets e inside)).imp ?_
  rintro pool bytes ⟨size, content, rfl, reads⟩
  refine ⟨size, Reads.bind_silent (Reads.u2 few) (Reads.bind_last reads ?_)⟩
  exact Reads.bind_still Reads.checkpoint (Reads.pure _)

/-- What reading the services that a module uses finds. -/
def usesEffect (uses : List String) : Effect := Effect.all (uses.map fun name => Effect.names [name])

theorem moduleUses_writes {uses : List String} (few : uses.length < 65536) (known : uses ⊆ classes)
    (noSlash : ∀ name ∈ uses, '/' ∉ name.toList) :
    Writes (Admitted classes) (Admitted classes) (counted uses classIndex) fun pool bytes =>
      bytes.length = 2 + (uses.map fun _ => 2).sum ∧
      Reads (Bytecode.Attribute.moduleUses pool) bytes uses (usesEffect uses) := by
  have each : ∀ name ∈ uses, Writes (Admitted classes) (Admitted classes) (classIndex name)
      fun pool bytes => bytes.length = 2 ∧ Reads (do
        let index ← Scan.u2
        let service := ClassName.external (← pool.className index)
        Scan.addReferences [service]
        return service) bytes name (Effect.names [name]) := by
    intro name inside
    refine (classIndex_writes admitted_welcomes (known inside)).imp fun pool bytes named => ?_
    refine ⟨named.length, ?_⟩
    obtain ⟨i, rfl, _, bounded, found⟩ := named
    refine Reads.bind_only (Reads.u2 bounded) (Reads.bind_still (Reads.lift found) ?_)
    rw [ClassName.external_internal (noSlash name inside)]
    exact Reads.bind_last (Reads.addReferences _) (Reads.pure name)
  exact (counted_collected each).imp fun _ _ ⟨size, collected⟩ => ⟨size, collected.reads few⟩

/-- The bytes that a service and its implementations take. -/
def provideSize (p : ModuleProvide) : Nat := 4 + (p.implementations.map fun _ => 2).sum

theorem provideBytes_writes {p : ModuleProvide} (few : p.implementations.length < 65536)
    (known : p.service :: p.implementations ⊆ classes)
    (noSlash : ∀ name ∈ p.service :: p.implementations, '/' ∉ name.toList) :
    Writes (Admitted classes) (Admitted classes) (provideBytes p) fun pool part =>
      part.length = provideSize p ∧ Reads (do
        let index ← Scan.u2
        let service := ClassName.external (← pool.className index)
        let implementations ← Scan.u2
        let implementations ← Scan.collect implementations do
          let index ← Scan.u2
          return ClassName.external (← pool.className index)
        return ({ service, implementations } : ModuleProvide)) part p {} := by
  obtain ⟨serviceKnown, implementationsKnown⟩ := List.cons_subset.mp known
  refine Writes.bind (classIndex_writes admitted_welcomes serviceKnown) fun service => ?_
  refine (counted_silent fun name inside =>
    (classIndex_writes admitted_welcomes (implementationsKnown inside)).imp fun pool bytes named =>
      ⟨named.length, named.reads_external (noSlash name (List.mem_cons_of_mem _ inside))⟩).map ?_
  rintro pool implementations ⟨size, content, rfl, reads⟩ named
  refine ⟨by simp [provideSize, named.length, size]; omega, ?_⟩
  obtain ⟨i, rfl, _, bounded, found⟩ := named
  refine Reads.bind_silent (Reads.u2 bounded) (Reads.bind_still (Reads.lift found) ?_)
  refine Reads.bind_silent (Reads.u2 few) (Reads.bind_last reads ?_)
  rw [ClassName.external_internal (noSlash p.service List.mem_cons_self)]
  exact Reads.pure p

theorem moduleProvides_writes {provides : List ModuleProvide} (few : provides.length < 65536)
    (fewImplementations : ∀ p ∈ provides, p.implementations.length < 65536)
    (known : ∀ p ∈ provides, p.service :: p.implementations ⊆ classes)
    (noSlash : ∀ p ∈ provides, ∀ name ∈ p.service :: p.implementations, '/' ∉ name.toList) :
    Writes (Admitted classes) (Admitted classes) (counted provides provideBytes) fun pool bytes =>
      bytes.length = 2 + (provides.map provideSize).sum ∧
      Reads (Bytecode.Attribute.moduleProvides pool) bytes provides {} :=
  (counted_silent fun p inside => provideBytes_writes (fewImplementations p inside) (known p inside)
    (noSlash p inside)).imp fun _ _ ⟨size, collected⟩ => ⟨size, collected.reads few⟩

theorem versionIndex_writes (version : String) :
    Writes (Admitted classes) (Admitted classes) (versionIndex version) fun pool bytes =>
      bytes.length = 2 ∧ Reads (Bytecode.Attribute.moduleVersion pool) bytes version {} := by
  unfold versionIndex
  split
  next absent =>
    rw [absent]
    exact Writes.pure fun pool => ⟨rfl, Reads.bind_last (Reads.u2 (by decide)) (Reads.pure "")⟩
  next present =>
    refine (textIndex_writes admitted_welcomes version).imp fun pool bytes named => ?_
    refine ⟨named.length, ?_⟩
    obtain ⟨i, rfl, bounded, found⟩ := named
    refine Reads.bind_only (Reads.u2 bounded) ?_
    rw [if_pos (ConstantPool.utf8_ne_zero found)]
    exact Reads.lift found

/-- The bytes that the descriptor itself takes. -/
def declaredSize (m : ModuleDescriptor) : Nat :=
  16 + (m.requires.map fun _ => 6).sum + (m.exports.map exportSize).sum +
    (m.opens.map exportSize).sum + (m.uses.map fun _ => 2).sum + (m.provides.map provideSize).sum

/-- Everything about a module but the packages listed beside its descriptor. -/
def declared (m : ModuleDescriptor) : ModuleDescriptor := { m with packages := [] }

/-- What reading a descriptor finds. -/
def declaredEffect (m : ModuleDescriptor) : Effect :=
  (usesEffect m.uses).andThen ⟨{ moduleInfo := some (declared m) }, id⟩

/-- A module that a class file can describe. Its packages and classes have an internal form, its texts are
short, its lists can be counted, and the pool holds every slot it needs. The length of an attribute takes
four bytes, which bounds the descriptor as a whole. -/
@[mk_iff]
structure Describable (m : ModuleDescriptor) : Prop where
  notAutomatic : m.isAutomatic = false
  unlayered : m.release = 0
  packages : ∀ name ∈ packageNames m, '/' ∉ name.toList
  services : ∀ name ∈ serviceNames m, IsService name
  fewRequires : m.requires.length ≤ 65535
  fewExports : m.exports.length ≤ 65535
  fewOpens : m.opens.length ≤ 65535
  fewPackages : m.packages.length ≤ 65535
  fewUses : m.uses.length ≤ 65535
  fewProvides : m.provides.length ≤ 65535
  fewTargets : ∀ e ∈ m.exports ++ m.opens, e.targets.length ≤ 65535
  fewImplementations : ∀ p ∈ m.provides, p.implementations.length ≤ 65535
  small : declaredSize m < 4294967296
  fewSlots : ((moduleStructure m).run {}).2.slotCount ≤ 65534
  shortTexts : ∀ text ∈ moduleTexts m, Short text

instance (m : ModuleDescriptor) : Decidable (Describable m) :=
  decidable_of_iff _ (describable_iff m).symm

/-- The descriptor is kept when all of it has been read. -/
theorem keep_reads (m : ModuleDescriptor) :
    Reads (modify fun s => { s with symbols := { s.symbols with moduleInfo := some m } }) [] ()
      ⟨{ moduleInfo := some m }, id⟩ := by
  intro s rest sound stands
  simp [Bytecode.Reading.after, Bytecode.Symbols.gain]

theorem moduleBody_writes {m : ModuleDescriptor} (describable : Describable m)
    (known : serviceNames m ⊆ classes) :
    Writes (Admitted classes) (Admitted classes) (moduleBody m) fun pool bytes =>
      bytes.length = declaredSize m ∧
      Reads (Bytecode.Attribute.moduleInfo pool) bytes () (declaredEffect m) := by
  have noSlash : ∀ name ∈ serviceNames m, '/' ∉ name.toList := fun name inside =>
    (describable.services name inside).noSlash
  have exported : ∀ e ∈ m.exports ++ m.opens, '/' ∉ e.package.toList := fun e inside =>
    describable.packages _ (List.mem_append_left _ (List.mem_map_of_mem inside))
  have fewTargets : ∀ e ∈ m.exports ++ m.opens, e.targets.length < 65536 := fun e inside =>
    Nat.lt_succ_of_le (describable.fewTargets e inside)
  have provided : ∀ p ∈ m.provides, p.service :: p.implementations ⊆ serviceNames m :=
    fun p inside name member =>
      List.mem_append_right _ (List.mem_flatMap.mpr ⟨p, inside, member⟩)
  refine Writes.bind (moduleIndex_writes m.name) fun name => ?_
  refine Writes.bind (versionIndex_writes m.version) fun version => ?_
  refine Writes.bind (moduleRequires_writes (Nat.lt_succ_of_le describable.fewRequires))
    fun requires => ?_
  refine Writes.bind (moduleExports_writes (Nat.lt_succ_of_le describable.fewExports)
    (fun e inside => exported e (List.mem_append_left _ inside))
    (fun e inside => fewTargets e (List.mem_append_left _ inside))) fun exports => ?_
  refine Writes.bind (moduleExports_writes (Nat.lt_succ_of_le describable.fewOpens)
    (fun e inside => exported e (List.mem_append_right _ inside))
    (fun e inside => fewTargets e (List.mem_append_right _ inside))) fun opens => ?_
  refine Writes.bind (moduleUses_writes (Nat.lt_succ_of_le describable.fewUses)
    (fun name inside => known (List.mem_append_left _ inside))
    (fun name inside => noSlash name (List.mem_append_left _ inside))) fun uses => ?_
  refine (moduleProvides_writes (Nat.lt_succ_of_le describable.fewProvides)
    (fun p inside => Nat.lt_succ_of_le (describable.fewImplementations p inside))
    (fun p inside => List.Subset.trans (provided p inside) known)
    (fun p inside name member => noSlash name (provided p inside member))).map ?_
  rintro pool provides ⟨providesSize, providesRead⟩ ⟨usesSize, usesRead⟩ ⟨opensSize, opensRead⟩
    ⟨exportsSize, exportsRead⟩ ⟨requiresSize, requiresRead⟩ ⟨versionSize, versionRead⟩ named
  constructor
  · simp only [List.length_append, named.length, versionSize, requiresSize, exportsSize, opensSize,
      usesSize, providesSize, u2_length, declaredSize]
    omega
  · obtain ⟨i, rfl, bounded, found⟩ := named
    simp only [List.append_assoc]
    refine Reads.bind_silent (Reads.u2 bounded) (Reads.bind_still (Reads.lift found) ?_)
    refine Reads.bind_silent (Reads.u2 ?_) ?_
    · split <;> decide
    refine Reads.bind_silent versionRead ?_
    refine Reads.bind_silent requiresRead ?_
    refine Reads.bind_silent exportsRead ?_
    refine Reads.bind_silent opensRead ?_
    refine Reads.bind usesRead (Reads.bind_only providesRead (Reads.bind_still Reads.checkpoint ?_))
    have same : declared m = { name := m.name, version := m.version
                               isOpen := decide ((if m.isOpen then 0x20 else 0) &&& 0x20 ≠ 0)
                               requires := m.requires, exports := m.exports, opens := m.opens
                               uses := m.uses, provides := m.provides } := by
      have isOpen : decide ((if m.isOpen then 0x20 else 0) &&& 0x20 ≠ 0) = m.isOpen := by
        cases m.isOpen <;> decide
      rw [isOpen, declared, describable.notAutomatic, describable.unlayered]
    rw [same]
    exact keep_reads _

end ClasspathAudit.Assembly
