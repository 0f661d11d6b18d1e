import ClasspathAudit.Assembly.ModuleSpec
import ClasspathAudit.Proofs.Assembly.Classes

/-!
The texts that writing a module descriptor puts into its pool. They are the texts of the module, those of
packages and classes in internal form, and a few of fixed wording, so a pool is writable when the texts of
the module are short.
-/

namespace ClasspathAudit.Assembly

open Text (ModifiedUtf8.encode ModifiedUtf8.encodeChar)

variable {α β : Type}

/-- A text that the two bytes of its length can tell. -/
def Short (value : String) : Prop := (ModifiedUtf8.encode value).length ≤ 65535

instance (value : String) : Decidable (Short value) := inferInstanceAs (Decidable (_ ≤ _))

/-- A pool of short texts. -/
def Pool.Fits (p : Pool) : Prop := ∀ entry ∈ p.indices, entry.1.Fits

/-- An action that adds short texts only. -/
def Fitting (act : Build α) : Prop := ∀ p : Pool, p.Fits → (act.run p).2.Fits

namespace Fitting

theorem pure (a : α) : Fitting (Pure.pure a : Build α) := fun _ fits => fits

theorem bind {act : Build α} {f : α → Build β} (first : Fitting act) (second : ∀ a, Fitting (f a)) :
    Fitting (act >>= f) := fun p fits => second _ _ (first p fits)

theorem mapM {items : List α} {f : α → Build β} (each : ∀ x ∈ items, Fitting (f x)) :
    Fitting (items.mapM f) := by
  induction items with
  | nil => exact pure []
  | cons x items ih =>
    rw [List.mapM_cons]
    refine bind (each x List.mem_cons_self) fun part => ?_
    exact bind (ih fun y member => each y (List.mem_cons_of_mem x member)) fun parts => pure _

theorem counted {items : List α} {item : α → Build (List UInt8)} (each : ∀ x ∈ items, Fitting (item x)) :
    Fitting (counted items item) :=
  bind (mapM each) fun _ => pure _

theorem put {key : ConstantKey} (short : key.Fits) (slots : Nat) (entry : List UInt8) :
    Fitting (Pool.put key slots entry) := by
  intro p fits
  cases found : p.indices.find? (·.1 = key) with
  | some known => simpa [Pool.put, StateT.run, found] using fits
  | none =>
    simp only [Pool.put, StateT.run, found]
    exact List.forall_mem_cons.mpr ⟨short, fits⟩

theorem utf8 {value : String} (short : Short value) : Fitting (Pool.utf8 value) :=
  put (show (ConstantKey.utf8 value).Fits from short) _ _

theorem classInfo {name : String} (short : Short name) : Fitting (Pool.classInfo name) :=
  bind (utf8 short) fun _ => put (show (ConstantKey.classInfo name).Fits from trivial) _ _

theorem named (tag : Nat) {name : String} (short : Short name) : Fitting (Pool.named tag name) :=
  bind (utf8 short) fun _ => put (show (ConstantKey.named tag name).Fits from trivial) _ _

end Fitting

/-- The internal form of a name is as long as the name. -/
theorem short_internal {name : String} (short : Short name) : Short (ClassName.internal name) := by
  have same : ∀ c : Char, (ModifiedUtf8.encodeChar (if c = '.' then '/' else c)).length =
      (ModifiedUtf8.encodeChar c).length := by
    intro c
    split
    next dot =>
      rw [dot]
      rfl
    next => rfl
  rw [Short, ModifiedUtf8.encode] at short ⊢
  rw [ClassName.toList_internal, List.flatMap_map, List.length_flatMap]
  simpa only [same, List.length_flatMap] using short

/-- The services that a module uses or provides, and their implementations. -/
def serviceNames (m : ModuleDescriptor) : List String :=
  m.uses ++ m.provides.flatMap fun p => p.service :: p.implementations

/-- The packages that a module exports, opens or lists. -/
def packageNames (m : ModuleDescriptor) : List String :=
  (m.exports ++ m.opens).map ModuleExport.package ++ m.packages

/-- All texts of a module. -/
def moduleTexts (m : ModuleDescriptor) : List String :=
  m.name :: m.version :: m.requires.map ModuleRequire.name ++
    (m.exports ++ m.opens).flatMap ModuleExport.targets ++
    packageNames m ++ serviceNames m

theorem moduleIndex_fitting {name : String} (short : Short name) : Fitting (moduleIndex name) :=
  .bind (.named 19 short) fun _ => .pure _

theorem packageIndex_fitting {package : String} (short : Short package) :
    Fitting (packageIndex package) :=
  .bind (.named 20 (short_internal short)) fun _ => .pure _

theorem classIndex_fitting {name : String} (short : Short name) : Fitting (classIndex name) :=
  .bind (.classInfo (short_internal short)) fun _ => .pure _

theorem exportBytes_fitting {e : ModuleExport} (package : Short e.package)
    (targets : ∀ name ∈ e.targets, Short name) :
    Fitting (exportBytes e) :=
  .bind (packageIndex_fitting package) fun _ =>
    .bind (.counted fun name member => moduleIndex_fitting (targets name member)) fun _ => .pure _

theorem provideBytes_fitting {p : ModuleProvide} (service : Short p.service)
    (implementations : ∀ name ∈ p.implementations, Short name) : Fitting (provideBytes p) :=
  .bind (classIndex_fitting service) fun _ =>
    .bind (.counted fun name member => classIndex_fitting (implementations name member)) fun _ => .pure _

theorem versionIndex_fitting {version : String} (short : Short version) :
    Fitting (versionIndex version) := by
  unfold versionIndex
  split
  · exact .pure _
  · exact .bind (.utf8 short) fun _ => .pure _

theorem attributeTable_fitting {attributes : List AttributeBytes}
    (short : ∀ a ∈ attributes, Short a.name) :
    Fitting (attributeTable attributes) :=
  .bind (.mapM fun a member => .bind (.utf8 (short a member)) fun _ => .pure _) fun _ => .pure _

/-- Writing a module whose texts are short makes a pool of short texts. -/
theorem moduleStructure_fitting {m : ModuleDescriptor} (short : ∀ text ∈ moduleTexts m, Short text) :
    Fitting (moduleStructure m) := by
  simp only [moduleTexts, packageNames, serviceNames, List.forall_mem_append, List.forall_mem_cons,
    List.forall_mem_map, List.forall_mem_flatMap] at short
  obtain ⟨⟨⟨⟨name, version, requires⟩, exportTargets, openTargets⟩,
    ⟨exportPackages, openPackages⟩, packages⟩, uses, provides⟩ := short
  have body : Fitting (moduleBody m) := by
    refine .bind (moduleIndex_fitting name) fun _ => .bind (versionIndex_fitting version) fun _ => ?_
    refine .bind (.counted fun r member =>
      .bind (moduleIndex_fitting (requires r member)) fun _ => .pure _) fun _ => ?_
    refine .bind (.counted fun e member =>
      exportBytes_fitting (exportPackages e member) (exportTargets e member)) fun _ => ?_
    refine .bind (.counted fun e member =>
      exportBytes_fitting (openPackages e member) (openTargets e member)) fun _ => ?_
    refine .bind (.counted fun name member => classIndex_fitting (uses name member)) fun _ => ?_
    refine .bind (.counted fun p member => ?_) fun _ => .pure _
    exact provideBytes_fitting (provides p member).1 (provides p member).2
  have table : ∀ attributes : List AttributeBytes, (∀ a ∈ attributes, Short a.name) → ∀ this : List UInt8,
      Fitting (do
        let table ← attributeTable attributes
        return u2 0x8000 ++ this ++ u2 0 ++ u2 0 ++ u2 0 ++ u2 0 ++ table) :=
    fun attributes names this => .bind (attributeTable_fitting names) fun _ => .pure _
  refine .bind (classIndex_fitting (by decide)) fun this => .bind body fun content => ?_
  unfold packageTable
  split
  · rw [pure_bind]
    exact table _ (by simp; decide) this
  · simp only [bind_assoc, pure_bind]
    refine .bind (.counted fun name member => packageIndex_fitting (packages name member))
      fun listed => ?_
    exact table _ (by simp; decide) this

end ClasspathAudit.Assembly
