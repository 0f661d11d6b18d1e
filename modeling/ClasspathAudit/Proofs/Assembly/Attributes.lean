import ClasspathAudit.Assembly.ClassSpec
import ClasspathAudit.Proofs.Assembly.Writing
import ClasspathAudit.Proofs.Bytecode.ClassNames

/-!
Attributes as they are written, read back: for each of them the reader takes exactly its bytes and finds
the class names that its description mentions.
-/

namespace ClasspathAudit.Assembly

open Bytecode (Constant ConstantPool Effect Scan)
open Bytecode.Scan (Reads)
open Bytecode.Attribute (classRef)

/-- The class types of a descriptor. -/
def descriptorNames (value : String) : List String := (Descriptor.scan value).1

/-- The class types of a signature. -/
def signatureNames (value : String) : List String := (Signature.scan value).1

def IsDescriptor (value : String) : Prop := (Descriptor.scan value).2 = none

def IsSignature (value : String) : Prop := (Signature.scan value).2 = none

instance (value : String) : Decidable (IsDescriptor value) := inferInstanceAs (Decidable (_ = none))

instance (value : String) : Decidable (IsSignature value) := inferInstanceAs (Decidable (_ = none))

theorem descriptorNames_empty : descriptorNames "" = [] := by decide

theorem signatureNames_empty : signatureNames "" = [] := by decide

theorem descriptor_reads {value : String} (accepted : IsDescriptor value) :
    Reads (Scan.descriptor Scan.addReferences value) [] ()
      (Effect.names (descriptorNames value)) :=
  Reads.descriptor accepted (Reads.addReferences _)

theorem classRef_reads {pool : ConstantPool} {name : String} {i : Nat}
    (plain : ClassName.IsPlain name) (found : pool.className i = .ok (ClassName.internal name)) :
    Reads (classRef pool i) [] () (Effect.names [name]) := by
  have noArray : Text.hasStart "[" (ClassName.internal name) = false := by
    rw [ClassName.hasStart_array_internal, plain.noArray]
  have reads := Reads.className noArray (ClassName.internal_ne_empty plain.nonempty)
  rw [ClassName.external_internal plain.noSlash] at reads
  exact Reads.bind_still (Reads.lift found) reads

@[simp] theorem u2_length (n : Nat) : (u2 n).length = 2 := rfl

@[simp] theorem u4_length (n : Nat) : (u4 n).length = 4 := rfl

theorem NamesClass.length {pool : ConstantPool} {name : String} {bytes : List UInt8}
    (named : NamesClass pool name bytes) : bytes.length = 2 := by
  obtain ⟨i, rfl, _⟩ := named
  rfl

theorem NamesText.length {pool : ConstantPool} {value : String} {bytes : List UInt8}
    (named : NamesText pool value bytes) : bytes.length = 2 := by
  obtain ⟨i, rfl, _⟩ := named
  rfl

theorem flatten_length_le {α : Type} {R : α → List UInt8 → Prop} {items : List α}
    {parts : List (List UInt8)} {width : Nat} (written : List.Forall₂ R items parts)
    (narrow : ∀ x ∈ items, ∀ part, R x part → part.length ≤ width) :
    parts.flatten.length ≤ width * items.length := by
  induction written with
  | nil => simp
  | cons first _ ih =>
    have size := narrow _ (by simp) _ first
    have sizes := ih fun x member => narrow x (List.mem_cons_of_mem _ member)
    simp only [List.flatten_cons, List.length_append, List.length_cons, Nat.mul_add, Nat.mul_one]
    omega

/-- An attribute whose body is read within its length. -/
def AttributeBytes.Sound (pool : ConstantPool) (nested : Scan Unit) (a : AttributeBytes)
    (e : Effect) : Prop :=
  a.body.length < 4294967296 ∧ Reads (Bytecode.Attribute.body pool nested a.name) a.body () e

/-- Attributes that together leave one effect. -/
def Attributes (pool : ConstantPool) (nested : Scan Unit) (attributes : List AttributeBytes)
    (e : Effect) : Prop :=
  ∃ effects, List.Forall₂ (AttributeBytes.Sound pool nested) attributes effects ∧
    Effect.all effects = e

namespace Attributes

variable {pool : ConstantPool} {nested : Scan Unit} {e e' : Effect}

theorem nil : Attributes pool nested [] {} := ⟨[], .nil, rfl⟩

theorem single {a : AttributeBytes} (sound : a.Sound pool nested e) :
    Attributes pool nested [a] e :=
  ⟨[e], .cons sound .nil, by simp⟩

theorem append {first second : List AttributeBytes} (reads : Attributes pool nested first e)
    (reads' : Attributes pool nested second e') :
    Attributes pool nested (first ++ second) (e.andThen e') := by
  obtain ⟨effects, sound, total⟩ := reads
  obtain ⟨effects', sound', total'⟩ := reads'
  exact ⟨effects ++ effects', List.rel_append sound sound', by rw [Effect.all_append, total, total']⟩

end Attributes

section

variable {keeps : List Record → Prop} {classes : List String}

/-- The bytes of one attribute in a table. -/
def Framed (pool : ConstantPool) (a : AttributeBytes) (part : List UInt8) : Prop :=
  ∃ name, NamesText pool a.name name ∧ part = name ++ u4 a.body.length ++ a.body

theorem entry_reads {pool : ConstantPool} {nested : Scan Unit} {a : AttributeBytes} {e : Effect}
    {part : List UInt8} (framed : Framed pool a part) (sound : a.Sound pool nested e) :
    Reads (Bytecode.Attribute.entry pool nested) part () e := by
  obtain ⟨_, ⟨i, rfl, bounded, found⟩, rfl⟩ := framed
  rw [List.append_assoc]
  refine Reads.bind_silent (Reads.u2 bounded) ?_
  refine Reads.bind_silent (Reads.u4 sound.1) ?_
  refine Reads.bind_still Reads.checkpoint ?_
  rw [found]
  exact Reads.within (Reads.rewording _ sound.2)

theorem table_reads {pool : ConstantPool} {fuel : Nat} {attributes : List AttributeBytes}
    {e : Effect} {parts : List (List UInt8)}
    (framed : List.Forall₂ (Framed pool) attributes parts) (few : attributes.length < 65536)
    (reads : Attributes pool (Bytecode.Attribute.tableUpTo pool fuel) attributes e) :
    Reads (Bytecode.Attribute.tableUpTo pool (fuel + 1)) (u2 attributes.length ++ parts.flatten) ()
      e := by
  obtain ⟨effects, sound, rfl⟩ := reads
  have each : List.Forall₂ (fun part e => Reads
      (Bytecode.Attribute.entry pool (Bytecode.Attribute.tableUpTo pool fuel)) part () e)
      parts effects := by
    clear few
    induction framed generalizing effects with
    | nil => cases sound; exact .nil
    | cons first _ ih =>
      cases sound with
      | cons firstSound restSound =>
        exact .cons (entry_reads first firstSound) (ih _ restSound)
  have count : parts.length = attributes.length := framed.length_eq.symm
  have body := Reads.times each
  rw [count] at body
  exact Reads.bind_silent (Reads.u2 few) (Reads.bind_last body Reads.checkpoint)

/-- A written table of attributes leaves the effects of its attributes. -/
theorem attributeTable_writes (welcome : Welcomes keeps classes) (attributes : List AttributeBytes) :
    Writes keeps keeps (attributeTable attributes) fun pool bytes =>
      2 ≤ bytes.length ∧
      (∀ width, (∀ a ∈ attributes, a.body.length ≤ width) →
        bytes.length ≤ 2 + (6 + width) * attributes.length) ∧
      (attributes.length < 65536 → ∀ fuel e,
        Attributes pool (Bytecode.Attribute.tableUpTo pool fuel) attributes e →
        Reads (Bytecode.Attribute.tableUpTo pool (fuel + 1)) bytes () e) := by
  have each : ∀ a ∈ attributes, Writes keeps keeps
      (do let name ← Pool.utf8 a.name; return u2 name ++ u4 a.body.length ++ a.body)
      fun pool part => Framed pool a part := by
    intro a _
    have absorbs : ∀ i ∈ [Item.utf8 a.name], Absorbs keeps i := by
      intro i inside
      rw [List.mem_singleton.mp inside]
      exact welcome.texts _
    exact ((utf8_places a.name).writes absorbs).map fun pool i found =>
      ⟨u2 i, ⟨i, rfl, found.2.1, found.2.2⟩, rfl⟩
  refine (Writes.mapM each).map ?_
  intro pool parts framed
  refine ⟨by simp, ?_, fun few fuel e reads => table_reads framed few reads⟩
  intro width narrow
  have size := flatten_length_le framed fun a member part ⟨name, named, content⟩ => by
    have bodySize := narrow a member
    have partSize : part.length ≤ 6 + width := by
      rw [content, List.length_append, List.length_append, named.length, u4_length]
      omega
    exact partSize
  rw [List.length_append, u2_length]
  omega

/-- So many readings in a row, their number in front. -/
def Tabled (act : Scan Unit) (count : Nat) (bytes : List UInt8) (e : Effect) : Prop :=
  ∃ content, bytes = u2 count ++ content ∧ Reads (Scan.times count act) content () e

/-- A table that is read whole. -/
theorem Tabled.reads {act : Scan Unit} {count : Nat} {bytes : List UInt8} {e : Effect}
    (tabled : Tabled act count bytes e) (few : count < 65536) :
    Reads (do let count ← Scan.u2; Scan.times count act; Scan.checkpoint) bytes () e := by
  obtain ⟨content, rfl, reads⟩ := tabled
  exact Reads.bind_silent (Reads.u2 few) (Reads.bind_last reads Reads.checkpoint)

theorem counted_tabled {α : Type} {items : List α} {item : α → Build (List UInt8)}
    {act : ConstantPool → Scan Unit} {effect : α → Effect}
    (each : ∀ x ∈ items, Writes keeps keeps (item x) fun pool part =>
      Reads (act pool) part () (effect x)) :
    Writes keeps keeps (counted items item) fun pool bytes =>
      Tabled (act pool) items.length bytes (Effect.all (items.map effect)) := by
  refine (counted_writes each).imp ?_
  rintro pool bytes ⟨parts, rfl, written⟩
  exact ⟨_, rfl, Reads.times_items written fun x _ part reads => reads⟩

/-- A table of items none of which is wider than `width`. -/
theorem counted_tabled_narrow {α : Type} {items : List α} {item : α → Build (List UInt8)}
    {act : ConstantPool → Scan Unit} {effect : α → Effect} {width : Nat}
    (each : ∀ x ∈ items, Writes keeps keeps (item x) fun pool part =>
      part.length ≤ width ∧ Reads (act pool) part () (effect x)) :
    Writes keeps keeps (counted items item) fun pool bytes =>
      bytes.length ≤ 2 + width * items.length ∧
      Tabled (act pool) items.length bytes (Effect.all (items.map effect)) := by
  refine (counted_writes each).imp ?_
  rintro pool bytes ⟨parts, rfl, written⟩
  have size := flatten_length_le written fun x _ part fits => fits.1
  refine ⟨?_, _, rfl, Reads.times_items written fun x _ part fits => fits.2⟩
  rw [List.length_append, u2_length]
  omega

end

end ClasspathAudit.Assembly
