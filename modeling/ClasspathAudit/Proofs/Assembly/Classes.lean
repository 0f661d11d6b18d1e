import ClasspathAudit.Proofs.Assembly.Members
import ClasspathAudit.Proofs.Assembly.References

/-!
The parts of a class file as they are written. Every part is read back where it stands, and what reading
it adds to the class and to the names found is told by the description.
-/

namespace ClasspathAudit.Assembly

open Bytecode (Constant ConstantPool Draft Effect Scan)
open Bytecode.Scan (Reads)
open Bytecode.Attribute (classRef tableUpTo)

/-- The class names in an annotation. -/
def AnnotationSpec.names (a : AnnotationSpec) : List String :=
  a.type :: (descriptorNames a.classValue ++ descriptorNames a.enumValue)

theorem AnnotationSpec.mem_effect {a : AnnotationSpec} {name : String} :
    name ∈ a.effect.found.references ↔ name ∈ a.names := by
  simp [AnnotationSpec.effect, AnnotationSpec.names]

theorem AnnotationSpec.mem_marked {a : AnnotationSpec} {name : String} :
    name ∈ a.effect.found.annotations ↔ name = a.type := by
  simp [AnnotationSpec.effect]

theorem AnnotationSpec.edit_effect (a : AnnotationSpec) : a.effect.edit = id := by
  simp [AnnotationSpec.effect]

theorem mem_namesEffect {names : List String} {name : String} :
    name ∈ (namesEffect names).found.references ↔ name ∈ names := by
  simp [namesEffect]

namespace MemberSpec

/-- The class names in the types of the local variables. -/
def localNames (m : MemberSpec) : List String :=
  m.locals.flatMap fun l => descriptorNames l.descriptor ++ signatureNames l.signature

/-- The class names in a member. -/
def names (m : MemberSpec) : List String :=
  descriptorNames m.descriptor ++ signatureNames m.signature ++ m.exceptions ++ m.catches ++
    m.annotations.flatMap AnnotationSpec.names ++ m.localNames

theorem mem_codeEffect {m : MemberSpec} {name : String} :
    name ∈ m.codeEffect.found.references ↔ name ∈ m.catches ∨ name ∈ m.localNames := by
  simp [codeEffect, localNames, mem_namesEffect, LocalSpec.typeEffect, LocalSpec.signatureEffect,
    and_or_left, exists_or]

theorem mem_effect {m : MemberSpec} {name : String} :
    name ∈ m.effect.found.references ↔ name ∈ m.names := by
  have annotated : name ∈ (Effect.all (m.annotations.map AnnotationSpec.effect)).found.references ↔
      name ∈ m.annotations.flatMap AnnotationSpec.names := by
    simp [AnnotationSpec.mem_effect]
  simp only [effect, attributesEffect, Effect.mem_references_andThen, Effect.mem_references_names,
    mem_namesEffect, annotated, mem_codeEffect, names, List.mem_append]
  tauto

theorem mem_marked {m : MemberSpec} {name : String} :
    name ∈ m.effect.found.annotations ↔ name ∈ m.annotations.map AnnotationSpec.type := by
  simp [effect, attributesEffect, codeEffect, namesEffect, LocalSpec.typeEffect,
    LocalSpec.signatureEffect, AnnotationSpec.mem_marked, eq_comm]

theorem edit_effect (m : MemberSpec) : m.effect.edit = id := by
  have thrown : (namesEffect m.exceptions).edit = id := Effect.edit_all_eq_id (by simp)
  have caught : (namesEffect m.catches).edit = id := Effect.edit_all_eq_id (by simp)
  have annotated : (Effect.all (m.annotations.map AnnotationSpec.effect)).edit = id :=
    Effect.edit_all_eq_id (by simp [AnnotationSpec.edit_effect])
  have typed : (Effect.all (m.locals.map LocalSpec.typeEffect)).edit = id :=
    Effect.edit_all_eq_id (by simp [LocalSpec.typeEffect])
  have signed : (Effect.all (m.locals.map LocalSpec.signatureEffect)).edit = id :=
    Effect.edit_all_eq_id (by simp [LocalSpec.signatureEffect])
  simp [effect, attributesEffect, codeEffect, thrown, caught, annotated, typed, signed]

end MemberSpec

/-- The pool knows a class. -/
def Knows (pool : ConstantPool) (name : String) : Prop :=
  ∃ i, pool.className i = .ok (ClassName.internal name)

theorem NamesClass.knows {pool : ConstantPool} {name : String}
    {bytes : List UInt8} (named : NamesClass pool name bytes) : Knows pool name := by
  obtain ⟨i, _, _, _, found⟩ := named
  exact ⟨i, found⟩

/-- A text is short enough for its length to be written. -/
def ConstantKey.Fits : ConstantKey → Prop
  | utf8 value => (Text.ModifiedUtf8.encode value).length ≤ 65535
  | _ => True

instance : DecidablePred ConstantKey.Fits
  | .utf8 _ => inferInstanceAs (Decidable (_ ≤ _))
  | .classInfo _ | .nameAndType _ | .member .. | .long _ | .string _ | .methodType _ | .named .. =>
    .isTrue trivial

/-- The texts of a pool whose keys fit can be written. -/
theorem Laid.texts_fit {p : Pool} {records : List Record} (laid : Laid p records)
    (fits : ∀ entry ∈ p.indices, entry.1.Fits) {value : String} {i : Nat}
    (stands : Stands records (.utf8 value) i) : (Text.ModifiedUtf8.encode value).length < 65536 := by
  obtain ⟨constant, member⟩ := stands
  have entry : (ConstantKey.utf8 value, i) ∈ p.indices := by
    rw [laid.indices_eq]
    exact List.mem_map.mpr ⟨_, member, rfl⟩
  exact Nat.lt_succ_of_le (fits _ entry)

namespace ClassSpec

/-- The superclass, if there is one. -/
def parents (c : ClassSpec) : List String := if c.superName = "" then [] else [c.superName]

/-- The classes that a class names by themselves. -/
def classes (c : ClassSpec) : List String :=
  c.name :: (c.parents ++ c.interfaces ++ c.uses ++ c.refs.map MemberRef.owner ++ c.inner ++
    (c.fields ++ c.methods).flatMap fun m => m.exceptions ++ m.catches)

/-- The class names in a class, itself included. -/
def names (c : ClassSpec) : List String :=
  c.classes ++ c.refs.flatMap (fun r => descriptorNames r.descriptor) ++
    c.methodTypes.flatMap descriptorNames ++ (c.fields ++ c.methods).flatMap MemberSpec.names ++
    signatureNames c.signature ++ c.annotations.flatMap AnnotationSpec.names

/-- The annotation types on a class and its members. -/
def annotationTypes (c : ClassSpec) : List String :=
  (c.annotations ++ (c.fields ++ c.methods).flatMap MemberSpec.annotations).map AnnotationSpec.type

def vocabulary (c : ClassSpec) : Vocabulary where
  classes := c.classes
  refs := c.refs
  methodTypes := c.methodTypes

/-- What comes into the class under construction: the header, then the members one by one. -/
def headEffect (c : ClassSpec) : Effect :=
  (Effect.fills ({ · with access := c.access })).andThen
    ((Effect.fills ({ · with name := c.name })).andThen
      ((Effect.fills fun d =>
          { d with superName := if c.superName = "" then d.superName else c.superName }).andThen
        (Effect.all (c.interfaces.map fun name =>
          Effect.fills fun d => { d with interfaces := d.interfaces ++ [name] }))))

/-- What reading a field leaves. -/
def fieldEffect (m : MemberSpec) : Effect :=
  m.effect.andThen (Effect.fills fun d => { d with fields := d.fields ++ [m.member] })

/-- What reading a method leaves. -/
def methodEffect (m : MemberSpec) : Effect :=
  m.effect.andThen (Effect.fills fun d => { d with methods := d.methods ++ [m.member] })

/-- What reading the attributes of a class finds; each nested class is listed with its outer one. -/
def attributesEffect (c : ClassSpec) : Effect :=
  ((Effect.names (signatureNames c.signature)).andThen
    (Effect.all (c.annotations.map AnnotationSpec.effect))).andThen
    (Effect.all (c.inner.map fun name => (Effect.names [name]).andThen (Effect.names [c.name])))

/-- What reading a class leaves. -/
def effect (c : ClassSpec) : Effect :=
  c.headEffect.andThen ((Effect.all (c.fields.map fieldEffect)).andThen
    ((Effect.all (c.methods.map methodEffect)).andThen c.attributesEffect))

theorem edit_interfaces (names : List String) (d : Draft) :
    (Effect.all (names.map fun name =>
      Effect.fills fun d => { d with interfaces := d.interfaces ++ [name] })).edit d =
      { d with interfaces := d.interfaces ++ names } := by
  induction names generalizing d with
  | nil => simp
  | cons name names ih => simp [ih]

theorem edit_fields (fields : List MemberSpec) (d : Draft) :
    (Effect.all (fields.map fieldEffect)).edit d =
      { d with fields := d.fields ++ fields.map MemberSpec.member } := by
  induction fields generalizing d with
  | nil => simp
  | cons m fields ih => simp [ih, fieldEffect, MemberSpec.edit_effect]

theorem edit_methods (methods : List MemberSpec) (d : Draft) :
    (Effect.all (methods.map methodEffect)).edit d =
      { d with methods := d.methods ++ methods.map MemberSpec.member } := by
  induction methods generalizing d with
  | nil => simp
  | cons m methods ih => simp [ih, methodEffect, MemberSpec.edit_effect]

/-- The class under construction ends as it was described. -/
theorem edit_effect (c : ClassSpec) : c.effect.edit {} =
    { access := c.access, name := c.name, superName := c.superName, interfaces := c.interfaces
      fields := c.fields.map MemberSpec.member, methods := c.methods.map MemberSpec.member } := by
  have annotated : (Effect.all (c.annotations.map AnnotationSpec.effect)).edit = id :=
    Effect.edit_all_eq_id (by simp [AnnotationSpec.edit_effect])
  have nested : (Effect.all (c.inner.map fun name =>
      (Effect.names [name]).andThen (Effect.names [c.name]))).edit = id :=
    Effect.edit_all_eq_id (by simp)
  have parent : (if c.superName = "" then "" else c.superName) = c.superName := by
    split
    next absent => exact absent.symm
    next => rfl
  simp [effect, headEffect, attributesEffect, edit_interfaces, edit_fields, edit_methods, annotated,
    nested, parent]

/-- A class that can be written: its names are names, its texts are types, its lists can be counted,
and its pool holds every text and every slot it needs. Texts are taken from the pool, where an
annotation type stands in its descriptor form. -/
@[mk_iff]
structure WellFormed (c : ClassSpec) : Prop where
  nothingBehind : c.trailing = []
  versionKnown : 45 ≤ c.major ∧ c.major ≤ 69
  plain : ∀ name ∈ c.classes, ClassName.IsPlain name
  fields : ∀ m ∈ c.fields, m.WellFormed
  methods : ∀ m ∈ c.methods, m.WellFormed
  signature : IsSignature c.signature
  annotations : ∀ a ∈ c.annotations, a.WellFormed
  descriptors : ∀ r ∈ c.refs, IsDescriptor r.descriptor
  methodTypes : ∀ type ∈ c.methodTypes, IsDescriptor type
  noColon : ∀ r ∈ c.refs, ':' ∉ r.name.toList
  distinct : ∀ r ∈ c.refs, ∀ r' ∈ c.refs, r.kind = r'.kind → r.owner = r'.owner →
    r.name ++ r.descriptor = r'.name ++ r'.descriptor →
    r.name = r'.name ∧ r.descriptor = r'.descriptor
  fewInterfaces : c.interfaces.length < 65536
  fewFields : c.fields.length < 65536
  fewMethods : c.methods.length < 65536
  fewAnnotations : c.annotations.length < 65536
  fewInner : c.inner.length < 65536
  fewSlots : (c.body.run {}).2.slotCount ≤ 65534
  shortTexts : ∀ entry ∈ (c.body.run {}).2.indices, entry.1.Fits

instance (c : ClassSpec) : Decidable c.WellFormed := decidable_of_iff _ (wellFormed_iff c).symm

variable {c : ClassSpec}

theorem WellFormed.vocabulary (wellFormed : c.WellFormed) : c.vocabulary.WellFormed where
  plain := wellFormed.plain
  owners r inside := by
    have owner : r.owner ∈ c.refs.map MemberRef.owner := List.mem_map_of_mem inside
    simp only [ClassSpec.vocabulary, classes, List.mem_cons, List.mem_append]
    tauto
  noColon := wellFormed.noColon
  distinct r inside r' inside' kinds owners joined := by
    obtain ⟨names, types⟩ := wellFormed.distinct r inside r' inside' kinds owners joined
    cases r
    cases r'
    simp_all
  descriptors := wellFormed.descriptors
  methodTypes := wellFormed.methodTypes

/-- What only enters the pool is found there. -/
structure Filled (c : ClassSpec) (pool : ConstantPool) : Prop where
  uses : ∀ name ∈ c.uses, Knows pool name
  refs : ∀ r ∈ c.refs, Vocabulary.Refers pool r
  methodTypes : ∀ type ∈ c.methodTypes, ∃ i, Denotes pool (.methodType type) i

theorem fillPool_writes (wellFormed : c.WellFormed) :
    Writes (c.vocabulary.Holds []) (c.vocabulary.Holds c.refs.eraseDups) c.fillPool
      fun pool _ => c.Filled pool := by
  have known : ∀ name ∈ c.uses, name ∈ c.vocabulary.classes := by
    intro name inside
    simp only [ClassSpec.vocabulary, classes, List.mem_cons, List.mem_append]
    tauto
  have noted : c.refs.foldl Vocabulary.note [] = c.refs.eraseDups := by
    rw [Vocabulary.foldl_note]
    simp
  have welcome : Welcomes (c.vocabulary.Holds c.refs.eraseDups) c.vocabulary.classes :=
    Vocabulary.Holds.welcomes
  refine Writes.bind (Writes.forM fun name inside =>
    (classIndex_writes Vocabulary.Holds.welcomes (known name inside)).discard) fun _ => ?_
  refine Writes.bind (Vocabulary.members_writes wellFormed.vocabulary (List.Subset.refl _))
    fun _ => ?_
  rw [noted]
  refine Writes.bind (Writes.forM fun value _ => ((long_places value).writes ?_).discard) fun _ => ?_
  · simp only [List.forall_mem_singleton]
    exact Vocabulary.Holds.absorbs trivial rfl
  refine Writes.bind (Writes.forM fun value _ => ((string_places value).writes ?_).discard)
    fun _ => ?_
  · simp only [List.forall_mem_cons, List.not_mem_nil, false_implies, implies_true, and_true]
    exact ⟨welcome.texts value, Vocabulary.Holds.absorbs trivial rfl⟩
  refine (Writes.forM fun type inside => ((methodType_places type).writes ?_).discard).imp ?_
  · simp only [List.forall_mem_cons, List.not_mem_nil, false_implies, implies_true, and_true]
    exact ⟨welcome.texts type, Vocabulary.Holds.absorbs inside rfl⟩
  intro pool _ types _ _ refs uses
  refine ⟨fun name inside => ?_, refs, fun type inside => ?_⟩
  · obtain ⟨bytes, named⟩ := uses name inside
    exact named.knows
  · obtain ⟨i, _, _, denotes⟩ := types type inside
    exact ⟨i, denotes⟩

section

variable {keeps : List Record → Prop} {known : List String}

theorem innerBytes_writes (welcome : Welcomes keeps known) {outer name : String}
    (outerKnown : outer ∈ known) (nameKnown : name ∈ known) (plainOuter : ClassName.IsPlain outer)
    (plainName : ClassName.IsPlain name) :
    Writes keeps keeps (innerBytes outer name) fun pool part =>
      part.length ≤ 8 ∧ Reads (do
        let inner ← Scan.u2
        let outer ← Scan.u2
        Scan.skip 4
        classRef pool inner
        if outer ≠ 0 then classRef pool outer) part ()
        ((Effect.names [name]).andThen (Effect.names [outer])) := by
  refine Writes.bind (classIndex_writes welcome nameKnown) fun inner => ?_
  refine Writes.bind (classIndex_writes welcome outerKnown) fun outerBytes => ?_
  refine (textIndex_writes welcome _).map fun pool simple named outerNamed innerNamed => ?_
  have simpleSize := named.length
  refine ⟨by simp [innerNamed.length, outerNamed.length, simpleSize], ?_⟩
  obtain ⟨i, rfl, _, innerBound, innerFound⟩ := innerNamed
  obtain ⟨j, rfl, positive, outerBound, outerFound⟩ := outerNamed
  have flags : (simple ++ u2 0x9).length = 4 := by simp [simpleSize]
  simp only [List.append_assoc]
  refine Reads.bind_silent (Reads.u2 innerBound) ?_
  refine Reads.bind_silent (Reads.u2 outerBound) ?_
  refine Reads.bind_only (Reads.skip flags) ?_
  exact Reads.bind_first (classRef_reads plainName innerFound)
    (presentEntry_reads positive outerFound plainOuter)

theorem parentIndex_writes (welcome : Welcomes keeps known) {name : String}
    (nameKnown : name ≠ "" → name ∈ known) (plain : name ≠ "" → ClassName.IsPlain name) :
    Writes keeps keeps (parentIndex name) fun pool bytes =>
      (name ≠ "" → Knows pool name) ∧ Reads (Bytecode.readParent pool) bytes ()
        (Effect.fills fun d => { d with superName := if name = "" then d.superName else name }) := by
  unfold parentIndex
  split
  next absent =>
    refine Writes.pure fun pool => ⟨fun present => absurd absent present, ?_⟩
    exact Reads.bind_last (Reads.u2 (by decide)) (Reads.pure ())
  next present =>
    refine (classIndex_writes welcome (nameKnown present)).imp fun pool bytes named => ?_
    refine ⟨fun _ => named.knows, ?_⟩
    obtain ⟨i, rfl, positive, bounded, found⟩ := named
    refine Reads.bind_only (Reads.u2 bounded) ?_
    have filled : i ≠ 0 := by omega
    simp only [filled, ne_eq, not_false_eq_true, if_true]
    refine Reads.bind_still (Reads.lift found) ?_
    rw [ClassName.external_internal (plain present).noSlash]
    exact Reads.draft _

theorem interface_writes (welcome : Welcomes keeps known) {name : String} (nameKnown : name ∈ known)
    (plain : ClassName.IsPlain name) :
    Writes keeps keeps (classIndex name) fun pool bytes =>
      Knows pool name ∧ Reads (Bytecode.readInterface pool) bytes ()
        (Effect.fills fun d => { d with interfaces := d.interfaces ++ [name] }) := by
  refine (classIndex_writes welcome nameKnown).imp fun pool bytes named => ?_
  refine ⟨named.knows, ?_⟩
  obtain ⟨i, rfl, _, bounded, found⟩ := named
  refine Reads.bind_only (Reads.u2 bounded) ?_
  refine Reads.bind_still (Reads.lift found) ?_
  rw [ClassName.external_internal plain.noSlash]
  exact Reads.draft _

theorem field_writes (welcome : Welcomes keeps known) {m : MemberSpec} (wellFormed : m.WellFormed)
    (thrown : m.exceptions ⊆ known) (caught : m.catches ⊆ known) :
    Writes keeps keeps (memberBytes m) fun pool bytes =>
      Reads (Bytecode.readField pool) bytes () (fieldEffect m) := by
  refine (memberBytes_writes welcome wellFormed thrown caught).imp fun pool bytes reads => ?_
  exact (Reads.bind reads (Reads.draft _)).of_eq (List.append_nil _) rfl

theorem method_writes (welcome : Welcomes keeps known) {m : MemberSpec} (wellFormed : m.WellFormed)
    (thrown : m.exceptions ⊆ known) (caught : m.catches ⊆ known) :
    Writes keeps keeps (memberBytes m) fun pool bytes =>
      Reads (Bytecode.readMethod pool) bytes () (methodEffect m) := by
  refine (memberBytes_writes welcome wellFormed thrown caught).imp fun pool bytes reads => ?_
  exact (Reads.bind reads (Reads.draft _)).of_eq (List.append_nil _) rfl

end

/-- The pool knows the class, its superclass and its interfaces. -/
structure Headed (c : ClassSpec) (pool : ConstantPool) : Prop where
  name : Knows pool c.name
  parent : c.superName ≠ "" → Knows pool c.superName
  interfaces : ∀ name ∈ c.interfaces, Knows pool name

/-- The names that go into the pool by themselves are all names that a pool of the class welcomes. -/
theorem mem_classes (c : ClassSpec) :
    c.name ∈ c.classes ∧ (c.superName ≠ "" → c.superName ∈ c.classes) ∧
      c.interfaces ⊆ c.classes ∧ c.inner ⊆ c.classes ∧
      ∀ m, m ∈ c.fields ∨ m ∈ c.methods → m.exceptions ⊆ c.classes ∧ m.catches ⊆ c.classes := by
  refine ⟨List.mem_cons_self, ?_, ?_, ?_, ?_⟩
  · intro present
    simp [classes, parents, present]
  · intro name inside
    simp [classes, inside]
  · intro name inside
    simp [classes, inside]
  · intro m inside
    have all : m.exceptions ++ m.catches ⊆ c.classes := by
      intro name member
      have listed : name ∈ (c.fields ++ c.methods).flatMap fun m => m.exceptions ++ m.catches :=
        List.mem_flatMap.mpr ⟨m, List.mem_append.mpr inside, member⟩
      simp only [classes, List.mem_cons, List.mem_append]
      tauto
    exact List.append_subset.mp all

theorem attributes_writes (wellFormed : c.WellFormed) {keeps : List Record → Prop}
    (welcome : Welcomes keeps c.classes) :
    Writes keeps keeps c.attributes fun pool bytes =>
      Reads (Bytecode.Attribute.table pool) bytes () c.attributesEffect := by
  obtain ⟨named, _, _, nested, _⟩ := c.mem_classes
  have fewInner := wellFormed.fewInner
  have innerTable : Writes keeps keeps (counted c.inner (innerBytes c.name)) fun pool bytes =>
      bytes.length ≤ 524290 ∧ Reads (Bytecode.Attribute.innerClasses pool) bytes ()
        (Effect.all (c.inner.map fun name =>
          (Effect.names [name]).andThen (Effect.names [c.name]))) := by
    refine (counted_tabled_narrow fun name inside => innerBytes_writes welcome named (nested inside)
      (wellFormed.plain _ named) (wellFormed.plain _ (nested inside))).imp fun pool bytes written => ?_
    exact ⟨by omega, written.2.reads fewInner⟩
  refine Writes.bind (signature_writes welcome wellFormed.signature) fun signature => ?_
  refine Writes.bind (filled_writes (by decide)
    ((annotations_writes welcome wellFormed.annotations wellFormed.fewAnnotations).imp
      fun pool bytes ⟨size, reads⟩ => ⟨size, fun _ => reads⟩)) fun annotations => ?_
  refine Writes.bind (filled_writes (by decide)
    (innerTable.imp fun pool bytes ⟨size, reads⟩ => ⟨size, fun _ => reads⟩)) fun inner => ?_
  refine (table_writes welcome _).imp ?_
  rintro pool table reads ⟨fewInner, inner⟩ ⟨fewAnnotations, annotations⟩ ⟨fewSignature, signature⟩
  exact reads (by simp only [List.length_append]; omega) _
    ((signature.append annotations).append inner)

theorem body_writes (wellFormed : c.WellFormed) :
    Writes (c.vocabulary.Holds []) (c.vocabulary.Holds c.refs.eraseDups) c.body
      fun pool bytes => c.Headed pool ∧ c.Filled pool ∧
        Reads (Bytecode.readStructure pool) bytes () c.effect := by
  obtain ⟨named, parented, faced, _, handled⟩ := c.mem_classes
  have before : Welcomes (c.vocabulary.Holds []) c.classes := Vocabulary.Holds.welcomes
  have after : Welcomes (c.vocabulary.Holds c.refs.eraseDups) c.classes :=
    Vocabulary.Holds.welcomes
  refine Writes.bind (classIndex_writes before named) fun this => ?_
  refine Writes.bind (parentIndex_writes before parented fun present =>
    wellFormed.plain _ (parented present)) fun parent => ?_
  refine Writes.bind (counted_writes fun name inside =>
    interface_writes before (faced inside) (wellFormed.plain _ (faced inside))) fun interfaces => ?_
  refine Writes.bind (fillPool_writes wellFormed) fun _ => ?_
  refine Writes.bind (counted_tabled fun m inside => field_writes after (wellFormed.fields m inside)
    (handled m (.inl inside)).1 (handled m (.inl inside)).2) fun fields => ?_
  refine Writes.bind (counted_tabled fun m inside => method_writes after
    (wellFormed.methods m inside) (handled m (.inr inside)).1 (handled m (.inr inside)).2)
    fun methods => ?_
  refine (attributes_writes wellFormed after).map ?_
  rintro pool table tableRead ⟨methods, rfl, methodsRead⟩ ⟨fields, rfl, fieldsRead⟩ filled
    ⟨interfaces, rfl, interfacesWritten⟩ ⟨knowsParent, parentRead⟩ thisNamed
  obtain ⟨knowsInterfaces, interfacesRead⟩ := (List.forall₂_and_left _ _).mp interfacesWritten
  refine ⟨⟨thisNamed.knows, knowsParent, knowsInterfaces⟩, filled, ?_⟩
  have interfacesRead := Reads.times_items interfacesRead fun name _ part reads => reads
  obtain ⟨i, rfl, _, bounded, found⟩ := thisNamed
  have access : c.access.bits.toNat < 65536 := c.access.bits.toNat_lt
  have sameAccess : (⟨UInt16.ofNat c.access.bits.toNat⟩ : AccessFlags) = c.access := by simp
  have sameName := ClassName.external_internal (wellFormed.plain _ named).noSlash
  rw [effect, headEffect, wellFormed.nothingBehind, List.append_nil]
  simp only [List.append_assoc, Effect.andThen_assoc]
  refine Reads.bind_silent (Reads.u2 access) ?_
  rw [sameAccess]
  refine Reads.bind_first (Reads.draft _) ?_
  refine Reads.bind_silent (Reads.u2 bounded) ?_
  refine Reads.bind_still (Reads.lift found) ?_
  rw [sameName]
  refine Reads.bind_first (Reads.draft _) ?_
  refine Reads.bind parentRead ?_
  refine Reads.bind_silent (Reads.u2 wellFormed.fewInterfaces) ?_
  refine Reads.bind interfacesRead ?_
  refine Reads.bind_still Reads.checkpoint ?_
  refine Reads.bind_silent (Reads.u2 wellFormed.fewFields) ?_
  refine Reads.bind fieldsRead ?_
  refine Reads.bind_silent (Reads.u2 wellFormed.fewMethods) ?_
  exact Reads.bind methodsRead tableRead

end ClassSpec

end ClasspathAudit.Assembly
