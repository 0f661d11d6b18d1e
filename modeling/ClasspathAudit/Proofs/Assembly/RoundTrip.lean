import ClasspathAudit.Proofs.Assembly.Classes
import ClasspathAudit.Proofs.Bytecode.NameSet

/-!
Class files as they are written, read back whole: the header, the members and the references of a
description return as they were given, and the names found are those that the description mentions.
-/

namespace ClasspathAudit.Assembly

open Bytecode (Constant ConstantPool Draft Effect Scan)
open Bytecode.Scan (Reads)

/-- A structure with nothing behind it is read up to the end of the file. -/
theorem readBody_run {pool : ConstantPool} {s s' : Bytecode.Reading}
    (run : (Bytecode.readStructure pool).run.run s = (.ok (), s')) (nothing : s'.cursor.rest = []) :
    (Bytecode.readBody pool).run.run s = (.ok (), s') := by
  rw [Bytecode.readBody, Scan.run_bind, run]
  simp only [Bytecode.readEnd, Scan.run_bind, Scan.run_get, nothing, List.length_nil, ne_eq,
    not_true_eq_false, if_false, Scan.run_pure]

/-- A file whose parts are read one after the other is accepted, or degraded if its version is too
new. -/
theorem parse_versioned {major : Nat} {poolBytes body : List UInt8} {pool : ConstantPool}
    {members : List MemberRef} {found swept : Effect} (notOld : 45 ≤ major) (small : major < 65536)
    (poolRead : Reads ConstantPool.read poolBytes pool {})
    (bodyRead : Reads (Bytecode.readStructure pool) body () found)
    (sweep : Reads pool.symbols [] () swept) (refs : pool.memberRefs = .ok members) :
    let bytes := u4 0xCAFEBABE ++ u2 0 ++ u2 major ++ poolBytes ++ body
    ∃ final : Bytecode.Reading, final.symbols = (found.andThen swept).found ∧
      final.draft = (found.andThen swept).edit {} ∧
      ClassFile.parse bytes = if Version.maxMajor < (major : Int) then
        .degraded (ClassFile.assemble bytes major 0 final [] true) (ClassFile.assembleModule final)
      else .accepted (ClassFile.assemble bytes major 0 final members false)
        (ClassFile.assembleModule final) := by
  intro bytes
  let start : Bytecode.Reading := { cursor := { rest := bytes } }
  have front : start.cursor.rest =
      u4 0xCAFEBABE ++ u2 0 ++ u2 major ++ (poolBytes ++ (body ++ [])) := by
    simp only [start, bytes, List.append_assoc, List.append_nil]
  obtain ⟨header, sound, stands⟩ := (Reads.header (by decide) small).left rfl front
  obtain ⟨constants, sound', stands'⟩ := poolRead.left sound stands
  obtain ⟨run, sound'', nothing⟩ := bodyRead.left sound' stands'
  obtain ⟨symbols, _, _⟩ := sweep.left sound'' nothing
  have old : ¬ (major : Int) < Version.minMajor := by
    simp only [Version.minMajor]
    omega
  let read := ((start.after (u4 0xCAFEBABE ++ u2 0 ++ u2 major).length {}).after
    poolBytes.length {}).after body.length found
  refine ⟨read.after 0 swept, ?_, ?_, ?_⟩
  · simp [read, Bytecode.Reading.after, Effect.andThen, start]
  · simp [read, Bytecode.Reading.after, start]
  · rw [ClassFile.parse, header]
    simp only [if_neg old, constants, ClassFile.parseBody, readBody_run run nothing, symbols, refs]
    rfl

/-- A file of a known version is accepted. -/
theorem parse_of_reads {major : Nat} {poolBytes body : List UInt8} {pool : ConstantPool}
    {members : List MemberRef} {found swept : Effect} (known : 45 ≤ major ∧ major ≤ 69)
    (poolRead : Reads ConstantPool.read poolBytes pool {})
    (bodyRead : Reads (Bytecode.readStructure pool) body () found)
    (sweep : Reads pool.symbols [] () swept) (refs : pool.memberRefs = .ok members) :
    let bytes := u4 0xCAFEBABE ++ u2 0 ++ u2 major ++ poolBytes ++ body
    ∃ final : Bytecode.Reading, final.symbols = (found.andThen swept).found ∧
      final.draft = (found.andThen swept).edit {} ∧
      ClassFile.parse bytes = .accepted (ClassFile.assemble bytes major 0 final members false)
        (ClassFile.assembleModule final) := by
  intro bytes
  obtain ⟨final, symbols, draft, parsed⟩ := parse_versioned known.1 (by omega) poolRead bodyRead sweep refs
  have new : ¬ Version.maxMajor < (major : Int) := by
    simp only [Version.maxMajor]
    omega
  rw [if_neg new] at parsed
  exact ⟨final, symbols, draft, parsed⟩

namespace ClassSpec

variable {c : ClassSpec} {records : List Record}

theorem mem_effect {name : String} : name ∈ c.effect.found.references ↔
    name ∈ (c.fields ++ c.methods).flatMap MemberSpec.names ∨ name ∈ signatureNames c.signature ∨
      name ∈ c.annotations.flatMap AnnotationSpec.names ∨
      ∃ inner ∈ c.inner, name = inner ∨ name = c.name := by
  have head : name ∉ c.headEffect.found.references := by
    simp [headEffect]
  have fields : name ∈ (Effect.all (c.fields.map fieldEffect)).found.references ↔
      ∃ m ∈ c.fields, name ∈ m.names := by
    simp [fieldEffect, MemberSpec.mem_effect]
  have methods : name ∈ (Effect.all (c.methods.map methodEffect)).found.references ↔
      ∃ m ∈ c.methods, name ∈ m.names := by
    simp [methodEffect, MemberSpec.mem_effect]
  have attributes : name ∈ c.attributesEffect.found.references ↔
      name ∈ signatureNames c.signature ∨ name ∈ c.annotations.flatMap AnnotationSpec.names ∨
        ∃ inner ∈ c.inner, name = inner ∨ name = c.name := by
    simp [attributesEffect, AnnotationSpec.mem_effect, or_assoc]
  simp only [effect, Effect.mem_references_andThen, head, false_or, fields, methods, attributes,
    List.flatMap_append, List.mem_append, List.mem_flatMap, or_assoc]

theorem mem_marked {name : String} :
    name ∈ c.effect.found.annotations ↔ name ∈ c.annotationTypes := by
  have head : name ∉ c.headEffect.found.annotations := by
    simp [headEffect]
  have fields : name ∈ (Effect.all (c.fields.map fieldEffect)).found.annotations ↔
      ∃ m ∈ c.fields, name ∈ m.annotations.map AnnotationSpec.type := by
    simp [fieldEffect, MemberSpec.mem_marked]
  have methods : name ∈ (Effect.all (c.methods.map methodEffect)).found.annotations ↔
      ∃ m ∈ c.methods, name ∈ m.annotations.map AnnotationSpec.type := by
    simp [methodEffect, MemberSpec.mem_marked]
  have attributes : name ∈ c.attributesEffect.found.annotations ↔
      name ∈ c.annotations.map AnnotationSpec.type := by
    simp [attributesEffect, AnnotationSpec.mem_marked, eq_comm]
  simp only [effect, Effect.mem_annotations_andThen, head, false_or, fields, methods, attributes,
    annotationTypes, List.map_append, List.flatMap_append, List.map_flatMap, List.mem_append,
    List.mem_flatMap]
  exact or_rotate.symm

theorem mem_names {name : String} : name ∈ c.names ↔
    name ∈ c.classes ∨ (∃ r ∈ c.refs, name ∈ descriptorNames r.descriptor) ∨
      (∃ type ∈ c.methodTypes, name ∈ descriptorNames type) ∨
      name ∈ (c.fields ++ c.methods).flatMap MemberSpec.names ∨
      name ∈ signatureNames c.signature ∨ name ∈ c.annotations.flatMap AnnotationSpec.names := by
  rw [names]
  simp only [List.mem_append, List.mem_flatMap (l := c.refs), List.mem_flatMap (l := c.methodTypes),
    or_assoc]

/-- Passing over the pool finds nothing that the class does not mention. -/
theorem sweep_subset_names (wellFormed : c.WellFormed)
    (holds : c.vocabulary.Holds c.refs.eraseDups records) {name : String}
    (found : name ∈ (sweepEffect records).found.references) : name ∈ c.names := by
  obtain ⟨s, member, mentioned⟩ := mem_sweepEffect.mp found
  have allowed := holds.allowed s member
  rw [mem_names]
  cases shape : s.item with
  | classInfo internal =>
    rw [shape] at allowed mentioned
    obtain ⟨external, inside, rfl⟩ := allowed
    have same : name = external := by
      simpa [Item.effect, ClassName.external_internal (wellFormed.plain _ inside).noSlash] using
        mentioned
    rw [same]
    exact .inl inside
  | nameAndType text type =>
    rw [shape] at allowed mentioned
    obtain ⟨r, inside, rfl, rfl⟩ := allowed
    exact .inr (.inl ⟨r, inside, by simpa [Item.effect] using mentioned⟩)
  | methodType type =>
    rw [shape] at allowed mentioned
    exact .inr (.inr (.inl ⟨type, allowed, by simpa [Item.effect] using mentioned⟩))
  | _ => simp [shape, Item.effect] at mentioned

/-- Every class that is named by itself is found, in the structure or by passing over the pool. -/
theorem mem_found_of_class (wellFormed : c.WellFormed) {p : Pool} (laid : Laid p records)
    (small : (cells records).length < 65535) (headed : c.Headed (poolOf records))
    (filled : c.Filled (poolOf records)) {name : String} (inside : name ∈ c.classes) :
    name ∈ c.effect.found.references ∨ name ∈ (sweepEffect records).found.references := by
  have swept : Knows (poolOf records) name →
      name ∈ (sweepEffect records).found.references := by
    rintro ⟨i, found⟩
    have mentioned := mem_sweepEffect_class laid small found
    rwa [ClassName.external_internal (wellFormed.plain _ inside).noSlash] at mentioned
  simp only [classes, List.mem_cons, List.mem_append, or_assoc] at inside
  rcases inside with isName | isParent | isInterface | isUsed | isOwner | isInner | handled
  · exact .inr (swept (isName ▸ headed.name))
  · unfold parents at isParent
    split at isParent
    next => simp at isParent
    next present =>
      rw [List.mem_singleton.mp isParent] at swept ⊢
      exact .inr (swept (headed.parent present))
  · exact .inr (swept (headed.interfaces name isInterface))
  · exact .inr (swept (filled.uses name isUsed))
  · obtain ⟨r, member, rfl⟩ := List.mem_map.mp isOwner
    exact .inr (swept (filled.refs r member).1)
  · exact .inl (mem_effect.mpr (.inr (.inr (.inr ⟨name, isInner, .inl rfl⟩))))
  · obtain ⟨m, member, thrown⟩ := List.mem_flatMap.mp handled
    have mentioned : name ∈ m.names := by
      rcases List.mem_append.mp thrown with isException | isCaught
      · simp [MemberSpec.names, isException]
      · simp [MemberSpec.names, isCaught]
    exact .inl (mem_effect.mpr (.inl (List.mem_flatMap.mpr ⟨m, member, mentioned⟩)))

/-- Reading finds exactly the names that the class mentions. -/
theorem mem_found_iff (wellFormed : c.WellFormed) {p : Pool} (laid : Laid p records)
    (small : (cells records).length < 65535) (holds : c.vocabulary.Holds c.refs.eraseDups records)
    (headed : c.Headed (poolOf records)) (filled : c.Filled (poolOf records)) {name : String} :
    name ∈ (c.effect.andThen (sweepEffect records)).found.references ↔ name ∈ c.names := by
  rw [Effect.mem_references_andThen]
  constructor
  · rintro (structural | found)
    · rw [mem_names]
      rcases mem_effect.mp structural with inMember | inSignature | annotated | ⟨inner, inside, nested⟩
      · exact .inr (.inr (.inr (.inl inMember)))
      · exact .inr (.inr (.inr (.inr (.inl inSignature))))
      · exact .inr (.inr (.inr (.inr (.inr annotated))))
      · obtain ⟨named, _, _, listed, _⟩ := c.mem_classes
        rcases nested with rfl | rfl
        · exact .inl (listed inside)
        · exact .inl named
    · exact sweep_subset_names wellFormed holds found
  · intro mentioned
    rcases mem_names.mp mentioned with isClass | ⟨r, inside, inType⟩ | ⟨type, inside, inType⟩ |
      inMember | inSignature | annotated
    · exact mem_found_of_class wellFormed laid small headed filled isClass
    · obtain ⟨i, found⟩ := (filled.refs r inside).2
      exact .inr (mem_sweepEffect_type laid small found inType)
    · obtain ⟨i, found⟩ := filled.methodTypes type inside
      exact .inr (mem_sweepEffect_methodType laid small found inType)
    · exact .inl (mem_effect.mpr (.inl inMember))
    · exact .inl (mem_effect.mpr (.inr (.inl inSignature)))
    · exact .inl (mem_effect.mpr (.inr (.inr (.inl annotated))))

/-- The class that is read back from a description. Its names ascend strictly, so each of them stands
once, and a class does not refer to itself. -/
structure Describes (c : ClassSpec) (found : JavaClass) : Prop where
  name : found.name = c.name
  major : found.major = c.major
  minor : found.minor = 0
  access : found.access = c.access
  superName : found.superName = c.superName
  interfaces : found.interfaces = c.interfaces
  fields : found.fields = c.fields.map MemberSpec.member
  methods : found.methods = c.methods.map MemberSpec.member
  memberRefs : found.memberRefs = c.refs.eraseDups
  annotationsAscend : found.annotations.Pairwise (· < ·)
  annotations : ∀ name, name ∈ found.annotations ↔ name ∈ c.annotationTypes
  referencesAscend : found.references.Pairwise (· < ·)
  references : ∀ name, name ∈ found.references ↔ name ∈ c.names ∧ name ≠ c.name
  complete : found.degraded = false

theorem annotationTypes_nonempty (wellFormed : c.WellFormed) {name : String}
    (inside : name ∈ c.annotationTypes) : name ≠ "" := by
  obtain ⟨a, listed, rfl⟩ := List.mem_map.mp inside
  rcases List.mem_append.mp listed with onClass | onMember
  · exact (wellFormed.annotations a onClass).type.nonempty
  · obtain ⟨m, member, inMember⟩ := List.mem_flatMap.mp onMember
    have sound : m.WellFormed := by
      rcases List.mem_append.mp member with isField | isMethod
      · exact wellFormed.fields m isField
      · exact wellFormed.methods m isMethod
    exact (sound.annotations a inMember).type.nonempty

/-- Every class that can be written is read back as it was described. -/
theorem parse_bytes_describes (wellFormed : c.WellFormed) :
    ∃ found moduleInfo, ClassFile.parse c.bytes = .accepted found moduleInfo ∧
      c.Describes found := by
  obtain ⟨records, laid, holds, written⟩ :=
    body_writes wellFormed {} [] .empty ⟨by simp, rfl⟩
  rw [List.append_nil] at laid holds written
  have small : (cells records).length < 65535 := by
    have slots := wellFormed.fewSlots
    rw [laid.cells_length]
    omega
  have texts : ∀ value i, Stands records (.utf8 value) i →
      (Text.ModifiedUtf8.encode value).length < 65536 := fun value i stands =>
    laid.texts_fit wellFormed.shortTexts stands
  obtain ⟨headed, filled, reads⟩ := written _ (laid.resolves small)
  obtain ⟨final, symbols, draft, accepted⟩ := parse_of_reads wellFormed.versionKnown
    (laid.pool_reads small texts) reads (symbols_reads wellFormed.vocabulary holds laid small)
    (memberRefs_eq wellFormed.vocabulary holds laid small)
  rw [Effect.edit_andThen, edit_sweepEffect, Function.id_comp, edit_effect] at draft
  refine ⟨_, _, accepted, ?_⟩
  constructor
  case annotationsAscend => exact ClassFile.sortedNames_pairwise _
  case referencesAscend => exact ClassFile.sortedNames_pairwise _
  case annotations =>
    intro name
    simp only [ClassFile.assemble, symbols, ClassFile.mem_sortedNames, List.mem_filter,
      Effect.mem_annotations_andThen, mem_marked, annotations_sweepEffect, or_false,
      decide_eq_true_eq, ne_eq]
    exact ⟨And.left, fun inside => ⟨inside, annotationTypes_nonempty wellFormed inside⟩⟩
  case references =>
    intro name
    simp only [ClassFile.assemble, symbols, draft, ClassFile.mem_sortedNames, List.mem_filter,
      mem_found_iff wellFormed laid small holds headed filled, decide_eq_true_eq]
  all_goals simp only [ClassFile.assemble, draft]

/-- A class with shared and repeated constants, a wide one among them, and with code. -/
def ledger : ClassSpec where
  name := "bank.Ledger"
  superName := "bank.Book"
  interfaces := ["bank.Audited"]
  fields := [{ name := "total", descriptor := "J", signature := "TT;" }]
  methods := [
    { name := "post"
      descriptor := "(Lbank/Entry;)V"
      exceptions := ["bank.Closed"]
      annotations := [{ type := "bank.Traced", classValue := "Lbank/Sink;" }]
      locals := [{ name := "entry", descriptor := "Lbank/Entry;" }]
      catches := ["bank.Closed"] }]
  refs := [
    { kind := .method, owner := "bank.Entry", name := "apply", descriptor := "()V" },
    { kind := .field, owner := "bank.Entry", name := "apply", descriptor := "()V" },
    { kind := .method, owner := "bank.Entry", name := "apply", descriptor := "()V" }]
  longs := [-1]
  methodTypes := ["()Lbank/Entry;"]
  inner := ["bank.Ledger$Page"]

theorem parse_ledger_describes : ledger.WellFormed ∧
    ∃ found moduleInfo, ClassFile.parse ledger.bytes = .accepted found moduleInfo ∧
      ledger.Describes found :=
  ⟨by decide +kernel, parse_bytes_describes (by decide +kernel)⟩

end ClassSpec

end ClasspathAudit.Assembly
