import ClasspathAudit.Proofs.Assembly.Attributes

/-!
Fields and methods as they are written, read back with their attributes: annotations, exceptions, and
code with its handlers and local variables.
-/

namespace ClasspathAudit.Assembly

open Bytecode (Constant ConstantPool Effect Scan)
open Bytecode.Scan (Reads)
open Bytecode.Attribute (classRef elementValue elementValueUpTo annotationWith tableUpTo)

variable {keeps : List Record → Prop} {classes : List String} {pool : ConstantPool}

/-- Elements of an annotation that are read as so many pairs. -/
def Elements (pool : ConstantPool) (count : Nat) (bytes : List UInt8) (e : Effect) : Prop :=
  bytes.length ≤ 7 * count ∧ ∃ parts effects, bytes = parts.flatten ∧ parts.length = count ∧
    List.Forall₂ (fun part e => Reads (do Scan.skip 2; elementValue pool) part () e)
      parts effects ∧ Effect.all effects = e

namespace Elements

theorem nil : Elements pool 0 [] {} := ⟨by simp, [], [], rfl, rfl, .nil, rfl⟩

theorem single {key value : List UInt8} {e : Effect} (keySize : key.length = 2)
    (size : value.length ≤ 5) (reads : Reads (elementValue pool) value () e) :
    Elements pool 1 (key ++ value) e := by
  refine ⟨by rw [List.length_append]; omega, [key ++ value], [e], by simp, rfl, ?_, by simp⟩
  exact .cons (Reads.bind_silent (Reads.skip keySize) reads) .nil

theorem append {m n : Nat} {bytes bytes' : List UInt8} {e e' : Effect}
    (first : Elements pool m bytes e) (second : Elements pool n bytes' e') :
    Elements pool (m + n) (bytes ++ bytes') (e.andThen e') := by
  obtain ⟨size, parts, effects, rfl, count, reads, total⟩ := first
  obtain ⟨size', parts', effects', rfl, count', reads', total'⟩ := second
  refine ⟨by rw [List.length_append]; omega, parts ++ parts', effects ++ effects', by simp, ?_,
    List.rel_append reads reads', ?_⟩
  · rw [List.length_append, count, count']
  · rw [Effect.all_append, total, total']

end Elements

theorem classValue_reads {value : String} {bytes : List UInt8} (named : NamesText pool value bytes)
    (accepted : IsDescriptor value) :
    Reads (elementValue pool) ([99] ++ bytes) () (Effect.names (descriptorNames value)) := by
  obtain ⟨i, rfl, bounded, found⟩ := named
  refine Reads.get_bind fun s _ => ?_
  refine Reads.bind_silent (Reads.u1 99) ?_
  refine Reads.bind_still Reads.checkpoint ?_
  refine Reads.bind_only (Reads.u2 bounded) ?_
  exact Reads.bind_still (Reads.lift found) (descriptor_reads accepted)

theorem enumValue_reads {type : String} {bytes constant : List UInt8}
    (named : NamesText pool type bytes) (constantSize : constant.length = 2)
    (accepted : IsDescriptor type) :
    Reads (elementValue pool) ([101] ++ (bytes ++ constant)) ()
      (Effect.names (descriptorNames type)) := by
  obtain ⟨i, rfl, bounded, found⟩ := named
  refine Reads.get_bind fun s _ => ?_
  refine Reads.bind_silent (Reads.u1 101) ?_
  refine Reads.bind_still Reads.checkpoint ?_
  refine Reads.bind_silent (Reads.u2 bounded) ?_
  refine Reads.bind_still (Reads.lift found) ?_
  exact Reads.bind_only (Reads.skip constantSize) (descriptor_reads accepted)

/-- An element that may be missing. -/
theorem element_writes {value : String} {build : Build (List UInt8)}
    (present : Writes keeps keeps build fun pool bytes =>
      Elements pool 1 bytes (Effect.names (descriptorNames value))) :
    Writes keeps keeps (if value = "" then pure [] else build) fun pool bytes =>
      Elements pool (if value = "" then 0 else 1) bytes (Effect.names (descriptorNames value)) := by
  split
  next absent =>
    rw [absent, descriptorNames_empty]
    exact Writes.pure fun pool => Elements.nil
  next => exact present

theorem classElement_writes (welcome : Welcomes keeps classes) {value : String}
    (accepted : IsDescriptor value) :
    Writes keeps keeps (classElement value) fun pool bytes =>
      Elements pool (if value = "" then 0 else 1) bytes (Effect.names (descriptorNames value)) := by
  refine element_writes (Writes.bind (textIndex_writes welcome "value") fun key => ?_)
  refine (textIndex_writes welcome value).map fun pool bytes named keyNamed => ?_
  rw [List.append_assoc]
  refine Elements.single keyNamed.length ?_ (classValue_reads named accepted)
  simp [named.length]

theorem enumElement_writes (welcome : Welcomes keeps classes) {type : String}
    (accepted : IsDescriptor type) :
    Writes keeps keeps (enumElement type) fun pool bytes =>
      Elements pool (if type = "" then 0 else 1) bytes (Effect.names (descriptorNames type)) := by
  refine element_writes (Writes.bind (textIndex_writes welcome "mode") fun key => ?_)
  refine Writes.bind (textIndex_writes welcome type) fun bytes => ?_
  refine (textIndex_writes welcome "DEFAULT").map fun pool constant constantNamed named keyNamed => ?_
  rw [List.append_assoc, List.append_assoc]
  refine Elements.single keyNamed.length ?_
    (enumValue_reads named constantNamed.length accepted)
  simp [named.length, constantNamed.length]

namespace AnnotationSpec

@[mk_iff]
structure WellFormed (a : AnnotationSpec) : Prop where
  type : ClassName.IsPlain a.type
  classValue : IsDescriptor a.classValue
  enumValue : IsDescriptor a.enumValue

instance (a : AnnotationSpec) : Decidable a.WellFormed :=
  decidable_of_iff _ (wellFormed_iff a).symm

/-- What reading an annotation finds. -/
def effect (a : AnnotationSpec) : Effect :=
  (Effect.marks [a.type]).andThen ((Effect.names (descriptorNames a.classValue)).andThen
    (Effect.names (descriptorNames a.enumValue)))

end AnnotationSpec

theorem annotationBytes_writes (welcome : Welcomes keeps classes) {a : AnnotationSpec}
    (wellFormed : a.WellFormed) :
    Writes keeps keeps (annotationBytes a) fun pool bytes =>
      bytes.length ≤ 18 ∧ Reads (annotationWith pool (elementValue pool)) bytes () a.effect := by
  refine Writes.bind (textIndex_writes welcome _) fun type => ?_
  refine Writes.bind (classElement_writes welcome wellFormed.classValue) fun classPart => ?_
  refine (enumElement_writes welcome wellFormed.enumValue).map fun pool enumPart
    enumRead classRead named => ?_
  have both := classRead.append enumRead
  generalize pairs : (if a.classValue = "" then 0 else 1) + (if a.enumValue = "" then 0 else 1) =
    count at both
  have few : count ≤ 2 := by
    rw [← pairs]
    split <;> split <;> omega
  obtain ⟨size, parts, effects, content, length, reads, total⟩ := both
  have typeSize := named.length
  refine ⟨?_, ?_⟩
  · rw [List.append_assoc, content]
    rw [content] at size
    simp only [List.length_append, u2_length]
    omega
  · obtain ⟨i, rfl, bounded, found⟩ := named
    have marked : Reads (Scan.descriptor Scan.addAnnotations
        ("L" ++ ClassName.internal a.type ++ ";")) [] () (Effect.marks [a.type]) := by
      have scanned := Descriptor.scan_className wellFormed.type
      refine Reads.descriptor (by rw [scanned]) ?_
      rw [scanned]
      exact Reads.addAnnotations _
    have values := Reads.times reads
    rw [length, total, ← content] at values
    simp only [List.append_assoc]
    refine Reads.bind_silent (Reads.u2 bounded) ?_
    refine Reads.bind_still (Reads.lift found) ?_
    refine Reads.bind_first marked ?_
    refine Reads.bind_silent (Reads.u2 (by omega)) ?_
    exact Reads.bind_last values Reads.checkpoint

/-- What reading classes named one after the other finds. -/
def namesEffect (names : List String) : Effect :=
  Effect.all (names.map fun name => Effect.names [name])

theorem classEntry_reads {name : String} {bytes : List UInt8} (named : NamesClass pool name bytes)
    (plain : ClassName.IsPlain name) :
    Reads (do let index ← Scan.u2; classRef pool index) bytes () (Effect.names [name]) := by
  obtain ⟨i, rfl, _, bounded, found⟩ := named
  exact Reads.bind_only (Reads.u2 bounded) (classRef_reads plain found)

/-- An index that may be missing and is not. -/
theorem presentEntry_reads {name : String} {i : Nat} (positive : 0 < i)
    (found : pool.className i = .ok (ClassName.internal name)) (plain : ClassName.IsPlain name) :
    Reads (if i ≠ 0 then classRef pool i else pure ()) [] () (Effect.names [name]) := by
  have present : i ≠ 0 := by omega
  simp only [present, ne_eq, not_false_eq_true, if_true]
  exact classRef_reads plain found

theorem exceptions_writes (welcome : Welcomes keeps classes) {names : List String}
    (known : names ⊆ classes) (plain : ∀ name ∈ names, ClassName.IsPlain name)
    (few : names.length < 65536) :
    Writes keeps keeps (counted names classIndex) fun pool bytes =>
      bytes.length ≤ 131072 ∧
      Reads (Bytecode.Attribute.exceptions pool) bytes () (namesEffect names) := by
  have each : ∀ name ∈ names, Writes keeps keeps (classIndex name) fun pool part =>
      part.length ≤ 2 ∧
      Reads (do let index ← Scan.u2; classRef pool index) part () (Effect.names [name]) := by
    intro name member
    refine (classIndex_writes welcome (known member)).imp fun pool part named => ?_
    exact ⟨by rw [named.length], classEntry_reads named (plain name member)⟩
  refine (counted_tabled_narrow each).imp fun pool bytes written => ?_
  exact ⟨by omega, written.2.reads few⟩

theorem annotations_writes (welcome : Welcomes keeps classes) {annotations : List AnnotationSpec}
    (wellFormed : ∀ a ∈ annotations, a.WellFormed) (few : annotations.length < 65536) :
    Writes keeps keeps (counted annotations annotationBytes) fun pool bytes =>
      bytes.length ≤ 1179632 ∧ Reads (Bytecode.Attribute.annotations pool) bytes ()
        (Effect.all (annotations.map AnnotationSpec.effect)) := by
  refine (counted_tabled_narrow fun a member =>
    annotationBytes_writes welcome (wellFormed a member)).imp fun pool bytes written => ?_
  exact ⟨by omega, written.2.reads few⟩

/-- One row of a table of local variables. -/
def localEntry (pool : ConstantPool) (type : String → Scan Unit) : Scan Unit := do
  Scan.skip 6
  let index ← Scan.u2
  let value ← pool.utf8 index
  Scan.skip 2
  type value

/-- A row of ten bytes. -/
def Row (pool : ConstantPool) (type : String → Scan Unit) (row : List UInt8) (e : Effect) : Prop :=
  row.length ≤ 10 ∧ Reads (localEntry pool type) row () e

theorem localBytes_writes (welcome : Welcomes keeps classes) {slot : Nat} {name value : String}
    {type : String → Scan Unit} {e : Effect} (reads : Reads (type value) [] () e) :
    Writes keeps keeps (localBytes slot name value) fun pool row => Row pool type row e := by
  refine Writes.bind (textIndex_writes welcome name) fun nameBytes => ?_
  refine (textIndex_writes welcome value).map fun pool typeBytes named nameNamed => ?_
  have nameSize := nameNamed.length
  refine ⟨?_, ?_⟩
  · simp only [List.length_append, u2_length, nameSize, named.length]
    omega
  · obtain ⟨i, rfl, bounded, found⟩ := named
    have front : (u2 0 ++ u2 1 ++ nameBytes).length = 6 := by
      simp only [List.length_append, u2_length, nameSize]
    rw [List.append_assoc _ (u2 i)]
    refine Reads.bind_silent (Reads.skip front) ?_
    refine Reads.bind_silent (Reads.u2 bounded) ?_
    refine Reads.bind_still (Reads.lift found) ?_
    exact Reads.bind_only (Reads.skip (u2_length slot)) reads

namespace LocalSpec

@[mk_iff]
structure WellFormed (l : LocalSpec) : Prop where
  descriptor : IsDescriptor l.descriptor
  signature : IsSignature l.signature

instance (l : LocalSpec) : Decidable l.WellFormed := decidable_of_iff _ (wellFormed_iff l).symm

/-- What reading the type of a local variable finds. -/
def typeEffect (l : LocalSpec) : Effect := Effect.names (descriptorNames l.descriptor)

/-- What reading the signature of a local variable finds. -/
def signatureEffect (l : LocalSpec) : Effect := Effect.names (signatureNames l.signature)

end LocalSpec

/-- The rows that a local variable has in the two tables. -/
def LocalRows (pool : ConstantPool) (l : LocalSpec) (rows : List UInt8 × List (List UInt8)) : Prop :=
  Row pool (Scan.descriptor Scan.addReferences) rows.1 l.typeEffect ∧ rows.2.length ≤ 1 ∧
    ∃ effects, List.Forall₂ (Row pool Scan.signature) rows.2 effects ∧
      Effect.all effects = l.signatureEffect

theorem typedRow_writes (welcome : Welcomes keeps classes) {slot : Nat} {l : LocalSpec}
    (wellFormed : l.WellFormed) :
    Writes keeps keeps (typedRow slot l) fun pool typed => typed.length ≤ 1 ∧
      ∃ effects, List.Forall₂ (Row pool Scan.signature) typed effects ∧
        Effect.all effects = l.signatureEffect := by
  unfold typedRow
  split
  next absent =>
    refine Writes.pure fun pool => ⟨by simp, [], .nil, ?_⟩
    rw [LocalSpec.signatureEffect, absent, signatureNames_empty]
    rfl
  next present =>
    refine (localBytes_writes welcome (Reads.signature wellFormed.signature)).map ?_
    intro pool row read
    exact ⟨by simp, [_], .cons read .nil, by rw [Effect.all_cons, Effect.all_nil]; simp; rfl⟩

theorem localRows_writes (welcome : Welcomes keeps classes) {locals : List LocalSpec}
    (wellFormed : ∀ l ∈ locals, l.WellFormed) :
    Writes keeps keeps (localRows locals) fun pool rows =>
      List.Forall₂ (LocalRows pool) locals rows := by
  have each : ∀ x ∈ locals.zipIdx, Writes keeps keeps
      (do
        let row ← localBytes x.2 x.1.name x.1.descriptor
        let typed ← typedRow x.2 x.1
        return (row, typed)) fun pool rows => LocalRows pool x.1 rows := by
    intro x member
    have sound := wellFormed x.1 (List.fst_mem_of_mem_zipIdx member)
    refine Writes.bind (localBytes_writes welcome (descriptor_reads sound.descriptor)) fun row => ?_
    exact (typedRow_writes welcome sound).map fun pool typed readTyped readRow =>
      ⟨readRow, readTyped.1, readTyped.2⟩
  refine (Writes.mapM each).imp fun pool rows written => ?_
  have fronts : List.Forall₂ (LocalRows pool) (locals.zipIdx.map Prod.fst) rows :=
    List.forall₂_map_left_iff.mpr written
  rwa [List.zipIdx_map_fst] at fronts

/-- The rows of the first table, and those of the second, in order. -/
theorem localRows_split {locals : List LocalSpec} {rows : List (List UInt8 × List (List UInt8))}
    (written : List.Forall₂ (LocalRows pool) locals rows) :
    List.Forall₂ (Row pool (Scan.descriptor Scan.addReferences)) (rows.map Prod.fst)
        (locals.map LocalSpec.typeEffect) ∧
      (rows.flatMap Prod.snd).length ≤ locals.length ∧
      ∃ effects, List.Forall₂ (Row pool Scan.signature) (rows.flatMap Prod.snd) effects ∧
        Effect.all effects = Effect.all (locals.map LocalSpec.signatureEffect) := by
  induction written with
  | nil => exact ⟨.nil, by simp, [], .nil, rfl⟩
  | cons first _ ih =>
    obtain ⟨typed, few, effects, read, total⟩ := ih
    obtain ⟨firstTyped, firstFew, firstEffects, firstRead, firstTotal⟩ := first
    refine ⟨.cons firstTyped typed, ?_, firstEffects ++ effects, ?_, ?_⟩
    · simp only [List.flatMap_cons, List.length_append, List.length_cons]
      omega
    · exact List.rel_append firstRead read
    · rw [Effect.all_append, firstTotal, total, List.map_cons, Effect.all_cons]

theorem localTable_length_le (name : String) (rows : List (List UInt8)) :
    (localTable name rows).length ≤ 1 := by
  unfold localTable
  split <;> simp

theorem localTable_attributes {nested : Scan Unit} {name : String} {type : String → Scan Unit}
    {rows : List (List UInt8)} {effects : List Effect}
    (kind : Bytecode.Attribute.body pool nested name = Bytecode.Attribute.localVariables pool type)
    (read : List.Forall₂ (Row pool type) rows effects) (few : rows.length < 65536) :
    (∀ a ∈ localTable name rows, a.body.length ≤ 655352) ∧
      Attributes pool nested (localTable name rows) (Effect.all effects) := by
  have count := read.length_eq
  have size := flatten_length_le read.flip fun _ _ row fits => fits.1
  have wide : (u2 rows.length ++ rows.flatten).length ≤ 655352 := by
    rw [List.length_append, u2_length]
    omega
  unfold localTable
  split
  next empty =>
    rw [List.isEmpty_iff.mp empty] at read
    cases read
    exact ⟨by simp, Attributes.nil⟩
  next filled =>
    refine ⟨by simpa using wide, Attributes.single ⟨by simp only; omega, ?_⟩⟩
    have each : List.Forall₂ (fun row e => Reads (localEntry pool type) row () e) rows effects :=
      read.imp fun _ _ fits => fits.2
    have tabled : Tabled (localEntry pool type) rows.length (u2 rows.length ++ rows.flatten)
        (Effect.all effects) := ⟨_, rfl, Reads.times each⟩
    rw [kind]
    exact tabled.reads few

namespace MemberSpec

/-- A member that can be written: its texts are types, its lists are short enough to be counted. -/
@[mk_iff]
structure WellFormed (m : MemberSpec) : Prop where
  descriptor : IsDescriptor m.descriptor
  signature : IsSignature m.signature
  exceptions : ∀ name ∈ m.exceptions, ClassName.IsPlain name
  catches : ∀ name ∈ m.catches, ClassName.IsPlain name
  annotations : ∀ a ∈ m.annotations, a.WellFormed
  locals : ∀ l ∈ m.locals, l.WellFormed
  fewExceptions : m.exceptions.length < 65536
  fewCatches : m.catches.length < 65536
  fewAnnotations : m.annotations.length < 65536
  fewLocals : m.locals.length < 65536

instance (m : MemberSpec) : Decidable m.WellFormed := decidable_of_iff _ (wellFormed_iff m).symm

/-- What reading the code of a member finds. -/
def codeEffect (m : MemberSpec) : Effect :=
  (namesEffect m.catches).andThen ((Effect.all (m.locals.map LocalSpec.typeEffect)).andThen
    (Effect.all (m.locals.map LocalSpec.signatureEffect)))

/-- What reading the attributes of a member finds. -/
def attributesEffect (m : MemberSpec) : Effect :=
  (((Effect.names (signatureNames m.signature)).andThen (namesEffect m.exceptions)).andThen
    (Effect.all (m.annotations.map AnnotationSpec.effect))).andThen m.codeEffect

/-- What reading a member finds. -/
def effect (m : MemberSpec) : Effect :=
  (Effect.names (descriptorNames m.descriptor)).andThen m.attributesEffect

/-- The member as it is read. -/
def member (m : MemberSpec) : Member :=
  { name := m.name, descriptor := m.descriptor, access := m.access }

end MemberSpec

theorem handlerBytes_writes (welcome : Welcomes keeps classes) {name : String}
    (known : name ∈ classes) (plain : ClassName.IsPlain name) :
    Writes keeps keeps (handlerBytes name) fun pool part =>
      part.length ≤ 8 ∧ Reads (do
        Scan.skip 6
        let caught ← Scan.u2
        if caught ≠ 0 then classRef pool caught) part () (Effect.names [name]) := by
  refine (classIndex_writes welcome known).map fun pool bytes named => ?_
  refine ⟨by simp [named.length], ?_⟩
  obtain ⟨i, rfl, positive, bounded, found⟩ := named
  refine Reads.bind_silent (Reads.skip rfl) ?_
  exact Reads.bind_only (Reads.u2 bounded) (presentEntry_reads positive found plain)

/-- The two tables of local variables, which hold no nested attributes themselves. -/
theorem localTables_attributes {locals : List LocalSpec}
    {rows : List (List UInt8 × List (List UInt8))}
    (written : List.Forall₂ (LocalRows pool) locals rows) (few : locals.length < 65536) :
    let tables := localTable "LocalVariableTable" (rows.map Prod.fst) ++
      localTable "LocalVariableTypeTable" (rows.flatMap Prod.snd)
    tables.length ≤ 2 ∧ (∀ a ∈ tables, a.body.length ≤ 655352) ∧
      ∀ nested, Attributes pool nested tables
        ((Effect.all (locals.map LocalSpec.typeEffect)).andThen
          (Effect.all (locals.map LocalSpec.signatureEffect))) := by
  obtain ⟨typed, fewTyped, effects, signed, total⟩ := localRows_split written
  have count : (rows.map Prod.fst).length = locals.length := by
    rw [List.length_map, written.length_eq]
  have first : ∀ nested, _ ∧ Attributes pool nested
      (localTable "LocalVariableTable" (rows.map Prod.fst)) _ := fun nested =>
    localTable_attributes rfl typed (by omega)
  have second : ∀ nested, _ ∧ Attributes pool nested
      (localTable "LocalVariableTypeTable" (rows.flatMap Prod.snd)) _ := fun nested =>
    localTable_attributes rfl signed (by omega)
  refine ⟨?_, ?_, ?_⟩
  · rw [List.length_append]
    have firstOne := localTable_length_le "LocalVariableTable" (rows.map Prod.fst)
    have secondOne := localTable_length_le "LocalVariableTypeTable" (rows.flatMap Prod.snd)
    omega
  · intro a member
    rcases List.mem_append.mp member with inFirst | inSecond
    · exact (first (pure ())).1 a inFirst
    · exact (second (pure ())).1 a inSecond
  · intro nested
    rw [← total]
    exact (first nested).2.append (second nested).2

theorem codeBytes_writes (welcome : Welcomes keeps classes) {m : MemberSpec}
    (wellFormed : m.WellFormed) (known : m.catches ⊆ classes) :
    Writes keeps keeps (codeBytes m) fun pool bytes =>
      bytes.length ≤ 2000000 ∧
      ∀ fuel, Reads (Bytecode.Attribute.code pool (tableUpTo pool (fuel + 1))) bytes ()
        m.codeEffect := by
  refine Writes.bind (counted_tabled_narrow fun name member =>
    handlerBytes_writes welcome (known member) (wellFormed.catches name member)) fun handlers => ?_
  refine Writes.bind (localRows_writes welcome wellFormed.locals) fun rows => ?_
  refine (attributeTable_writes welcome _).map ?_
  rintro pool nested ⟨_, size, reads⟩ written ⟨handlerSize, content, rfl, handlersRead⟩
  obtain ⟨fewTables, narrow, tables⟩ := localTables_attributes written wellFormed.fewLocals
  have fewCatches := wellFormed.fewCatches
  have nestedSize := size 655352 narrow
  refine ⟨?_, fun fuel => ?_⟩
  · simp only [List.length_append, u2_length, u4_length, List.length_singleton] at handlerSize ⊢
    omega
  · have nestedRead := reads (by omega) fuel _ (tables _)
    simp only [List.append_assoc]
    rw [← List.append_assoc (u2 1)]
    refine Reads.bind_silent (Reads.skip rfl) ?_
    refine Reads.bind_silent (Reads.u4 (by omega)) ?_
    refine Reads.bind_silent (Reads.skip rfl) ?_
    refine Reads.bind_silent (Reads.u2 fewCatches) ?_
    exact Reads.bind handlersRead nestedRead

/-- Attributes that leave an effect wherever a table can be nested in them. -/
def Listed (pool : ConstantPool) (attributes : List AttributeBytes) (e : Effect) : Prop :=
  ∀ fuel, Attributes pool (tableUpTo pool (fuel + 1)) attributes e

theorem Listed.append {first second : List AttributeBytes} {e e' : Effect}
    (listed : Listed pool first e) (listed' : Listed pool second e') :
    Listed pool (first ++ second) (e.andThen e') :=
  fun fuel => (listed fuel).append (listed' fuel)

/-- An attribute that is there or not; where it is not it would say nothing. -/
theorem optionally_writes {present : Bool} {name : String} {body : Build (List UInt8)} {e : Effect}
    {width : Nat} (absent : present = false → e = {}) (narrow : width < 4294967296)
    (writes : present = true → Writes keeps keeps body fun pool bytes => bytes.length ≤ width ∧
      ∀ fuel, Reads (Bytecode.Attribute.body pool (tableUpTo pool (fuel + 1)) name) bytes () e) :
    Writes keeps keeps (optionally present name body) fun pool attributes =>
      attributes.length ≤ 1 ∧ Listed pool attributes e := by
  cases present with
  | false =>
    rw [absent rfl]
    exact Writes.pure fun pool => ⟨by simp, fun fuel => Attributes.nil⟩
  | true =>
    refine (writes rfl).map fun pool bytes ⟨size, reads⟩ => ⟨by simp, fun fuel => ?_⟩
    exact Attributes.single ⟨by simp only; omega, reads fuel⟩

theorem signature_writes (welcome : Welcomes keeps classes) {value : String}
    (accepted : IsSignature value) :
    Writes keeps keeps (optionally (value ≠ "") "Signature" (textIndex value))
      fun pool attributes => attributes.length ≤ 1 ∧
        Listed pool attributes (Effect.names (signatureNames value)) := by
  have writes : Writes keeps keeps (textIndex value) fun pool bytes => bytes.length ≤ 2 ∧
      ∀ fuel, Reads (Bytecode.Attribute.body pool (tableUpTo pool (fuel + 1)) "Signature") bytes ()
        (Effect.names (signatureNames value)) := by
    refine (textIndex_writes welcome value).imp fun pool bytes named => ?_
    refine ⟨by rw [named.length], fun fuel => ?_⟩
    obtain ⟨i, rfl, bounded, found⟩ := named
    refine Reads.bind_only (Reads.u2 bounded) ?_
    exact Reads.bind_still (Reads.lift found) (Reads.signature accepted)
  refine optionally_writes ?_ (by decide) fun _ => writes
  intro empty
  have none : value = "" := by simpa using empty
  rw [none, signatureNames_empty, Effect.names_nil]

/-- A list that is left out when it is empty. -/
theorem filled_writes {α : Type} {items : List α} {name : String} {body : Build (List UInt8)}
    {effect : α → Effect} {width : Nat} (narrow : width < 4294967296)
    (writes : Writes keeps keeps body fun pool bytes => bytes.length ≤ width ∧
      ∀ fuel, Reads (Bytecode.Attribute.body pool (tableUpTo pool (fuel + 1)) name) bytes ()
        (Effect.all (items.map effect))) :
    Writes keeps keeps (optionally (!items.isEmpty) name body) fun pool attributes =>
      attributes.length ≤ 1 ∧ Listed pool attributes (Effect.all (items.map effect)) := by
  refine optionally_writes ?_ narrow fun _ => writes
  intro empty
  have none : items = [] := by simpa using empty
  rw [none]
  rfl

theorem table_writes (welcome : Welcomes keeps classes) (attributes : List AttributeBytes) :
    Writes keeps keeps (attributeTable attributes) fun pool bytes =>
      attributes.length < 65536 → ∀ e, Listed pool attributes e →
        Reads (Bytecode.Attribute.table pool) bytes () e := by
  refine (attributeTable_writes welcome attributes).imp fun pool bytes ⟨size, _, reads⟩ few e listed => ?_
  refine Reads.get_bind fun s fits => ?_
  -- The table takes at least its count, so there is fuel for the table inside code.
  obtain ⟨fuel, enough⟩ : ∃ fuel, s.cursor.rest.length = fuel + 1 :=
    Nat.exists_eq_add_of_le' (by omega)
  rw [enough]
  exact reads few _ e (listed fuel)

theorem memberBytes_writes (welcome : Welcomes keeps classes) {m : MemberSpec}
    (wellFormed : m.WellFormed) (thrown : m.exceptions ⊆ classes) (caught : m.catches ⊆ classes) :
    Writes keeps keeps (memberBytes m) fun pool bytes =>
      Reads (Bytecode.readMember pool) bytes m.member m.effect := by
  refine Writes.bind (textIndex_writes welcome m.name) fun name => ?_
  refine Writes.bind (textIndex_writes welcome m.descriptor) fun type => ?_
  refine Writes.bind (signature_writes welcome wellFormed.signature) fun signature => ?_
  refine Writes.bind (filled_writes (by decide)
    ((exceptions_writes welcome thrown wellFormed.exceptions wellFormed.fewExceptions).imp
      fun pool bytes ⟨size, reads⟩ => ⟨size, fun _ => reads⟩)) fun exceptions => ?_
  refine Writes.bind (filled_writes (by decide)
    ((annotations_writes welcome wellFormed.annotations wellFormed.fewAnnotations).imp
      fun pool bytes ⟨size, reads⟩ => ⟨size, fun _ => reads⟩)) fun annotations => ?_
  refine Writes.bind (optionally_writes ?_ (by decide) fun _ =>
    codeBytes_writes welcome wellFormed caught) fun code => ?_
  · intro empty
    have none : m.locals = [] ∧ m.catches = [] := by simpa using empty
    rw [MemberSpec.codeEffect, none.1, none.2]
    rfl
  refine (table_writes welcome _).map ?_
  rintro pool table reads ⟨fewCode, code⟩ ⟨fewAnnotations, annotations⟩
    ⟨fewExceptions, exceptions⟩ ⟨fewSignature, signature⟩ ⟨i, rfl, typeBound, typeFound⟩
    ⟨j, rfl, nameBound, nameFound⟩
  have tableRead := reads (by simp only [List.length_append]; omega) _
    (((signature.append exceptions).append annotations).append code)
  have access : m.access.bits.toNat < 65536 := m.access.bits.toNat_lt
  have same : (⟨UInt16.ofNat m.access.bits.toNat⟩ : AccessFlags) = m.access := by simp
  simp only [List.append_assoc]
  refine Reads.bind_silent (Reads.u2 access) ?_
  refine Reads.bind_silent (Reads.u2 nameBound) ?_
  refine Reads.bind_still (Reads.lift nameFound) ?_
  refine Reads.bind_silent (Reads.u2 typeBound) ?_
  refine Reads.bind_still (Reads.lift typeFound) ?_
  refine Reads.bind_first (descriptor_reads wellFormed.descriptor) ?_
  refine Reads.bind_last tableRead ?_
  rw [same]
  exact Reads.pure m.member

end ClasspathAudit.Assembly
