import ClasspathAudit.Assembly.Pool

/-!
Descriptions of classes, and the class files they stand for. All class names are external.
-/

namespace ClasspathAudit.Assembly

/-- A local variable, with a generic signature where it has one. -/
structure LocalSpec where
  name : String
  descriptor : String
  signature : String := ""
deriving DecidableEq, Repr

/-- An annotation with at most one class element and one enum element. -/
structure AnnotationSpec where
  type : String
  classValue : String := ""
  enumValue : String := ""
deriving DecidableEq, Repr

structure MemberSpec where
  name : String
  descriptor : String
  access : AccessFlags := ⟨0⟩
  signature : String := ""
  exceptions : List String := []
  annotations : List AnnotationSpec := []
  locals : List LocalSpec := []
  catches : List String := []
deriving DecidableEq, Repr

/-- A class to be written. Left alone it is public, of Java 8 and a direct subclass of the root
class. -/
structure ClassSpec where
  name : String
  major : Nat := 52
  access : AccessFlags := ⟨0x21⟩
  superName : String := ClassName.object
  interfaces : List String := []
  fields : List MemberSpec := []
  methods : List MemberSpec := []
  signature : String := ""
  annotations : List AnnotationSpec := []
  inner : List String := []
  uses : List String := []
  refs : List MemberRef := []
  longs : List Int := []
  strings : List String := []
  methodTypes : List String := []
  trailing : List UInt8 := []
deriving DecidableEq, Repr

def optionally (present : Bool) (name : String) (body : Build (List UInt8)) :
    Build (List AttributeBytes) := do
  if present then return [⟨name, ← body⟩] else return []

/-- A class element of an annotation, if there is one. -/
def classElement (value : String) : Build (List UInt8) :=
  if value = "" then pure [] else do
    let key ← textIndex "value"
    let value ← textIndex value
    return key ++ [99] ++ value

/-- An enum element of an annotation, if there is one. -/
def enumElement (type : String) : Build (List UInt8) :=
  if type = "" then pure [] else do
    let key ← textIndex "mode"
    let type ← textIndex type
    let constant ← textIndex "DEFAULT"
    return key ++ [101] ++ type ++ constant

def annotationBytes (a : AnnotationSpec) : Build (List UInt8) := do
  let type ← textIndex ("L" ++ ClassName.internal a.type ++ ";")
  let pairs := (if a.classValue = "" then 0 else 1) + (if a.enumValue = "" then 0 else 1)
  let classPart ← classElement a.classValue
  let enumPart ← enumElement a.enumValue
  return type ++ u2 pairs ++ classPart ++ enumPart

def localBytes (slot : Nat) (name type : String) : Build (List UInt8) := do
  let name ← textIndex name
  let type ← textIndex type
  return u2 0 ++ u2 1 ++ name ++ type ++ u2 slot

/-- The row of a local variable in the table of signatures, if it has one. -/
def typedRow (slot : Nat) (l : LocalSpec) : Build (List (List UInt8)) :=
  if l.signature = "" then pure [] else do
    return [← localBytes slot l.name l.signature]

def localRows (locals : List LocalSpec) : Build (List (List UInt8 × List (List UInt8))) :=
  locals.zipIdx.mapM fun (l, slot) => do
    let row ← localBytes slot l.name l.descriptor
    let typed ← typedRow slot l
    return (row, typed)

/-- A table of local variables, left out where it would be empty. -/
def localTable (name : String) (rows : List (List UInt8)) : List AttributeBytes :=
  if rows.isEmpty then [] else [⟨name, u2 rows.length ++ rows.flatten⟩]

def handlerBytes (name : String) : Build (List UInt8) := do
  return u2 0 ++ u2 1 ++ u2 0 ++ (← classIndex name)

def codeBytes (m : MemberSpec) : Build (List UInt8) := do
  let handlers ← counted m.catches handlerBytes
  let rows ← localRows m.locals
  let nested ← attributeTable <|
    localTable "LocalVariableTable" (rows.map Prod.fst) ++
    localTable "LocalVariableTypeTable" (rows.flatMap Prod.snd)
  return u2 1 ++ u2 (m.locals.length + 1) ++ u4 1 ++ [0xB1] ++ handlers ++ nested

def memberBytes (m : MemberSpec) : Build (List UInt8) := do
  let name ← textIndex m.name
  let type ← textIndex m.descriptor
  let signature ← optionally (m.signature ≠ "") "Signature" (textIndex m.signature)
  let exceptions ← optionally (!m.exceptions.isEmpty) "Exceptions" (counted m.exceptions classIndex)
  let annotations ← optionally (!m.annotations.isEmpty) "RuntimeVisibleAnnotations"
    (counted m.annotations annotationBytes)
  let code ← optionally (!m.locals.isEmpty || !m.catches.isEmpty) "Code" (codeBytes m)
  let table ← attributeTable (signature ++ exceptions ++ annotations ++ code)
  return u2 m.access.bits.toNat ++ name ++ type ++ table

namespace ClassSpec

/-- One nested class, declared public and static. -/
def innerBytes (outer name : String) : Build (List UInt8) := do
  let inner ← classIndex name
  let outer ← classIndex outer
  let simple ← textIndex (ClassName.simple name)
  return inner ++ outer ++ simple ++ u2 0x9

/-- The superclass, or none. -/
def parentIndex (name : String) : Build (List UInt8) :=
  if name = "" then pure (u2 0) else classIndex name

/-- The references, numbers and texts of a class, which only enter the pool. -/
def fillPool (c : ClassSpec) : Build Unit := do
  c.uses.forM fun name => discard (classIndex name)
  c.refs.forM fun r => discard (Pool.member r.kind (ClassName.internal r.owner) r.name r.descriptor)
  c.longs.forM fun value => discard (Pool.long value)
  c.strings.forM fun value => discard (Pool.string value)
  c.methodTypes.forM fun type => discard (Pool.methodType type)

def attributes (c : ClassSpec) : Build (List UInt8) := do
  let signature ← optionally (c.signature ≠ "") "Signature" (textIndex c.signature)
  let annotations ← optionally (!c.annotations.isEmpty) "RuntimeVisibleAnnotations"
    (counted c.annotations annotationBytes)
  let inner ← optionally (!c.inner.isEmpty) "InnerClasses" (counted c.inner (innerBytes c.name))
  attributeTable (signature ++ annotations ++ inner)

/-- Everything after the constant pool. -/
def body (c : ClassSpec) : Build (List UInt8) := do
  let this ← classIndex c.name
  let parent ← parentIndex c.superName
  let interfaces ← counted c.interfaces classIndex
  fillPool c
  let fields ← counted c.fields memberBytes
  let methods ← counted c.methods memberBytes
  let table ← c.attributes
  return u2 c.access.bits.toNat ++ this ++ parent ++ interfaces ++ fields ++ methods ++ table ++
    c.trailing

def bytes (c : ClassSpec) : List UInt8 := classFile c.major c.body

def path (c : ClassSpec) : String := ClassName.internal c.name ++ ".class"

end ClassSpec

end ClasspathAudit.Assembly
