import ClasspathAudit.Model.Class
import ClasspathAudit.Text.ModifiedUtf8

/-!
A constant pool under construction. Asking for a constant returns the index it already has, or gives
it the next one; a constant is recognised by a key, so equal keys share an entry.
-/

namespace ClasspathAudit.Assembly

def u1 (n : Nat) : List UInt8 := [UInt8.ofNat n]

/-- Two bytes, most significant first. -/
def u2 (n : Nat) : List UInt8 := [UInt8.ofNat (n / 256), UInt8.ofNat n]

def u4 (n : Nat) : List UInt8 := u2 (n / 65536) ++ u2 n

/-- What tells constants apart. A name and its descriptor are joined in the key of a reference. -/
inductive ConstantKey where
  | utf8 (value : String)
  | classInfo (internal : String)
  | nameAndType (joined : String)
  | member (tag : Nat) (owner joined : String)
  | long (value : Int)
  | string (value : String)
  | methodType (descriptor : String)
  | named (tag : Nat) (name : String)
deriving DecidableEq, Repr

structure Pool where
  /-- The bytes of the entries so far, latest entry first. -/
  entries : List (List UInt8) := []
  indices : List (ConstantKey × Nat) := []
  next : Nat := 1

abbrev Build := StateM Pool

namespace Pool

/-- The index of a constant, whose bytes and slots matter only if it is new. -/
def put (key : ConstantKey) (slots : Nat) (entry : List UInt8) : Build Nat := fun p =>
  match p.indices.find? (·.1 = key) with
  | some (_, index) => (index, p)
  | none =>
    (p.next,
      { entries := entry :: p.entries
        indices := (key, p.next) :: p.indices
        next := (p.next + slots) % 65536 })

def utf8 (value : String) : Build Nat :=
  let encoded := Text.ModifiedUtf8.encode value
  put (.utf8 value) 1 (u1 1 ++ u2 encoded.length ++ encoded)

def classInfo (internal : String) : Build Nat := do
  let name ← utf8 internal
  put (.classInfo internal) 1 (u1 7 ++ u2 name)

def nameAndType (name descriptor : String) : Build Nat := do
  let nameIndex ← utf8 name
  let typeIndex ← utf8 descriptor
  put (.nameAndType (name ++ ":" ++ descriptor)) 1 (u1 12 ++ u2 nameIndex ++ u2 typeIndex)

def memberTag : MemberKind → Nat
  | .field => 9
  | .method => 10
  | .interfaceMethod => 11

/-- A member reference, its owner in internal form. -/
def member (kind : MemberKind) (owner name descriptor : String) : Build Nat := do
  let ownerIndex ← classInfo owner
  let memberIndex ← nameAndType name descriptor
  put (.member (memberTag kind) owner (name ++ descriptor)) 1
    (u1 (memberTag kind) ++ u2 ownerIndex ++ u2 memberIndex)

def long (value : Int) : Build Nat :=
  let bits := (value % 0x10000000000000000).toNat
  put (.long value) 2 (u1 5 ++ u4 (bits / 0x100000000) ++ u4 bits)

def string (value : String) : Build Nat := do
  let index ← utf8 value
  put (.string value) 1 (u1 8 ++ u2 index)

def methodType (descriptor : String) : Build Nat := do
  let index ← utf8 descriptor
  put (.methodType descriptor) 1 (u1 16 ++ u2 index)

def named (tag : Nat) (name : String) : Build Nat := do
  let index ← utf8 name
  put (.named tag name) 1 (u1 tag ++ u2 index)

def moduleName (name : String) : Build Nat := named 19 name

def packageName (package : String) : Build Nat := named 20 (ClassName.internal package)

/-- The finished pool, its slot count in front. -/
def bytes (p : Pool) : List UInt8 := u2 p.next ++ p.entries.reverse.flatten

end Pool

/-- An attribute with its finished body. -/
structure AttributeBytes where
  name : String
  body : List UInt8

/-- A table of attributes; their names enter the pool after all bodies. -/
def attributeTable (attributes : List AttributeBytes) : Build (List UInt8) := do
  let parts ← attributes.mapM fun a => do
    let name ← Pool.utf8 a.name
    return u2 name ++ u4 a.body.length ++ a.body
  return u2 attributes.length ++ parts.flatten

/-- A class by its external name, as an index. -/
def classIndex (name : String) : Build (List UInt8) := do
  return u2 (← Pool.classInfo (ClassName.internal name))

def textIndex (value : String) : Build (List UInt8) := do
  return u2 (← Pool.utf8 value)

def counted {α : Type} (items : List α) (item : α → Build (List UInt8)) : Build (List UInt8) := do
  let parts ← items.mapM item
  return u2 items.length ++ parts.flatten

def classFile (major : Nat) (body : Build (List UInt8)) : List UInt8 :=
  let (bytes, pool) := body.run {}
  u4 0xCAFEBABE ++ u2 0 ++ u2 major ++ pool.bytes ++ bytes

end ClasspathAudit.Assembly
