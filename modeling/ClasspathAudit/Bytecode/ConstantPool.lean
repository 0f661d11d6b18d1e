import ClasspathAudit.Bytecode.Scan

/-!
The constant pool: entries numbered from one, a long or double entry followed by a slot that cannot be
used. Names are found by following indices from entry to entry.
-/

namespace ClasspathAudit.Bytecode

inductive Constant where
  | utf8 (value : String)
  | integer (bits : Nat)
  | float (bits : Nat)
  | long (high low : Nat)
  | double (high low : Nat)
  | classInfo (name : Nat)
  | string (value : Nat)
  | fieldRef (owner nameAndType : Nat)
  | methodRef (owner nameAndType : Nat)
  | interfaceMethodRef (owner nameAndType : Nat)
  | nameAndType (name descriptor : Nat)
  | methodHandle (kind reference : Nat)
  | methodType (descriptor : Nat)
  | dynamic (bootstrap nameAndType : Nat)
  | invokeDynamic (bootstrap nameAndType : Nat)
  | moduleInfo (name : Nat)
  | packageInfo (name : Nat)
deriving DecidableEq, Repr

namespace Constant

def kind : Constant → ConstantKind
  | utf8 .. => .utf8
  | integer .. => .integer
  | float .. => .float
  | long .. => .long
  | double .. => .double
  | classInfo .. => .classInfo
  | string .. => .string
  | fieldRef .. => .fieldRef
  | methodRef .. => .methodRef
  | interfaceMethodRef .. => .interfaceMethodRef
  | nameAndType .. => .nameAndType
  | methodHandle .. => .methodHandle
  | methodType .. => .methodType
  | dynamic .. => .dynamic
  | invokeDynamic .. => .invokeDynamic
  | moduleInfo .. => .moduleInfo
  | packageInfo .. => .packageInfo

def isWide : Constant → Bool
  | long .. | double .. => true
  | _ => false

open Scan

def readText (index : Nat) : Scan Constant := do
  let length ← u2
  let raw ← bytes length
  checkpoint
  match Text.ModifiedUtf8.decode raw with
  | .ok value => return .utf8 value
  | .error fault => throw (.inConstant index (.text fault))

def readPair (make : Nat → Nat → Constant) (first second : Scan Nat) : Scan Constant := do
  let a ← first
  let b ← second
  return make a b

def read (index : Nat) : Scan Constant := do
  let tag ← u1
  let entry ← match tag.toNat with
    | 1 => readText index
    | 3 => integer <$> u4
    | 4 => float <$> u4
    | 5 => readPair long u4 u4
    | 6 => readPair double u4 u4
    | 7 => classInfo <$> u2
    | 8 => string <$> u2
    | 9 => readPair fieldRef u2 u2
    | 10 => readPair methodRef u2 u2
    | 11 => readPair interfaceMethodRef u2 u2
    | 12 => readPair nameAndType u2 u2
    | 15 => readPair methodHandle (UInt8.toNat <$> u1) u2
    | 16 => methodType <$> u2
    | 17 => readPair dynamic u2 u2
    | 18 => readPair invokeDynamic u2 u2
    | 19 => moduleInfo <$> u2
    | 20 => packageInfo <$> u2
    | other => do
      checkpoint
      throw (.poolTag index other)
  checkpoint
  return entry

end Constant

/-- The slots of a pool, slot zero being unused. -/
structure ConstantPool where
  slots : Array (Option Constant)
deriving DecidableEq, Repr

namespace ConstantPool

open Scan

/-- Fills `count` slots from `index` on; the slot behind a wide entry stays empty. -/
def readSlots : Nat → Nat → Scan (List (Option Constant))
  | 0, _ => pure []
  | count + 1, index => do
    let entry ← Constant.read index
    if entry.isWide then
      match count with
      | 0 => return [some entry]
      | count + 1 => return some entry :: none :: (← readSlots count (index + 2))
    else return some entry :: (← readSlots count (index + 1))

def read : Scan ConstantPool := do
  let count ← u2
  checkpoint
  let entries ← readSlots (count - 1) 1
  return ⟨(none :: entries).toArray⟩

def get (pool : ConstantPool) (index : Nat) : Except Fault Constant :=
  if index = 0 then .error (.poolIndex index)
  else match pool.slots[index]? with
    | some (some entry) => .ok entry
    | _ => .error (.poolIndex index)

def utf8 (pool : ConstantPool) (index : Nat) : Except Fault String := do
  match ← pool.get index with
  | .utf8 value => return value
  | other => throw (.poolKind index .utf8 other.kind)

def className (pool : ConstantPool) (index : Nat) : Except Fault String := do
  match ← pool.get index with
  | .classInfo name => pool.utf8 name
  | other => throw (.poolKind index .classInfo other.kind)

def moduleOrPackage (pool : ConstantPool) (index : Nat) : Except Fault String := do
  match ← pool.get index with
  | .moduleInfo name => pool.utf8 name
  | .packageInfo name => pool.utf8 name
  | other => throw (.poolKind index .moduleOrPackage other.kind)

def nameAndType (pool : ConstantPool) (index : Nat) : Except Fault (String × String) := do
  match ← pool.get index with
  | .nameAndType name descriptor => return (← pool.utf8 name, ← pool.utf8 descriptor)
  | other => throw (.poolKind index .nameAndType other.kind)

def symbolsOf (pool : ConstantPool) : Constant → Scan Unit
  | .classInfo name => do Scan.className (← pool.utf8 name)
  | .nameAndType _ type => do Scan.descriptor addReferences (← pool.utf8 type)
  | .methodType type => do Scan.descriptor addReferences (← pool.utf8 type)
  | _ => pure ()

def symbolsFrom (pool : ConstantPool) : Nat → List (Option Constant) → Scan Unit
  | _, [] => pure ()
  | index, none :: rest => pool.symbolsFrom (index + 1) rest
  | index, some entry :: rest => do
    rewording (.inConstant index) (pool.symbolsOf entry)
    pool.symbolsFrom (index + 1) rest

def symbols (pool : ConstantPool) : Scan Unit := pool.symbolsFrom 0 pool.slots.toList

/-- The member reference of an entry, if it is one; a member of an array is not counted. -/
def memberRef (pool : ConstantPool) : Option Constant → Except Fault (Option MemberRef)
  | some (.fieldRef owner member) => resolve .field owner member
  | some (.methodRef owner member) => resolve .method owner member
  | some (.interfaceMethodRef owner member) => resolve .interfaceMethod owner member
  | _ => .ok none
where
  resolve (kind : MemberKind) (owner member : Nat) : Except Fault (Option MemberRef) := do
    let owner ← pool.className owner
    if Text.hasStart "[" owner then return none
    let (name, descriptor) ← pool.nameAndType member
    return some { kind, owner := ClassName.external owner, name, descriptor }

/-- The member references in pool order. -/
def memberRefs (pool : ConstantPool) : Except Fault (List MemberRef) := do
  return (← pool.slots.toList.mapM pool.memberRef).filterMap id

end ConstantPool

end ClasspathAudit.Bytecode
