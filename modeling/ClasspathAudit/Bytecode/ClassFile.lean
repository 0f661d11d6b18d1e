import ClasspathAudit.Bytecode.Attribute
import ClasspathAudit.Bytecode.Version
import ClasspathAudit.Digest.Highway
import ClasspathAudit.Error

/-!
Class files. Reading ends in one of three ways: with a class, with a class of a version that is not
known and whatever could be read of it, or with the reason why the bytes are no class file.
-/

namespace ClasspathAudit

namespace Bytecode

open Scan

/-- A field or method; the class types of its descriptor and attributes count as references. -/
def readMember (pool : ConstantPool) : Scan Member := do
  let access ← u2
  let nameIndex ← u2
  let name ← pool.utf8 nameIndex
  let typeIndex ← u2
  let type ← pool.utf8 typeIndex
  descriptor addReferences type
  Attribute.table pool
  return { name, descriptor := type, access := ⟨UInt16.ofNat access⟩ }

def draft (f : Draft → Draft) : Scan Unit :=
  modify fun s => { s with draft := f s.draft }

/-- The superclass, or none. -/
def readParent (pool : ConstantPool) : Scan Unit := do
  let index ← u2
  if index ≠ 0 then
    let name ← pool.className index
    draft ({ · with superName := ClassName.external name })

def readInterface (pool : ConstantPool) : Scan Unit := do
  let index ← u2
  let name ← pool.className index
  draft fun d => { d with interfaces := d.interfaces ++ [ClassName.external name] }

def readField (pool : ConstantPool) : Scan Unit := do
  let member ← readMember pool
  draft fun d => { d with fields := d.fields ++ [member] }

def readMethod (pool : ConstantPool) : Scan Unit := do
  let member ← readMember pool
  draft fun d => { d with methods := d.methods ++ [member] }

def readStructure (pool : ConstantPool) : Scan Unit := do
  let access ← u2
  draft ({ · with access := ⟨UInt16.ofNat access⟩ })
  let this ← u2
  let name ← pool.className this
  draft ({ · with name := ClassName.external name })
  readParent pool
  let interfaces ← u2
  times interfaces (readInterface pool)
  checkpoint
  let fields ← u2
  times fields (readField pool)
  let methods ← u2
  times methods (readMethod pool)
  Attribute.table pool

/-- Fails if bytes are left. -/
def readEnd : Scan Unit := do
  let left := (← get).cursor.rest.length
  if left ≠ 0 then throw (.trailing left)

/-- Everything after the constant pool, up to the end of the file. -/
def readBody (pool : ConstantPool) : Scan Unit := do
  readStructure pool
  readEnd

end Bytecode

namespace ClassFile

open Bytecode

/-- Why bytes are no class file. -/
inductive Defect where
  | header (fault : Fault)
  | magic
  | version (major minor : Nat)
  | pool (fault : Fault)
  | body (className : String) (fault : Fault)
deriving DecidableEq, Repr

def Defect.failure : Defect → Failure
  | header fault => .codedWithin .malformedClassFile "invalid header" (.plain fault.message)
  | magic => .coded .malformedClassFile "invalid magic number"
  | version major minor =>
    .coded .malformedClassFile s!"invalid class file version {major}.{minor}"
  | pool fault => .codedWithin .malformedClassFile "invalid constant pool" (.plain fault.message)
  | body name fault =>
    .codedWithin .malformedClassFile ("invalid class " ++ name) (.plain fault.message)

/-- How reading a class file ends. -/
inductive Parsed where
  | accepted (c : JavaClass) (moduleInfo : Option ModuleDescriptor)
  | degraded (c : JavaClass) (moduleInfo : Option ModuleDescriptor)
  | malformed (defect : Defect)
deriving DecidableEq, Repr

/-- The failure that comes with a class of an unknown version. -/
def unsupported (c : JavaClass) : Failure :=
  .coded .unsupportedClassVersion
    s!"class {c.name} has unsupported version {c.major} ({Version.javaVersion c.major})"

namespace Parsed

def class? : Parsed → Option JavaClass
  | accepted c _ | degraded c _ => some c
  | malformed _ => none

def failure? : Parsed → Option Failure
  | accepted _ _ => none
  | degraded c _ => some (unsupported c)
  | malformed defect => some defect.failure

end Parsed

/-- The names in ascending order, each once. -/
def sortedNames (names : List String) : List String :=
  (names.mergeSort fun a b => decide (a ≤ b)).foldr
    (fun name sorted => if sorted.head? = some name then sorted else name :: sorted) []

def assemble (bytes : List UInt8) (major minor : Nat) (s : Reading) (memberRefs : List MemberRef)
    (degraded : Bool) : JavaClass where
  name := s.draft.name
  major
  minor
  access := s.draft.access
  superName := s.draft.superName
  interfaces := s.draft.interfaces
  methods := s.draft.methods
  fields := s.draft.fields
  annotations := sortedNames (s.symbols.annotations.filter (· ≠ ""))
  references := sortedNames (s.symbols.references.filter (· ≠ s.draft.name))
  memberRefs
  hash := Digest.contentHash bytes
  size := bytes.length
  degraded

/-- The module descriptor of a reading, with the packages listed beside it in ascending order. -/
def assembleModule (s : Reading) : Option ModuleDescriptor :=
  s.symbols.moduleInfo.map fun m =>
    { m with packages := s.symbols.packages.mergeSort fun a b => decide (a ≤ b) }

/-- What stands in front of the constant pool. -/
inductive Header where
  | badMagic
  | versioned (major minor : Nat)

def readHeader : Scan Header := do
  let magic ← Scan.u4
  if magic ≠ 0xCAFEBABE then
    Scan.checkpoint
    return .badMagic
  let minor ← Scan.u2
  let major ← Scan.u2
  Scan.checkpoint
  return .versioned major minor

/-- Reads what follows the constant pool. In a class of an unknown version a fault ends a pass
without spoiling what the pass has found. -/
def parseBody (bytes : List UInt8) (major minor : Nat) (pool : ConstantPool) (start : Reading) :
    Parsed :=
  let (read, s) := (readBody pool).run.run start
  let (swept, swept') := pool.symbols.run.run s
  if Version.maxMajor < major then
    .degraded (assemble bytes major minor swept' [] true) (assembleModule swept')
  else match read, swept, pool.memberRefs with
    | .error fault, _, _ => .malformed (.body s.draft.name fault)
    | .ok _, .error fault, _ => .malformed (.body s.draft.name fault)
    | .ok _, .ok _, .error fault => .malformed (.body s.draft.name fault)
    | .ok _, .ok _, .ok memberRefs =>
      .accepted (assemble bytes major minor swept' memberRefs false) (assembleModule swept')

def parse (bytes : List UInt8) : Parsed :=
  match readHeader.run.run { cursor := { rest := bytes } } with
  | (.error fault, _) => .malformed (.header fault)
  | (.ok .badMagic, _) => .malformed .magic
  | (.ok (.versioned major minor), s) =>
    if (major : Int) < Version.minMajor then .malformed (.version major minor)
    else match ConstantPool.read.run.run s with
      | (.error fault, _) => .malformed (.pool fault)
      | (.ok pool, s) => parseBody bytes major minor pool s

/-- Reads the module descriptor out of a class file; an unknown version is no hindrance. -/
def parseModule (bytes : List UInt8) : Except Failure ModuleDescriptor :=
  match parse bytes with
  | .malformed defect => .error defect.failure
  | .accepted c found | .degraded c found =>
    match found with
    | some m => .ok m
    | none => .error (.coded .malformedClassFile (c.name ++ " is not a module descriptor"))

end ClassFile

end ClasspathAudit
