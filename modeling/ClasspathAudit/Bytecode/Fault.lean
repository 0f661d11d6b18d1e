import ClasspathAudit.Bytecode.Cursor
import ClasspathAudit.Bytecode.Signature
import ClasspathAudit.Text.ModifiedUtf8

/-!
Why a class file is not understood: one cause per way of failing, with the wording in one place.
-/

namespace ClasspathAudit.Text.ModifiedUtf8

def Fault.message : Fault → String
  | nul offset => s!"invalid NUL byte at {offset}"
  | twoByte offset => s!"invalid 2-byte sequence at {offset}"
  | threeByte offset => s!"invalid 3-byte sequence at {offset}"
  | lead byte offset => s!"invalid byte 0x{String.ofList (hexByte byte)} at {offset}"

end ClasspathAudit.Text.ModifiedUtf8

namespace ClasspathAudit.Bytecode

open Text

/-- The kinds of constant pool entries. -/
inductive ConstantKind where
  | utf8 | integer | float | long | double | classInfo | string | fieldRef | methodRef
  | interfaceMethodRef | nameAndType | methodHandle | methodType | dynamic | invokeDynamic
  | moduleInfo | packageInfo
deriving DecidableEq, Repr

def ConstantKind.label : ConstantKind → String
  | utf8 => "utf8"
  | integer => "integer"
  | float => "float"
  | long => "long"
  | double => "double"
  | classInfo => "class"
  | string => "string"
  | fieldRef => "fieldref"
  | methodRef => "methodref"
  | interfaceMethodRef => "interfaceMethodref"
  | nameAndType => "nameAndType"
  | methodHandle => "methodHandle"
  | methodType => "methodType"
  | dynamic => "dynamic"
  | invokeDynamic => "invokeDynamic"
  | moduleInfo => "module"
  | packageInfo => "package"

/-- What a reader of the pool asked for. -/
inductive Expectation where
  | utf8 | classInfo | moduleOrPackage | nameAndType
deriving DecidableEq, Repr

def Expectation.label : Expectation → String
  | utf8 => "Utf8"
  | classInfo => "Class"
  | moduleOrPackage => "Module or Package"
  | nameAndType => "NameAndType"

inductive Fault where
  | truncated (truncation : Truncation)
  | trailing (count : Nat)
  | poolIndex (index : Nat)
  | poolKind (index : Nat) (expected : Expectation) (found : ConstantKind)
  | poolTag (index : Nat) (tag : Nat)
  | text (fault : ModifiedUtf8.Fault)
  | emptyClassName
  | descriptor (fault : DescriptorFault)
  | signature (fault : Signature.Fault)
  | elementTag (tag : UInt8)
  | targetType (target : UInt8)
  | inConstant (index : Nat) (cause : Fault)
  | inAttributeName (cause : Fault)
  | inAttribute (name : String) (cause : Fault)
deriving DecidableEq, Repr

def Fault.message : Fault → String
  | truncated t => t.message
  | trailing count => s!"{count} trailing bytes"
  | poolIndex index => s!"invalid constant pool index {index}"
  | poolKind index expected found =>
    s!"constant #{index}: expected {expected.label}, got *classfile.{found.label}Constant"
  | poolTag index tag => s!"constant #{index}: unknown tag {tag}"
  | text fault => fault.message
  | emptyClassName => "empty class name"
  | descriptor fault => fault.message
  | signature fault => fault.message
  | elementTag tag => s!"unknown element value tag {quoteByte tag}"
  | targetType target => s!"unknown type annotation target 0x{String.ofList (hexByte target)}"
  | inConstant index cause => s!"constant #{index}: {cause.message}"
  | inAttributeName cause => s!"attribute name: {cause.message}"
  | inAttribute name cause => s!"{name} attribute: {cause.message}"

end ClasspathAudit.Bytecode
