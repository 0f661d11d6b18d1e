import ClasspathAudit.Proofs.Bytecode.Outcomes

/-!
Class files in parts. A class file is taken apart into its header, its pool, its members and its tables of
attributes; the body of an attribute is left as bytes, but that of code falls into instructions, handlers
and a table of its own. The bytes of the parts, with the lengths and the counts in front of them, make up
the file.
-/

namespace ClasspathAudit.Bytecode

/-- A range of instructions, its handler and the class it catches, all of them indices. -/
structure HandlerPart where
  first : UInt16
  behind : UInt16
  handler : UInt16
  caught : UInt16
deriving DecidableEq, Repr

/-- An attribute, by the index of its name. -/
inductive AttributePart where
  | plain (index : UInt16) (content : List UInt8)
  | code (index maxStack maxLocals : UInt16) (instructions : List UInt8)
    (handlers : List HandlerPart) (nested : List AttributePart)

structure MemberPart where
  access : UInt16
  name : UInt16
  type : UInt16
  attributes : List AttributePart

/-- A class file in parts; its pool is one that decodes. -/
structure FileParts where
  minor : UInt16
  major : UInt16
  constants : List UInt8
  pool : ConstantPool
  decodes : ConstantPool.Decodes constants pool
  access : UInt16
  this : UInt16
  parent : UInt16
  interfaces : List UInt16
  fields : List MemberPart
  methods : List MemberPart
  attributes : List AttributePart

/-- The constant pool entry of a text. -/
def textEntry (value : String) : List UInt8 :=
  let encoded := Text.ModifiedUtf8.encode value
  [1] ++ Assembly.u2 encoded.length ++ encoded

def indexBytes (index : UInt16) : List UInt8 := Assembly.u2 index.toNat

def HandlerPart.range (h : HandlerPart) : List UInt8 :=
  indexBytes h.first ++ indexBytes h.behind ++ indexBytes h.handler

def HandlerPart.bytes (h : HandlerPart) : List UInt8 := h.range ++ indexBytes h.caught

namespace AttributePart

def index : AttributePart → UInt16
  | plain index _ => index
  | code index .. => index

mutual

/-- What stands behind the length of an attribute. -/
def content : AttributePart → List UInt8
  | plain _ content => content
  | code _ maxStack maxLocals instructions handlers nested =>
    indexBytes maxStack ++ indexBytes maxLocals ++ Assembly.u4 instructions.length ++ instructions ++
      counted (handlers.map HandlerPart.bytes) ++ counted (parts nested)

/-- The bytes of the attributes of a table, one after the other. -/
def parts : List AttributePart → List (List UInt8)
  | [] => []
  | a :: rest => Attribute.framed a.index.toNat a.content :: parts rest

end

/-- A table of attributes, their number in front. -/
def table (attributes : List AttributePart) : List UInt8 := counted (parts attributes)

mutual

/-- Every length and every count has room in its bytes. -/
def fits : AttributePart → Bool
  | plain _ content => content.length < 4294967296
  | a@(code _ _ _ _ handlers nested) =>
    a.content.length < 4294967296 && handlers.length < 65536 && nested.length < 65536 && allFit nested

def allFit : List AttributePart → Bool
  | [] => true
  | a :: rest => a.fits && allFit rest

end

end AttributePart

namespace MemberPart

def bytes (m : MemberPart) : List UInt8 :=
  indexBytes m.access ++ indexBytes m.name ++ indexBytes m.type ++ AttributePart.table m.attributes

def fits (m : MemberPart) : Bool := m.attributes.length < 65536 && AttributePart.allFit m.attributes

end MemberPart

namespace FileParts

/-- What stands behind the pool. -/
def body (f : FileParts) : List UInt8 :=
  indexBytes f.access ++ indexBytes f.this ++ indexBytes f.parent ++
    counted (f.interfaces.map indexBytes) ++ counted (f.fields.map MemberPart.bytes) ++
    counted (f.methods.map MemberPart.bytes) ++ AttributePart.table f.attributes

def bytes (f : FileParts) : List UInt8 :=
  Assembly.u4 0xCAFEBABE ++ indexBytes f.minor ++ indexBytes f.major ++ f.constants ++ f.body

/-- Every length and every count has room in its bytes. -/
def fits (f : FileParts) : Bool :=
  f.interfaces.length < 65536 && f.fields.length < 65536 && f.fields.all MemberPart.fits &&
    f.methods.length < 65536 && f.methods.all MemberPart.fits &&
    f.attributes.length < 65536 && AttributePart.allFit f.attributes

end FileParts

end ClasspathAudit.Bytecode
