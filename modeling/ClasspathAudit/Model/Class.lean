import ClasspathAudit.Model.Access
import ClasspathAudit.Model.ClassName

/-!
What the analysis keeps of a class file: its header, its members and the names it mentions.
-/

namespace ClasspathAudit

/-- A declared field or method. -/
structure Member where
  name : String
  descriptor : String
  access : AccessFlags
deriving DecidableEq, Repr

/-- Name and descriptor run together, the identity of a member within its class. -/
def Member.signature (member : Member) : String :=
  member.name ++ member.descriptor

/-- What a symbolic reference refers to. -/
inductive MemberKind where
  | field
  | method
  | interfaceMethod
deriving DecidableEq, Repr

def MemberKind.text : MemberKind → String
  | field => "field"
  | method => "method"
  | interfaceMethod => "interfaceMethod"

/-- A symbolic reference to a member of another class. -/
structure MemberRef where
  kind : MemberKind
  owner : String
  name : String
  descriptor : String
deriving DecidableEq, Repr

def MemberRef.text (ref : MemberRef) : String :=
  ref.owner ++ "." ++ ref.name ++ ref.descriptor

/-- A class as read from its file. -/
structure JavaClass where
  /-- The external name. -/
  name : String
  major : Int
  minor : Nat
  access : AccessFlags
  /-- Empty for a class without superclass. -/
  superName : String
  interfaces : List String
  methods : List Member
  fields : List Member
  /-- Annotation types on the class or its members, ascending. -/
  annotations : List String
  /-- Every other class name in the file, ascending. -/
  references : List String
  memberRefs : List MemberRef
  hash : UInt64
  size : Nat
  /-- The class is newer than the reader knows, and its symbols may be incomplete. -/
  degraded : Bool
deriving DecidableEq, Repr

namespace JavaClass

def package (c : JavaClass) : String := ClassName.package c.name

def isModuleInfo (c : JavaClass) : Bool := c.name == ClassName.moduleInfo

def isInterface (c : JavaClass) : Bool := c.access.has .isInterface

/-- The member added last under this name and descriptor. -/
def memberNamed? (members : List Member) (name descriptor : String) : Option Member :=
  members.reverse.find? fun m => m.signature == name ++ descriptor

def method? (c : JavaClass) (name descriptor : String) : Option Member :=
  memberNamed? c.methods name descriptor

def field? (c : JavaClass) (name descriptor : String) : Option Member :=
  memberNamed? c.fields name descriptor

/-- The least index below `high` and not below `low` from which on `test` holds, for a test that once
true stays true. -/
def searchFirst (test : Nat → Bool) (low high : Nat) : Nat :=
  if low < high then
    let middle := (low + high) / 2
    if test middle then searchFirst test low middle else searchFirst test (middle + 1) high
  else low
termination_by high - low

/-- Whether the class mentions `name`, by bisection of its ascending references. -/
def mentions (c : JavaClass) (name : String) : Bool :=
  let names := c.references.toArray
  let index := searchFirst (fun i => (names[i]?).any fun found => decide (name ≤ found)) 0 names.size
  names[index]? == some name

end JavaClass

end ClasspathAudit
