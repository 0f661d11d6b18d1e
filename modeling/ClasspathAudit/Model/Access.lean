/-!
Access flags of classes, fields and methods.
-/

namespace ClasspathAudit

/-- The sixteen access bits. -/
structure AccessFlags where
  bits : UInt16
deriving DecidableEq, Repr

namespace AccessFlags

def isPublic : AccessFlags := ⟨0x0001⟩
def isPrivate : AccessFlags := ⟨0x0002⟩
def isProtected : AccessFlags := ⟨0x0004⟩
def isStatic : AccessFlags := ⟨0x0008⟩
def isFinal : AccessFlags := ⟨0x0010⟩
def isInterface : AccessFlags := ⟨0x0200⟩
def isAbstract : AccessFlags := ⟨0x0400⟩
def isAnnotationType : AccessFlags := ⟨0x2000⟩
def isEnum : AccessFlags := ⟨0x4000⟩

def has (access flags : AccessFlags) : Bool :=
  access.bits &&& flags.bits == flags.bits

def visible (access : AccessFlags) : Bool :=
  access.has isPublic || access.has isProtected

/-- The modifier keywords; of the three access levels the widest that is set shows, and an interface
is not called abstract. -/
def modifiers (access : AccessFlags) : List String :=
  (if access.has isPublic then ["public"]
   else if access.has isProtected then ["protected"]
   else if access.has isPrivate then ["private"] else []) ++
  (if access.has isStatic then ["static"] else []) ++
  (if access.has isFinal then ["final"] else []) ++
  (if access.has isAbstract && !access.has isInterface then ["abstract"] else [])

def text (access : AccessFlags) : String :=
  String.intercalate " " access.modifiers

end AccessFlags

end ClasspathAudit
