import ClasspathAudit.Bytecode.Fault
import ClasspathAudit.Model.Class
import ClasspathAudit.Model.Module

/-!
The state of reading a class file. What has been found so far survives a fault, because a class newer
than the reader knows is kept with whatever could be read of it.
-/

namespace ClasspathAudit.Bytecode

/-- The names a class file has been found to mention. -/
structure Symbols where
  references : List String := []
  annotations : List String := []
  moduleInfo : Option ModuleDescriptor := none
  /-- Packages listed beside the module descriptor, in file order. -/
  packages : List String := []

/-- The header and the members read so far. -/
structure Draft where
  access : AccessFlags := ⟨0⟩
  name : String := ""
  superName : String := ""
  interfaces : List String := []
  fields : List Member := []
  methods : List Member := []

structure Reading where
  cursor : Cursor
  symbols : Symbols := {}
  draft : Draft := {}

abbrev Scan := ExceptT Fault (StateM Reading)

namespace Scan

def read {α : Type} (f : Cursor → α × Cursor) : Scan α :=
  modifyGet fun s => let (a, cursor) := f s.cursor; (a, { s with cursor })

def u1 : Scan UInt8 := do return UInt8.ofNat (← read (·.unsigned 1))
def u2 : Scan Nat := read (·.unsigned 2)
def u4 : Scan Nat := read (·.unsigned 4)
def bytes (count : Nat) : Scan (List UInt8) := read (·.bytes count)
def skip (count : Nat) : Scan Unit := read fun c => ((), c.skip count)

/-- Fails if a read has failed. -/
def checkpoint : Scan Unit := do
  match (← get).cursor.failure with
  | some t => throw (.truncated t)
  | none => pure ()

def times : Nat → Scan Unit → Scan Unit
  | 0, _ => pure ()
  | n + 1, act => do act; times n act

def collect {α : Type} : Nat → Scan α → Scan (List α)
  | 0, _ => pure []
  | n + 1, act => do
    let a ← act
    let more ← collect n act
    return a :: more

def within (count : Nat) (act : Scan Unit) : Scan Unit := do
  let body ← read (·.sub count)
  checkpoint
  let outer := (← get).cursor
  modify fun s => { s with cursor := body }
  act
  modify fun s => { s with cursor := outer }

/-- Rewords the fault of an action. -/
def rewording (f : Fault → Fault) (act : Scan Unit) : Scan Unit := ExceptT.adapt f act

def addReferences (names : List String) : Scan Unit :=
  modify fun s =>
    { s with symbols := { s.symbols with references := names.reverse ++ s.symbols.references } }

/-- Adds annotation types, which are references as well. -/
def addAnnotations (names : List String) : Scan Unit := do
  addReferences names
  modify fun s =>
    { s with symbols := { s.symbols with annotations := names.reverse ++ s.symbols.annotations } }

/-- Adds the class types of a descriptor, those before a fault included. -/
def descriptor (add : List String → Scan Unit) (value : String) : Scan Unit := do
  let (names, fault) := Descriptor.scan value
  add names
  match fault with
  | some f => throw (.descriptor f)
  | none => pure ()

def signature (value : String) : Scan Unit := do
  let (names, fault) := Signature.scan value
  addReferences names
  match fault with
  | some f => throw (.signature f)
  | none => pure ()

/-- Adds a class by its internal name; an array stands for its element type. -/
def className (internal : String) : Scan Unit :=
  if Text.hasStart "[" internal then descriptor addReferences internal
  else if internal.isEmpty then throw .emptyClassName
  else addReferences [ClassName.external internal]

end Scan

end ClasspathAudit.Bytecode
