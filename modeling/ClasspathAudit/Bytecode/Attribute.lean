import ClasspathAudit.Bytecode.ConstantPool

/-!
Attribute tables. The attributes that name classes are read for those names, every other one is passed
over by its length, and what a recognised body holds beyond its structure is ignored.
-/

namespace ClasspathAudit.Bytecode.Attribute

open Scan

def classRef (pool : ConstantPool) (index : Nat) : Scan Unit := do
  Scan.className (← pool.className index)

/-- An annotation, given how to read an element value. -/
def annotationWith (pool : ConstantPool) (value : Scan Unit) : Scan Unit := do
  let type ← u2
  descriptor addAnnotations (← pool.utf8 type)
  let pairs ← u2
  times pairs do
    skip 2
    value
  checkpoint

/-- An element value; the fuel bounds how deep values are nested. -/
def elementValueUpTo (pool : ConstantPool) : Nat → Scan Unit
  | 0 => do
    let _ ← u1
    checkpoint
  | fuel + 1 => do
    let tag ← u1
    checkpoint
    match Char.ofNat tag.toNat with
    | 'B' | 'C' | 'D' | 'F' | 'I' | 'J' | 'S' | 'Z' | 's' =>
      skip 2
      checkpoint
    | 'e' =>
      let type ← u2
      let name ← pool.utf8 type
      skip 2
      descriptor addReferences name
    | 'c' =>
      let type ← u2
      descriptor addReferences (← pool.utf8 type)
    | '@' => annotationWith pool (elementValueUpTo pool fuel)
    | '[' =>
      let count ← u2
      times count (elementValueUpTo pool fuel)
      checkpoint
    | _ => throw (.elementTag tag)

/-- An element value; each level of nesting consumes a byte. -/
def elementValue (pool : ConstantPool) : Scan Unit := do
  elementValueUpTo pool ((← get).cursor.rest.length + 1)

def annotations (pool : ConstantPool) : Scan Unit := do
  let count ← u2
  times count (annotationWith pool (elementValue pool))
  checkpoint

/-- Passes over the part of a type annotation that says where it stands. -/
def skipTarget (target : UInt8) : Scan Unit :=
  let n := target.toNat
  if n = 0x00 ∨ n = 0x01 ∨ n = 0x16 then skip 1
  else if n = 0x10 ∨ n = 0x11 ∨ n = 0x12 ∨ n = 0x17 ∨ n = 0x42 then skip 2
  else if 0x13 ≤ n ∧ n ≤ 0x15 then pure ()
  else if n = 0x40 ∨ n = 0x41 then do
    let count ← u2
    skip (count * 6)
  else if 0x43 ≤ n ∧ n ≤ 0x46 then skip 2
  else if 0x47 ≤ n ∧ n ≤ 0x4B then skip 3
  else throw (.targetType target)

def annotatedType (pool : ConstantPool) : Scan Unit := do
  let target ← u1
  skipTarget target
  let path ← u1
  skip (path.toNat * 2)
  annotationWith pool (elementValue pool)

def typeAnnotations (pool : ConstantPool) : Scan Unit := do
  let count ← u2
  times count (annotatedType pool)
  checkpoint

def exceptions (pool : ConstantPool) : Scan Unit := do
  let count ← u2
  times count do
    let index ← u2
    classRef pool index
  checkpoint

def innerClasses (pool : ConstantPool) : Scan Unit := do
  let count ← u2
  times count do
    let inner ← u2
    let outer ← u2
    skip 4
    classRef pool inner
    if outer ≠ 0 then classRef pool outer
  checkpoint

/-- The code of a method: its instructions are passed over, its handlers and nested attributes read. -/
def code (pool : ConstantPool) (nested : Scan Unit) : Scan Unit := do
  skip 4
  let length ← u4
  skip length
  let handlers ← u2
  times handlers do
    skip 6
    let caught ← u2
    if caught ≠ 0 then classRef pool caught
  nested

/-- A table of local variables, whose types are read by `type`. -/
def localVariables (pool : ConstantPool) (type : String → Scan Unit) : Scan Unit := do
  let count ← u2
  times count do
    skip 6
    let index ← u2
    let value ← pool.utf8 index
    skip 2
    type value
  checkpoint

def parameterAnnotations (pool : ConstantPool) : Scan Unit := do
  let parameters ← u1
  times parameters.toNat (annotations pool)
  checkpoint

def packageList (pool : ConstantPool) : Scan Unit := do
  let count ← u2
  times count do
    let index ← u2
    let name ← pool.moduleOrPackage index
    modify fun s => { s with symbols :=
      { s.symbols with packages := s.symbols.packages ++ [ClassName.external name] } }
  checkpoint

def moduleExports (pool : ConstantPool) : Scan (List ModuleExport) := do
  let count ← u2
  let exports ← collect count do
    let index ← u2
    let package ← pool.moduleOrPackage index
    skip 2
    let targets ← u2
    let targets ← collect targets do
      let index ← u2
      pool.moduleOrPackage index
    return { package := ClassName.external package, targets }
  checkpoint
  return exports

def moduleRequires (pool : ConstantPool) : Scan (List ModuleRequire) := do
  let count ← u2
  collect count do
    let index ← u2
    let name ← pool.moduleOrPackage index
    let flags ← u2
    skip 2
    return { name, isTransitive := flags &&& 0x20 ≠ 0, isStatic := flags &&& 0x40 ≠ 0 }

def moduleUses (pool : ConstantPool) : Scan (List String) := do
  let count ← u2
  collect count do
    let index ← u2
    let service := ClassName.external (← pool.className index)
    addReferences [service]
    return service

def moduleProvides (pool : ConstantPool) : Scan (List ModuleProvide) := do
  let count ← u2
  collect count do
    let index ← u2
    let service := ClassName.external (← pool.className index)
    let implementations ← u2
    let implementations ← collect implementations do
      let index ← u2
      return ClassName.external (← pool.className index)
    return { service, implementations }

/-- The version of a module, empty if it has none. -/
def moduleVersion (pool : ConstantPool) : Scan String := do
  let index ← u2
  if index ≠ 0 then liftM (pool.utf8 index) else return ""

/-- A module descriptor, kept once all of it has been read. -/
def moduleInfo (pool : ConstantPool) : Scan Unit := do
  let index ← u2
  let name ← pool.moduleOrPackage index
  let flags ← u2
  let version ← moduleVersion pool
  let requires ← moduleRequires pool
  let exports ← moduleExports pool
  let opens ← moduleExports pool
  let uses ← moduleUses pool
  let provides ← moduleProvides pool
  checkpoint
  let found : ModuleDescriptor :=
    { name, version, isOpen := flags &&& 0x20 ≠ 0, requires, exports, opens, uses, provides }
  modify fun s => { s with symbols := { s.symbols with moduleInfo := some found } }

/-- The body of the attribute `name`, given how to read the attributes nested in code. -/
def body (pool : ConstantPool) (nested : Scan Unit) (name : String) : Scan Unit :=
  match name with
  | "Signature" => do
    let index ← u2
    signature (← pool.utf8 index)
  | "Exceptions" => exceptions pool
  | "InnerClasses" => innerClasses pool
  | "Code" => code pool nested
  | "LocalVariableTable" => localVariables pool (descriptor addReferences)
  | "LocalVariableTypeTable" => localVariables pool signature
  | "RuntimeVisibleAnnotations" => annotations pool
  | "RuntimeInvisibleAnnotations" => annotations pool
  | "RuntimeVisibleParameterAnnotations" => parameterAnnotations pool
  | "RuntimeInvisibleParameterAnnotations" => parameterAnnotations pool
  | "RuntimeVisibleTypeAnnotations" => typeAnnotations pool
  | "RuntimeInvisibleTypeAnnotations" => typeAnnotations pool
  | "AnnotationDefault" => elementValue pool
  | "Module" => moduleInfo pool
  | "ModulePackages" => packageList pool
  | _ => checkpoint

/-- One attribute: its name, its length and its body. -/
def entry (pool : ConstantPool) (nested : Scan Unit) : Scan Unit := do
  let nameIndex ← u2
  let length ← u4
  checkpoint
  match pool.utf8 nameIndex with
  | .error cause => throw (.inAttributeName cause)
  | .ok name => within length (rewording (.inAttribute name) (body pool nested name))

/-- A table of attributes; the fuel bounds how deep tables are nested. -/
def tableUpTo (pool : ConstantPool) : Nat → Scan Unit
  | 0 => do
    let _ ← u2
    checkpoint
  | fuel + 1 => do
    let count ← u2
    times count (entry pool (tableUpTo pool fuel))
    checkpoint

/-- A table of attributes; each level of nesting consumes bytes. -/
def table (pool : ConstantPool) : Scan Unit := do
  tableUpTo pool ((← get).cursor.rest.length + 1)

end ClasspathAudit.Bytecode.Attribute
