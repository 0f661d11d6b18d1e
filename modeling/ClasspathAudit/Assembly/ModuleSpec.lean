import ClasspathAudit.Assembly.Pool
import ClasspathAudit.Model.Module

/-!
The class file of a module descriptor.
-/

namespace ClasspathAudit.Assembly

def moduleIndex (name : String) : Build (List UInt8) := do return u2 (← Pool.moduleName name)

def packageIndex (package : String) : Build (List UInt8) := do return u2 (← Pool.packageName package)

def requireBytes (r : ModuleRequire) : Build (List UInt8) := do
  let name ← moduleIndex r.name
  let flags := (if r.isTransitive then 0x20 else 0) + (if r.isStatic then 0x40 else 0)
  return name ++ u2 flags ++ u2 0

def exportBytes (e : ModuleExport) : Build (List UInt8) := do
  let package ← packageIndex e.package
  let targets ← counted e.targets moduleIndex
  return package ++ u2 0 ++ targets

def provideBytes (p : ModuleProvide) : Build (List UInt8) := do
  let service ← classIndex p.service
  let implementations ← counted p.implementations classIndex
  return service ++ implementations

/-- The version of a module, or none. -/
def versionIndex (version : String) : Build (List UInt8) :=
  if version = "" then pure (u2 0) else textIndex version

def moduleBody (m : ModuleDescriptor) : Build (List UInt8) := do
  let name ← moduleIndex m.name
  let version ← versionIndex m.version
  let requires ← counted m.requires requireBytes
  let exports ← counted m.exports exportBytes
  let opens ← counted m.opens exportBytes
  let uses ← counted m.uses classIndex
  let provides ← counted m.provides provideBytes
  return name ++ u2 (if m.isOpen then 0x20 else 0) ++ version ++ requires ++ exports ++ opens ++
    uses ++ provides

/-- The packages listed beside the descriptor, if there are any. -/
def packageTable (packages : List String) : Build (List AttributeBytes) :=
  if packages.isEmpty then pure [] else do
    return [⟨"ModulePackages", ← counted packages packageIndex⟩]

/-- Everything after the constant pool. -/
def moduleStructure (m : ModuleDescriptor) : Build (List UInt8) := do
  let this ← classIndex ClassName.moduleInfo
  let declared ← moduleBody m
  let packages ← packageTable m.packages
  let table ← attributeTable (⟨"Module", declared⟩ :: packages)
  return u2 0x8000 ++ this ++ u2 0 ++ u2 0 ++ u2 0 ++ u2 0 ++ table

def moduleBytes (m : ModuleDescriptor) (major : Nat) : List UInt8 :=
  classFile major (moduleStructure m)

end ClasspathAudit.Assembly
