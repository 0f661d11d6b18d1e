/-!
Module descriptors, read from a class file or named by a manifest.
-/

namespace ClasspathAudit

structure ModuleRequire where
  name : String
  isTransitive : Bool
  isStatic : Bool
deriving DecidableEq, Repr

/-- A package opened or exported, to the modules of `targets` or, when that is empty, to all. -/
structure ModuleExport where
  package : String
  targets : List String
deriving DecidableEq, Repr

structure ModuleProvide where
  service : String
  implementations : List String
deriving DecidableEq, Repr

structure ModuleDescriptor where
  name : String
  version : String := ""
  isOpen : Bool := false
  /-- Named by the manifest only, without a descriptor of its own. -/
  isAutomatic : Bool := false
  /-- The release layer the descriptor was read from. -/
  release : Int := 0
  requires : List ModuleRequire := []
  exports : List ModuleExport := []
  opens : List ModuleExport := []
  packages : List String := []
  uses : List String := []
  provides : List ModuleProvide := []
deriving DecidableEq, Repr

namespace ModuleDescriptor

/-- Whether a package is readable by the module `reader`; an automatic module exports everything. -/
def isExported (m : ModuleDescriptor) (package reader : String) : Bool :=
  m.isAutomatic ||
    m.exports.any fun e => e.package == package && (e.targets.isEmpty || e.targets.contains reader)

def exportedPackages (m : ModuleDescriptor) : List String :=
  (m.exports.map ModuleExport.package).mergeSort fun a b => decide (a ≤ b)

def requiredModules (m : ModuleDescriptor) : List String :=
  m.requires.map ModuleRequire.name

end ModuleDescriptor

end ClasspathAudit
