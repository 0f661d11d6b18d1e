import ClasspathAudit.Model.Jar
import Std.Data.TreeMap

/-!
A classpath: JARs in search order at one target release. JARs are known by their position. The indices
are built once, so that a look-up by name does not search the JARs.
-/

namespace ClasspathAudit

/-- A record that is on the classpath, or one that is not. -/
inductive JarRef where
  | listed (index : Nat)
  | unlisted (jar : Jar)

structure Classpath where
  jars : List Jar
  release : Int
  /-- The classes that each JAR shows at the target release, ascending by name. -/
  effective : Array (List JavaClass)
  /-- The positions of the JARs that provide a class, ascending. -/
  providers : Std.TreeMap String (List Nat)
  /-- The positions of the JARs that have classes in a package, ascending. -/
  packageHolders : Std.TreeMap String (List Nat)
  /-- The position of the first JAR that is a module. -/
  modules : Std.TreeMap String Nat

namespace Classpath

/-- Adds a position to the list of a key, unless it is there. -/
def addPosition (index : Std.TreeMap String (List Nat)) (key : String) (position : Nat) :
    Std.TreeMap String (List Nat) :=
  let known := index.getD key []
  if known.contains position then index else index.insert key (known ++ [position])

/-- The index of the JARs by the keys that `keys` gives for the classes of each. -/
def indexBy (keys : JavaClass → String) (effective : List (List JavaClass)) :
    Std.TreeMap String (List Nat) :=
  effective.zipIdx.foldl (fun index (classes, position) =>
    classes.foldl (fun index c => addPosition index (keys c) position) index) {}

/-- The classpath of JARs in the given order; no target release lies below the base. -/
def new (jars : List Jar) (release : Int) : Classpath :=
  let release := max release baseRelease
  let effective := jars.map fun jar => jar.effective release
  { jars, release
    effective := effective.toArray
    providers := indexBy JavaClass.name effective
    packageHolders := indexBy JavaClass.package effective
    modules := jars.zipIdx.foldl (fun index (jar, position) =>
      if jar.moduleName.isEmpty then index else index.insertIfNew jar.moduleName position) {} }

def withRelease (cp : Classpath) (release : Int) : Classpath := new cp.jars release

def jar? (cp : Classpath) (index : Nat) : Option Jar := cp.jars[index]?

/-- The JARs that provide a class, by position. -/
def providersOf (cp : Classpath) (name : String) : List Nat := cp.providers.getD name []

/-- The classes that a record shows, ascending by name. -/
def classesOf (cp : Classpath) : JarRef → List JavaClass
  | .listed index => cp.effective[index]?.getD []
  | .unlisted jar => jar.effective cp.release

def classAt? (cp : Classpath) (ref : JarRef) (name : String) (release : Int) : Option JavaClass :=
  match ref with
  | .listed index =>
    if release = cp.release then (cp.classesOf ref).find? (·.name = name)
    else (cp.jar? index).bind (·.effectiveClass? name release)
  | .unlisted jar => jar.effectiveClass? name release

/-- The class that a record shows under a name at the target release. -/
def classIn? (cp : Classpath) (ref : JarRef) (name : String) : Option JavaClass :=
  cp.classAt? ref name cp.release

/-- The class that a name stands for, and the first JAR with it. -/
def class? (cp : Classpath) (name : String) : Option (JavaClass × Nat) := do
  let first ← (cp.providersOf name).head?
  let found ← cp.classIn? (.listed first) name
  return (found, first)

/-- Every class name, ascending. -/
def classNames (cp : Classpath) : List String := cp.providers.keys

def classCount (cp : Classpath) : Nat := cp.classNames.length

/-- Every package, ascending. -/
def packages (cp : Classpath) : List String := cp.packageHolders.keys

def holdersOf (cp : Classpath) (package : String) : List Nat := cp.packageHolders.getD package []

/-- The first JAR that declares a module or is named as one. -/
def moduleJar? (cp : Classpath) (name : String) : Option Nat := cp.modules[name]?

def displayNames (cp : Classpath) (indices : List Nat) : List String :=
  indices.filterMap fun index => (cp.jar? index).map Jar.displayName

/-- A class that several JARs provide. -/
structure Duplicate where
  name : String
  /-- The JAR whose class is used. -/
  winner : Nat
  shadowed : List Nat
  /-- All provide the same bytes. -/
  identical : Bool
deriving DecidableEq, Repr

def duplicates (cp : Classpath) : List Duplicate :=
  cp.providers.toList.filterMap fun (name, providers) =>
    match providers with
    | winner :: shadowed@(_ :: _) =>
      let hashOf (index : Nat) := (cp.classIn? (.listed index) name).map JavaClass.hash
      some { name, winner, shadowed
             identical := shadowed.all fun index => hashOf index == hashOf winner }
    | _ => none

end Classpath

end ClasspathAudit
