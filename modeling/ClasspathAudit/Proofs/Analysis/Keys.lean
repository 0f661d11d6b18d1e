import ClasspathAudit.Analysis.Dependencies
import ClasspathAudit.Proofs.Classpath.Indices
import ClasspathAudit.Proofs.Text.Split

/-!
What row keys are made of. A key can be taken apart again if no part but the last has a bar in it. On a
classpath whose JARs have names of their own, a key made of a JAR, a class that it shows and something
that the class says once stands for nothing else.
-/

namespace ClasspathAudit

open Text

namespace Analysis

/-- The parts of a key: as many as `count` that end at a bar each, then what is left. -/
def partsOf : (count : Nat) → (key : String) → List String
  | 0, key => [key]
  | count + 1, key =>
    match splitFirst? '|' key.toList with
    | some (before, after) => String.ofList before :: partsOf count (String.ofList after)
    | none => [key]

theorem keyOf_append (first last : String) (parts : List String) :
    keyOf (first :: (parts ++ [last])) = first ++ "|" ++ keyOf (parts ++ [last]) :=
  String.intercalate_cons_of_ne_nil (by simp)

/-- A key is taken apart into its parts; the last may have bars of its own. -/
theorem partsOf_keyOf (parts : List String) (unbarred : ∀ part ∈ parts, '|' ∉ part.toList)
    (last : String) : partsOf parts.length (keyOf (parts ++ [last])) = parts ++ [last] := by
  induction parts with
  | nil => simp [partsOf, keyOf]
  | cons first parts ih =>
    rw [List.forall_mem_cons] at unbarred
    have text : (first ++ "|" ++ keyOf (parts ++ [last])).toList =
        first.toList ++ '|' :: (keyOf (parts ++ [last])).toList := by simp
    rw [List.cons_append, keyOf_append, List.length_cons, partsOf, text,
      splitFirst?_append unbarred.1]
    simp [ih unbarred.2]

theorem keyOf_ne_empty (first second : String) (rest : List String) :
    keyOf (first :: second :: rest) ≠ "" := by
  intro empty
  have text := congrArg String.toList empty
  simp [keyOf] at text

end Analysis

theorem Jar.displayName_ne_empty (jar : Jar) : jar.displayName ≠ "" := by
  rw [displayName]
  split
  next outer inner _ =>
    intro empty
    have text := congrArg String.toList empty
    simp at text
  next => exact Path.base_ne_empty _

namespace ClassName

theorem package_unbarred {name : String} (unbarred : '|' ∉ name.toList) :
    '|' ∉ (package name).toList := by
  rw [package]
  split
  next before after parts =>
    obtain ⟨same, -⟩ := splitLast?_eq_some parts
    rw [same, List.mem_append] at unbarred
    simpa using fun member => unbarred (.inl member)
  next => simp

end ClassName

namespace Classpath

/-- The names on a classpath are fit to stand in keys, whose parts are told apart by bars. What a class
mentions stands last in a key and may be any text. -/
structure Legible (cp : Classpath) : Prop where
  jarsApart : (cp.jars.map Jar.displayName).Nodup
  jarUnbarred : ∀ jar ∈ cp.jars, '|' ∉ jar.displayName.toList
  resourceNamed : ∀ jar ∈ cp.jars, ∀ resource ∈ jar.resources, resource.path ≠ ""
  classNamed : ∀ jar ∈ cp.jars, ∀ c ∈ jar.effective cp.release, c.name ≠ ""
  classUnbarred : ∀ jar ∈ cp.jars, ∀ c ∈ jar.effective cp.release, '|' ∉ c.name.toList
  referencesApart : ∀ jar ∈ cp.jars, ∀ c ∈ jar.effective cp.release, c.references.Nodup

theorem exists_of_mem_indexBy {keys : JavaClass → String} {effective : List (List JavaClass)}
    {key : String} (member : key ∈ (indexBy keys effective).keys) :
    ∃ classes ∈ effective, ∃ c ∈ classes, keys c = key := by
  obtain ⟨position, listed⟩ := List.exists_mem_of_ne_nil _ ((mem_indexBy_keys ..).mp member)
  obtain ⟨classes, found, shown⟩ := mem_indexBy.mp listed
  exact ⟨classes, List.mem_of_getElem? found, shown⟩

section

variable {jars : List Jar} {release : Int}

/-- What is said of every class that a JAR shows holds of every key of an index. -/
theorem forall_mem_indexBy {keys : JavaClass → String} {said : String → Prop}
    (shown : ∀ jar ∈ jars, ∀ c ∈ jar.effective (new jars release).release, said (keys c)) :
    ∀ key ∈ (indexBy keys (jars.map fun jar => jar.effective (new jars release).release)).keys,
      said key := by
  intro key member
  obtain ⟨classes, effective, c, inside, rfl⟩ := exists_of_mem_indexBy member
  obtain ⟨jar, listed, rfl⟩ := List.mem_map.mp effective
  exact shown jar listed c inside

theorem Legible.className_ne_empty (legible : (new jars release).Legible) :
    ∀ name ∈ (new jars release).classNames, name ≠ "" :=
  forall_mem_indexBy legible.classNamed

theorem Legible.package_unbarred (legible : (new jars release).Legible) :
    ∀ package ∈ (new jars release).packages, '|' ∉ package.toList :=
  forall_mem_indexBy fun jar listed c shown =>
    ClassName.package_unbarred (legible.classUnbarred jar listed c shown)

theorem nodup_keys {β : Type} (index : Std.TreeMap String β) : index.keys.Nodup :=
  (keys_ascending index).imp String.ne_of_lt

end

end Classpath

namespace Analysis

theorem nodup_sortedSet (names : List String) : (sortedSet names).Nodup :=
  (eraseDups_mergeSort_ascending names).imp String.ne_of_lt

theorem mem_sortedSet {names : List String} {name : String} :
    name ∈ sortedSet names ↔ name ∈ names := by
  rw [sortedSet, (List.mergeSort_perm _ _).mem_iff, List.mem_eraseDups]

section

variable {jars : List Jar} {release : Int} {boundary : Option PlatformList}

theorem classes_eq : classes (.build (.new jars release) boundary) =
    jars.zipIdx.flatMap fun entry =>
      (entry.1.effective (Classpath.new jars release).release).map (entry.1, entry.2, ·) := by
  refine List.flatMap_congr fun entry member => ?_
  have listed : jars[entry.2]? = some entry.1 := List.mem_zipIdx_iff_getElem?.mp member
  change ((Classpath.new jars release).classesOf (.listed entry.2)).map (entry.1, entry.2, ·) = _
  rw [Classpath.classesOf_listed listed]
  rfl

theorem mem_classes {entry : Jar × Nat × JavaClass} :
    entry ∈ classes (.build (.new jars release) boundary) ↔
      jars[entry.2.1]? = some entry.1 ∧
        entry.2.2 ∈ entry.1.effective (Classpath.new jars release).release := by
  obtain ⟨jar, index, c⟩ := entry
  simp only [classes_eq, List.mem_flatMap, List.mem_map, Prod.exists, Prod.mk.injEq,
    List.mem_zipIdx_iff_getElem?]
  constructor
  · rintro ⟨jar, index, listed, c, shown, rfl, rfl, rfl⟩
    exact ⟨listed, shown⟩
  · rintro ⟨listed, shown⟩
    exact ⟨jar, index, listed, c, shown, rfl, rfl, rfl⟩

theorem jarName_listed {index : Nat} {jar : Jar} (listed : jars[index]? = some jar) :
    jarName (.build (.new jars release) boundary) index = jar.displayName := by
  have found : (Classpath.new jars release).jar? index = some jar := listed
  simp [jarName, Graph.build, Classpath.displayNames, found, String.join]

/-- A JAR and the name of a class in it tell the class. -/
theorem classes_apart (legible : (Classpath.new jars release).Legible) :
    ((classes (.build (.new jars release) boundary)).map fun entry =>
      (entry.1.displayName, entry.2.2.name)).Nodup := by
  have jarsApart : jars.zipIdx.Pairwise fun a b => a.1.displayName ≠ b.1.displayName := by
    have names : (jars.map Jar.displayName).Pairwise (· ≠ ·) := legible.jarsApart
    rwa [← List.zipIdx_map_fst 0 jars, List.pairwise_map, List.pairwise_map] at names
  rw [classes_eq, List.map_flatMap, List.nodup_flatMap]
  constructor
  · intro entry _
    rw [List.map_map]
    refine List.pairwise_map.mpr (Jar.effective_ascending.imp fun below same => ?_)
    simp only [Function.comp_apply, Prod.mk.injEq, true_and] at same
    exact String.ne_of_lt below same
  · refine jarsApart.imp fun apart pair here there => ?_
    simp only [List.map_map, List.mem_map, Function.comp_apply] at here there
    obtain ⟨c, -, rfl⟩ := here
    obtain ⟨c', -, same⟩ := there
    rw [Prod.mk.injEq] at same
    exact apart same.1.symm

theorem partsOf_class (legible : (Classpath.new jars release).Legible) {jar : Jar}
    (inside : jar ∈ jars) (name : String) :
    partsOf 1 (keyOf [jar.displayName, name]) = [jar.displayName, name] :=
  partsOf_keyOf [_] (by simp [legible.jarUnbarred jar inside]) name

theorem partsOf_saying (legible : (Classpath.new jars release).Legible) {jar : Jar}
    (inside : jar ∈ jars) {c : JavaClass}
    (shown : c ∈ jar.effective (Classpath.new jars release).release) (saying : String) :
    partsOf 2 (keyOf [jar.displayName, c.name, saying]) = [jar.displayName, c.name, saying] :=
  partsOf_keyOf [_, _]
    (by simp [legible.jarUnbarred jar inside, legible.classUnbarred jar inside c shown]) saying

/-- What classes say once has keys of its own behind the JAR and the class. -/
theorem sayings_apart (legible : (Classpath.new jars release).Legible)
    (boundary : Option PlatformList) (sayings : JavaClass → List String)
    (once : ∀ jar ∈ jars, ∀ c ∈ jar.effective (Classpath.new jars release).release,
      (sayings c).Nodup) :
    ((classes (.build (.new jars release) boundary)).flatMap fun (jar, _, c) =>
      (sayings c).map fun saying => keyOf [jar.displayName, c.name, saying]).Nodup := by
  rw [List.nodup_flatMap]
  constructor
  · intro entry member
    obtain ⟨listed, shown⟩ := mem_classes.mp member
    have inside := List.mem_of_getElem? listed
    refine (once _ inside _ shown).map_on ?_
    intro saying _ saying' _ same
    have taken := congrArg (partsOf 2) same
    rw [partsOf_saying legible inside shown, partsOf_saying legible inside shown] at taken
    simpa using taken
  · refine (List.pairwise_map.mp (classes_apart legible)).imp_of_mem ?_
    intro entry entry' member member' apart key here there
    obtain ⟨listed, shown⟩ := mem_classes.mp member
    obtain ⟨listed', shown'⟩ := mem_classes.mp member'
    obtain ⟨saying, -, rfl⟩ := List.mem_map.mp here
    obtain ⟨saying', -, same⟩ := List.mem_map.mp there
    have taken := congrArg (partsOf 2) same
    rw [partsOf_saying legible (List.mem_of_getElem? listed') shown',
      partsOf_saying legible (List.mem_of_getElem? listed) shown] at taken
    injection taken with jar rest
    injection rest with name _
    exact apart (congrArg₂ Prod.mk jar.symm name.symm)

end

end Analysis

end ClasspathAudit
