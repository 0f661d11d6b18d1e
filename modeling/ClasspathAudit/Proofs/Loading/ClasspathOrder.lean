import ClasspathAudit.Loading.Loader
import ClasspathAudit.Proofs.Concurrency.TaskGroup
import ClasspathAudit.Proofs.Loading.LoadedRecords

/-!
The order of a classpath whose artifacts are loaded side by side. Whatever the schedule, the records come
in the order of the artifacts, each in front of those nested in it, and an artifact that cannot be loaded
keeps its place.
-/

namespace ClasspathAudit

namespace Jar

/-- The records of a forest, each in front of those nested in it. -/
inductive Preorder : List Jar → List Jar → Prop where
  | nil : Preorder [] []
  | cons {jar : Jar} {rest inner later : List Jar} (inside : Preorder jar.nested inner)
      (others : Preorder rest later) : Preorder (jar :: rest) (jar :: (inner ++ later))

theorem preorder_flatMap_flatten (jars : List Jar) : Preorder jars (jars.flatMap flatten) := by
  match jars with
  | [] => exact .nil
  | jar :: rest =>
    rw [List.flatMap_cons, flatten_eq]
    exact .cons (preorder_flatMap_flatten jar.nested) (preorder_flatMap_flatten rest)
termination_by sizeOf jars
decreasing_by
  · cases jar
    simp only [List.cons.sizeOf_spec, Jar.mk.sizeOf_spec]
    omega
  · simp only [List.cons.sizeOf_spec]
    have positive : 0 < sizeOf jar := by
      cases jar
      simp only [Jar.mk.sizeOf_spec]
      omega
    omega

/-- Right behind a record come those nested in it. -/
theorem Preorder.nested_follow {forest jars : List Jar} (preorder : Preorder forest jars)
    {position : Nat} {jar : Jar} (listed : jars[position]? = some jar) :
    ∃ inner, Preorder jar.nested inner ∧ inner <+: jars.drop (position + 1) := by
  induction preorder generalizing position with
  | nil => cases listed
  | @cons first rest inner later inside others here there =>
    cases position with
    | zero =>
      cases listed
      exact ⟨inner, inside, List.prefix_append inner later⟩
    | succ position =>
      rw [List.getElem?_cons_succ] at listed
      rw [List.drop_succ_cons]
      by_cases within : position < inner.length
      · rw [List.getElem?_append_left within] at listed
        obtain ⟨block, nested, follows⟩ := here listed
        refine ⟨block, nested, ?_⟩
        rw [List.drop_append_of_le_length within]
        exact follows.trans (List.prefix_append _ _)
      · have beyond : inner.length ≤ position := Nat.le_of_not_lt within
        rw [List.getElem?_append_right beyond] at listed
        obtain ⟨block, nested, follows⟩ := there listed
        refine ⟨block, nested, ?_⟩
        rw [List.drop_append, List.drop_eq_nil_of_le (by omega), List.nil_append]
        rwa [Nat.sub_add_comm beyond]

end Jar

namespace Loader

/-- How many artifacts are loaded at a time. -/
def workers (settings : LoaderSettings) : Nat :=
  if settings.workers ≤ 0 then 1 else settings.workers.toNat

theorem workers_pos (settings : LoaderSettings) : 0 < workers settings := by
  rw [workers]
  split <;> omega

section

variable {settings : LoaderSettings} {artifacts : List Artifact} {artifact : Artifact}

theorem finishTask_eq (places : List (Option Jar)) (task : Nat) (inside : task < artifacts.length) :
    finishTask settings artifacts places task =
      places.set task (artifacts[task]?.map (record settings)) := by
  rw [finishTask, List.getElem?_eq_getElem inside, Option.map_some]

/-- The order in which the tasks finish does not show. -/
theorem loadInOrder_eq {order : List Nat} (all : order.Perm (List.range artifacts.length)) :
    loadInOrder settings order artifacts = load settings false artifacts := by
  have filled : (List.range artifacts.length).map (fun task => artifacts[task]?.map (record settings)) =
      (artifacts.map (record settings)).map some := by
    apply List.ext_getElem?
    intro task
    by_cases inside : task < artifacts.length
    · simp [inside]
    · simp [inside]
  rw [loadInOrder, TaskGroup.foldl_fill finishTask_eq all none, filled, load,
    if_neg Bool.false_ne_true, List.filterMap_map]
  congr 1
  exact List.filterMap_some

theorem record_of_ok {jar : Jar} (loaded : artifact.inspect settings false = .ok jar) :
    record settings artifact = jar := by
  rw [record, loaded]

theorem record_of_error {failure : Failure} (broken : artifact.inspect settings false = .error failure) :
    record settings artifact = failed artifact failure := by
  rw [record, broken]

theorem flatten_failed (artifact : Artifact) (failure : Failure) :
    (failed artifact failure).flatten = [failed artifact failure] := by
  rw [Jar.flatten_eq]
  rfl

theorem readable_of_ok {jar inner : Jar} (loaded : artifact.inspect settings false = .ok jar)
    (member : inner ∈ (record settings artifact).flatten) : inner.unreadable = false := by
  rw [record_of_ok loaded] at member
  exact (Artifact.inspect_whole loaded inner member).1

/-- Of the records of an artifact none is unreadable, or the only one. -/
theorem filter_unreadable_flatten : (record settings artifact).flatten.filter (·.unreadable) =
    if (artifact.inspect settings false).isOk then [] else [record settings artifact] := by
  cases outcome : artifact.inspect settings false with
  | ok jar =>
    have readable : ∀ inner ∈ (record settings artifact).flatten, ¬ inner.unreadable = true := by
      intro inner member
      rw [readable_of_ok outcome member]
      exact Bool.false_ne_true
    rw [List.filter_eq_nil_iff.mpr readable]
    rfl
  | error failure =>
    rw [record_of_error outcome, flatten_failed]
    rfl

theorem filter_unreadable (artifacts : List Artifact) :
    ((artifacts.map (record settings)).flatMap Jar.flatten).filter (·.unreadable) =
      (artifacts.filter fun artifact => !(artifact.inspect settings false).isOk).map
        (record settings) := by
  induction artifacts with
  | nil => rfl
  | cons artifact artifacts ih =>
    rw [List.map_cons, List.flatMap_cons, List.filter_append, ih, filter_unreadable_flatten,
      List.filter_cons]
    cases (artifact.inspect settings false).isOk <;> rfl

/-- There is nothing to read exactly if no artifact could be loaded. -/
theorem all_unreadable_iff (artifacts : List Artifact) :
    ((artifacts.map (record settings)).flatMap Jar.flatten).all (·.unreadable) = true ↔
      ∀ artifact ∈ artifacts, ∃ failure, artifact.inspect settings false = .error failure := by
  rw [List.all_eq_true]
  constructor
  · intro unreadable artifact member
    cases outcome : artifact.inspect settings false with
    | error failure => exact ⟨failure, rfl⟩
    | ok jar =>
      have here : record settings artifact ∈ (record settings artifact).flatten := by
        rw [Jar.flatten_eq]
        exact List.mem_cons_self
      have listed := unreadable _ (List.mem_flatMap.mpr
        ⟨_, List.mem_map_of_mem member, here⟩)
      rw [readable_of_ok outcome here] at listed
      cases listed
  · intro broken jar listed
    obtain ⟨_, member, inside⟩ := List.mem_flatMap.mp listed
    obtain ⟨artifact, given, rfl⟩ := List.mem_map.mp member
    obtain ⟨failure, outcome⟩ := broken artifact given
    rw [record_of_error outcome, flatten_failed, List.mem_singleton] at inside
    rw [inside]
    rfl

theorem failed_keyed (artifact : Artifact) (failure : Failure) : (failed artifact failure).Keyed :=
  Jar.Keyed.init fun layer member => by cases member

/-- The layers of all records on a loaded classpath hold each class name once. -/
theorem load_keyed {cancelled : Bool} {jars : List Jar}
    (loaded : load settings cancelled artifacts = .ok jars) : ∀ jar ∈ jars, jar.Keyed := by
  rw [load] at loaded
  split at loaded
  · cases loaded
  rw [collect] at loaded
  split at loaded
  · cases loaded
  cases loaded
  intro jar listed
  obtain ⟨_, member, inside⟩ := List.mem_flatMap.mp listed
  obtain ⟨artifact, -, rfl⟩ := List.mem_map.mp member
  cases outcome : artifact.inspect settings false with
  | ok found =>
    rw [record_of_ok outcome] at inside
    exact (Artifact.inspect_whole outcome jar inside).2
  | error failure =>
    rw [record_of_error outcome, flatten_failed, List.mem_singleton] at inside
    rw [inside]
    exact failed_keyed artifact failure

/-- Where the records of an artifact begin. -/
def place (settings : LoaderSettings) (artifacts : List Artifact) (index : Nat) : Nat :=
  (((artifacts.take index).map (record settings)).flatMap Jar.flatten).length

theorem getElem?_place {index : Nat} (given : artifacts[index]? = some artifact) :
    ((artifacts.map (record settings)).flatMap Jar.flatten)[place settings artifacts index]? =
      some (record settings artifact) := by
  obtain ⟨inside, rfl⟩ := List.getElem?_eq_some_iff.mp given
  have split : artifacts = artifacts.take index ++ artifacts[index] :: artifacts.drop (index + 1) := by
    rw [List.cons_getElem_drop_succ, List.take_append_drop]
  conv_lhs =>
    enter [1]
    rw [split]
  rw [List.map_append, List.flatMap_append, place, List.getElem?_append_right (Nat.le_refl _),
    Nat.sub_self, List.map_cons, List.flatMap_cons, Jar.flatten_eq]
  rfl

theorem place_lt_succ {index : Nat} (inside : index < artifacts.length) :
    place settings artifacts index < place settings artifacts (index + 1) := by
  rw [place, place, List.take_succ_eq_append_getElem inside, List.map_append, List.flatMap_append,
    List.length_append, List.map_singleton, List.flatMap_singleton, Jar.flatten_eq, List.length_cons]
  omega

theorem place_lt {index later : Nat} (before : index < later) (inside : later < artifacts.length) :
    place settings artifacts index < place settings artifacts later := by
  induction later, before using Nat.le_induction with
  | base => exact place_lt_succ (by omega)
  | succ later before ih => exact (ih (by omega)).trans (place_lt_succ (by omega))

end

/-- A classpath in the order of the artifacts that it was loaded from. -/
structure Loaded (settings : LoaderSettings) (artifacts : List Artifact) (jars : List Jar) : Prop where
  record_ok : ∀ artifact ∈ artifacts, ∀ jar, artifact.inspect settings false = .ok jar →
    record settings artifact = jar
  /-- The record of an artifact that cannot be loaded says so, and why. -/
  record_error : ∀ artifact ∈ artifacts, ∀ failure, artifact.inspect settings false = .error failure →
    (record settings artifact).unreadable = true ∧
      (record settings artifact).anomalies =
        [⟨"", failure.code?.getD .unreadableArchive, failure.text⟩]
  /-- Every artifact has its record, followed by those nested in it, and there is nothing else. -/
  preorder : Jar.Preorder (artifacts.map (record settings)) jars
  nested : ∀ position jar, jars[position]? = some jar →
    ∃ inner, Jar.Preorder jar.nested inner ∧ inner <+: jars.drop (position + 1)
  ordered : ∀ index later, index < later → later < artifacts.length →
    place settings artifacts index < place settings artifacts later
  placed : ∀ index artifact, artifacts[index]? = some artifact →
    jars[place settings artifacts index]? = some (record settings artifact)
  unreadable : jars.filter (·.unreadable) =
    (artifacts.filter fun artifact => !(artifact.inspect settings false).isOk).map (record settings)

theorem loaded_flatMap (settings : LoaderSettings) (artifacts : List Artifact) :
    Loaded settings artifacts ((artifacts.map (record settings)).flatMap Jar.flatten) where
  record_ok _ _ _ := record_of_ok
  record_error artifact _ failure broken := by
    rw [record_of_error broken]
    exact ⟨rfl, rfl⟩
  preorder := Jar.preorder_flatMap_flatten _
  nested _ _ := (Jar.preorder_flatMap_flatten _).nested_follow
  ordered _ _ := place_lt
  placed _ _ := getElem?_place
  unreadable := filter_unreadable artifacts

/-- An archive that is gone, before an open directory. -/
def gap : List Artifact :=
  [⟨"gone.jar", .archive, none, .missing (.plain "file does not exist")⟩,
    ⟨"classes", .directory, none, .files []⟩]

end Loader

end ClasspathAudit
