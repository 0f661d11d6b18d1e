import ClasspathAudit.Loading.Loader
import ClasspathAudit.Proofs.Loading.MultiRelease
import ClasspathAudit.Proofs.Model.EffectiveClasses

/-!
Records that were loaded. An archive that opens gives a readable record, and so does every archive inside
it that is kept; their layers hold each class name once.
-/

namespace ClasspathAudit

namespace Jar

theorem flattenAll_eq (jars : List Jar) : flatten.flattenAll jars = jars.flatMap flatten := by
  induction jars with
  | nil => rfl
  | cons jar jars ih => rw [flatten.flattenAll, ih, List.flatMap_cons]

theorem flatten_eq (jar : Jar) : jar.flatten = jar :: jar.nested.flatMap flatten := by
  cases jar
  rw [flatten, flattenAll_eq]

/-- The record and all those inside it come from archives that could be opened, and hold each class
name once in a layer. -/
def Whole (jar : Jar) : Prop :=
  ∀ record ∈ jar.flatten, record.unreadable = false ∧ record.Keyed

theorem whole_iff {jar : Jar} :
    jar.Whole ↔ (jar.unreadable = false ∧ jar.Keyed) ∧ ∀ inner ∈ jar.nested, inner.Whole := by
  rw [Whole, flatten_eq, List.forall_mem_cons]
  refine and_congr_right fun _ => ?_
  constructor
  · intro whole inner member record listed
    exact whole record (List.mem_flatMap.mpr ⟨inner, member, listed⟩)
  · intro whole record listed
    obtain ⟨inner, member, listed⟩ := List.mem_flatMap.mp listed
    exact whole inner member record listed

end Jar

namespace Inspector

section

variable {settings : LoaderSettings} {nested : String → List UInt8 → Except Failure Jar}
variable {multiRelease : Bool}

/-- The record of the archive that an entry is, where it can be loaded. -/
def inner? (settings : LoaderSettings) (nested : String → List UInt8 → Except Failure Jar)
    (multiRelease : Bool) (origin : String) (entry : Entry) : Option Jar :=
  match role settings multiRelease entry.name, entry.content with
  | .nestedJar, .ok bytes => (nested (origin ++ "!/" ++ entry.name) bytes).toOption
  | _, _ => none

theorem addModule_frame (jar : Jar) (entry : String) (release : Int) (bytes : List UInt8) :
    (addModule jar entry release bytes).unreadable = jar.unreadable ∧
      (addModule jar entry release bytes).nested = jar.nested := by
  rw [addModule]
  split
  · exact ⟨rfl, rfl⟩
  · split <;> exact ⟨rfl, rfl⟩

theorem addClassFile_frame (jar : Jar) (entry : String) (release : Int) (path : String)
    (bytes : List UInt8) :
    (addClassFile jar entry release path bytes).unreadable = jar.unreadable ∧
      (addClassFile jar entry release path bytes).nested = jar.nested := by
  simp only [addClassFile]
  split
  · split
    · exact addModule_frame ..
    · exact ⟨rfl, rfl⟩
  · cases ClassFile.parse bytes <;> exact ⟨rfl, rfl⟩

theorem addEntry_frame (settings : LoaderSettings)
    (nested : String → List UInt8 → Except Failure Jar) (multiRelease : Bool) (jar : Jar)
    (entry : Entry) :
    (addEntry settings nested multiRelease jar entry).unreadable = jar.unreadable ∧
      (addEntry settings nested multiRelease jar entry).nested =
        jar.nested ++ (inner? settings nested multiRelease jar.origin entry).toList := by
  rw [addEntry, inner?]
  cases role settings multiRelease entry.name with
  | ignored => simp
  | resource release path =>
    cases entry.content with
    | ok bytes =>
      simp only
      split <;> simp [addResource]
    | error failure =>
      simp only
      split <;> simp [addUnreadable, addAnomaly]
  | nestedJar =>
    cases entry.content with
    | ok bytes =>
      simp only
      cases nested (jar.origin ++ "!/" ++ entry.name) bytes with
      | ok inner => simp [Except.toOption]
      | error failure => simp [Except.toOption, addUnreadable, addAnomaly]
    | error failure => simp [addUnreadable, addAnomaly]
  | classFile release path =>
    cases entry.content with
    | error failure => simp [addUnreadable, addAnomaly]
    | ok bytes => simpa using addClassFile_frame jar entry.name release path bytes

theorem addEntry_keyed {jar : Jar} (keyed : jar.Keyed) (entry : Entry) :
    (addEntry settings nested multiRelease jar entry).Keyed := by
  rw [Jar.Keyed, addEntry_layers]
  split
  · exact keyed.addClass _
  · exact keyed

theorem addEntry_whole {jar : Jar} (loads : ∀ origin bytes inner, nested origin bytes = .ok inner →
    inner.Whole) (whole : jar.Whole) (entry : Entry) :
    (addEntry settings nested multiRelease jar entry).Whole := by
  obtain ⟨⟨readable, keyed⟩, inside⟩ := Jar.whole_iff.mp whole
  obtain ⟨same, added⟩ := addEntry_frame settings nested multiRelease jar entry
  refine Jar.whole_iff.mpr ⟨⟨same.trans readable, addEntry_keyed keyed entry⟩, ?_⟩
  rw [added]
  intro inner member
  rcases List.mem_append.mp member with old | new
  · exact inside inner old
  · rw [Option.mem_toList, inner?] at new
    split at new
    next bytes _ _ =>
      cases loaded : nested (jar.origin ++ "!/" ++ entry.name) bytes with
      | ok found =>
        rw [loaded] at new
        cases new
        exact loads _ _ _ loaded
      | error failure =>
        rw [loaded] at new
        cases new
    next => cases new

theorem addEntries_whole {jar : Jar} (loads : ∀ origin bytes inner, nested origin bytes = .ok inner →
    inner.Whole) (whole : jar.Whole) (entries : List Entry) :
    (entries.foldl (addEntry settings nested multiRelease) jar).Whole := by
  induction entries generalizing jar with
  | nil => exact whole
  | cons entry entries ih => exact ih (addEntry_whole loads whole entry)

end

/-- Two records that differ in neither of what makes a record whole. -/
theorem whole_congr {jar jar' : Jar} (whole : jar.Whole) (readable : jar'.unreadable = jar.unreadable)
    (layers : jar'.layers = jar.layers) (nested : jar'.nested = jar.nested) : jar'.Whole := by
  rw [Jar.whole_iff] at whole ⊢
  rw [Jar.Keyed, readable, layers, nested]
  exact whole

theorem addManifest_whole {jar : Jar} (whole : jar.Whole) (entries : List Entry) :
    (addManifest jar entries).Whole := by
  rw [addManifest]
  split
  · split <;> exact whole_congr whole rfl rfl rfl
  · exact whole

theorem init_whole {jar : Jar} (whole : jar.Whole) : jar.init.Whole := by
  obtain ⟨⟨readable, keyed⟩, inside⟩ := Jar.whole_iff.mp whole
  exact Jar.whole_iff.mpr ⟨⟨readable, keyed.init⟩, inside⟩

/-- A record with nothing in it yet. -/
theorem blank_whole {jar : Jar} (readable : jar.unreadable = false) (bare : jar.layers = [])
    (plain : jar.nested = []) : jar.Whole := by
  refine Jar.whole_iff.mpr ⟨⟨readable, ?_⟩, ?_⟩
  · intro layer member
    rw [bare] at member
    cases member
  · intro inner member
    rw [plain] at member
    cases member

section

variable {settings : LoaderSettings} {nested : String → List UInt8 → Except Failure Jar} {jar : Jar}

theorem build_whole (loads : ∀ origin bytes inner, nested origin bytes = .ok inner → inner.Whole)
    (whole : jar.Whole) (entries : List Entry) : (build settings nested jar entries).Whole := by
  have gathered : (collected settings nested jar entries).Whole := by
    apply addEntries_whole loads
    exact whole_congr (addManifest_whole whole (visited entries)) rfl rfl rfl
  exact whole_congr (init_whole gathered) rfl rfl rfl

theorem archiveWith_whole
    (loads : ∀ origin bytes inner, nested origin bytes = .ok inner → inner.Whole)
    {origin : String} {bytes : List UInt8} {coordinate : Option Coordinate}
    (loaded : archiveWith settings nested false origin bytes coordinate = .ok jar) : jar.Whole := by
  rw [archiveWith] at loaded
  cases entries : zipEntries bytes with
  | error fault =>
    rw [entries] at loaded
    cases loaded
  | ok entries' =>
    rw [entries, opened, Bool.false_and, if_neg Bool.false_ne_true] at loaded
    cases loaded
    exact build_whole loads (blank_whole rfl rfl rfl) entries'

/-- By induction on the depth: what an archive keeps of those inside it was loaded in the same way. -/
theorem nestedArchive_whole (depth : Nat) (origin : String) (bytes : List UInt8) (jar : Jar)
    (loaded : nestedArchive settings depth origin bytes = .ok jar) : jar.Whole := by
  induction depth generalizing origin bytes jar with
  | zero => cases loaded
  | succ depth ih => exact archiveWith_whole ih loaded

end

end Inspector

/-- What loading an artifact gives is readable throughout. -/
theorem Artifact.inspect_whole {settings : LoaderSettings} {artifact : Artifact} {jar : Jar}
    (loaded : artifact.inspect settings false = .ok jar) : jar.Whole := by
  have inside : ∀ depth origin bytes jar,
      Inspector.nestedArchive settings depth origin bytes = .ok jar → jar.Whole :=
    Inspector.nestedArchive_whole
  rw [inspect] at loaded
  split at loaded
  · split at loaded
    · exact Inspector.archiveWith_whole (inside _) loaded
    · cases loaded
  · split at loaded
    · rw [if_neg Bool.false_ne_true, Inspector.classFile] at loaded
      split at loaded
      · cases loaded
      · cases loaded
        exact Inspector.whole_congr
          (Inspector.build_whole (inside _) (Inspector.blank_whole rfl rfl rfl) _) rfl rfl rfl
    · cases loaded
  · split at loaded
    · rw [Bool.false_and, if_neg Bool.false_ne_true] at loaded
      cases loaded
      exact Inspector.build_whole (inside _) (Inspector.blank_whole rfl rfl rfl) _
    · cases loaded
    · cases loaded
  · cases loaded

end ClasspathAudit
