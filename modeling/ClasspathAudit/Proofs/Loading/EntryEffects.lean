import ClasspathAudit.Proofs.Loading.EntryRoles
import ClasspathAudit.Proofs.Model.ReleaseLayers

/-!
What entries do to a record, one by one and in a row: to the classes of its layers, and to its resources
where version directories do not count.
-/

namespace ClasspathAudit.Inspector

open Archive

variable {settings : LoaderSettings} {nested : String → List UInt8 → Except Failure Jar}
variable {multiRelease : Bool}

/-- The class that an entry adds to a record, and the release that it adds it to. -/
def contribution? (settings : LoaderSettings) (multiRelease : Bool) (entry : Entry) :
    Option (Int × JavaClass) :=
  match role settings multiRelease entry.name, entry.content with
  | .classFile release path, .ok bytes =>
    if isModulePath (Text.dropEnding ".class" path) then none
    else (ClassFile.parse bytes).class?.map fun found =>
      (release, if (ClassFile.parse bytes).failure?.isSome && found.name.isEmpty then
        { found with name := EntryName.className path } else found)
  | _, _ => none

theorem addModule_layers (jar : Jar) (entry : String) (release : Int) (bytes : List UInt8) :
    (addModule jar entry release bytes).layers = jar.layers := by
  rw [addModule]
  split
  · rfl
  · split <;> rfl

theorem addEntry_layers (jar : Jar) (entry : Entry) :
    (addEntry settings nested multiRelease jar entry).layers =
      match contribution? settings multiRelease entry with
      | some (release, c) => (jar.addClass release c).layers
      | none => jar.layers := by
  rw [addEntry, contribution?]
  cases part : role settings multiRelease entry.name with
  | ignored => rfl
  | resource release path =>
    cases entry.content with
    | ok bytes =>
      simp only
      split <;> rfl
    | error failure =>
      simp only
      split <;> rfl
  | nestedJar =>
    cases entry.content with
    | ok bytes =>
      simp only
      split <;> rfl
    | error failure => rfl
  | classFile release path =>
    cases entry.content with
    | error failure => rfl
    | ok bytes =>
      simp only [addClassFile]
      split
      · split
        · exact addModule_layers ..
        · rfl
      · cases ClassFile.parse bytes <;> rfl

theorem role_release {name path : String} {release : Int}
    (taken : role settings multiRelease name = .classFile release path) :
    baseRelease ≤ release := by
  obtain ⟨isVersioned, found, _, _, nonzero, _⟩ := role_eq_classFile taken
  rw [place] at found
  split at found
  · cases found
    exact le_refl _
  · rcases EntryName.versioned_cases name with base | broken | ⟨_, _, number, _, _, _, above, versions⟩
    · rw [base] at found
      cases found
      exact le_refl _
    · rw [broken] at found
      cases found
      exact absurd rfl nonzero
    · rw [versions] at found
      cases found
      exact above.le

/-- Without version directories an entry keeps its full name, and no release but the base counts. -/
theorem place_single (name : String) :
    (place false name).path = name ∧
      ((place false name).release = baseRelease ∨ (place false name).release = 0) := by
  rcases EntryName.versioned_cases name with base | broken | ⟨_, _, _, _, _, _, _, versions⟩
  · simp [place, base]
  · simp [place, broken]
  · simp [place, versions]

theorem role_release_single {name path : String} {release : Int}
    (taken : role settings false name = .classFile release path) : release = baseRelease := by
  obtain ⟨isVersioned, found, _, _, nonzero, _⟩ := role_eq_classFile taken
  have lies := (place_single name).2
  rw [found] at lies
  exact lies.resolve_right nonzero

theorem role_of_contribution? {entry : Entry} {release : Int} {c : JavaClass}
    (adds : contribution? settings multiRelease entry = some (release, c)) :
    ∃ path, role settings multiRelease entry.name = .classFile release path := by
  rw [contribution?] at adds
  split at adds
  next path bytes part _ =>
    split at adds
    · cases adds
    · obtain ⟨found, _, same⟩ := Option.map_eq_some_iff.mp adds
      cases same
      exact ⟨path, part⟩
  next => cases adds

theorem contribution?_release {entry : Entry} {release : Int} {c : JavaClass}
    (adds : contribution? settings multiRelease entry = some (release, c)) :
    baseRelease ≤ release := by
  obtain ⟨path, part⟩ := role_of_contribution? adds
  exact role_release part

/-- The class of a name that an entry adds to a release. -/
def answer? (settings : LoaderSettings) (multiRelease : Bool) (release : Int) (name : String)
    (entry : Entry) : Option JavaClass :=
  (contribution? settings multiRelease entry).bind fun (release', c) =>
    if release = release' ∧ name = c.name then some c else none

/-- What one entry does to the layers: it answers for itself, and else they answer as before. -/
theorem classAt?_addEntry (jar : Jar) (entry : Entry) (release : Int) (name : String) :
    Jar.classAt? (addEntry settings nested multiRelease jar entry).layers release name =
      (answer? settings multiRelease release name entry).or
        (Jar.classAt? jar.layers release name) := by
  rw [addEntry_layers, answer?]
  cases adds : contribution? settings multiRelease entry with
  | none => rfl
  | some pair =>
    obtain ⟨release', c⟩ := pair
    have above : ¬ release' < baseRelease := not_lt.mpr (contribution?_release adds)
    simp only [Jar.addClass, Jar.updateLayer, if_neg above, Option.bind_some,
      Jar.classAt?_update_add]
    split <;> rfl

theorem addEntry_layered (jar : Jar) (entry : Entry) (layered : Jar.Layered jar.layers) :
    Jar.Layered (addEntry settings nested multiRelease jar entry).layers := by
  rw [addEntry_layers]
  cases adds : contribution? settings multiRelease entry with
  | none => exact layered
  | some pair =>
    obtain ⟨release, c⟩ := pair
    have above := contribution?_release adds
    simp only [Jar.addClass, Jar.updateLayer, if_neg (not_lt.mpr above)]
    exact Jar.update_layered (fun _ => rfl) above layered

theorem addEntries_layered (entries : List Entry) (jar : Jar) (layered : Jar.Layered jar.layers) :
    Jar.Layered (entries.foldl (addEntry settings nested multiRelease) jar).layers := by
  induction entries generalizing jar with
  | nil => exact layered
  | cons entry entries ih => exact ih _ (addEntry_layered jar entry layered)

theorem classAt?_addEntries (entries : List Entry) (jar : Jar) (release : Int) (name : String) :
    Jar.classAt? (entries.foldl (addEntry settings nested multiRelease) jar).layers release name =
      (lastAnswer? (answer? settings multiRelease release name) entries).or
        (Jar.classAt? jar.layers release name) :=
  read_foldl (fun jar : Jar => Jar.classAt? jar.layers release name)
    (fun jar entry => classAt?_addEntry jar entry release name) entries jar

theorem mem_addEntries_layers {entries : List Entry} {jar : Jar} {layer : Layer}
    (member : layer ∈ (entries.foldl (addEntry settings nested multiRelease) jar).layers) :
    layer ∈ jar.layers ∨
      ∃ entry ∈ entries, ∃ c, contribution? settings multiRelease entry = some (layer.release, c) := by
  induction entries generalizing jar with
  | nil => exact .inl member
  | cons entry entries ih =>
    rcases ih member with old | ⟨later, inside, c, adds⟩
    · rw [addEntry_layers] at old
      cases adds : contribution? settings multiRelease entry with
      | none =>
        rw [adds] at old
        exact .inl old
      | some pair =>
        obtain ⟨release, c⟩ := pair
        have above : ¬ release < baseRelease := not_lt.mpr (contribution?_release adds)
        simp only [adds, Jar.addClass, Jar.updateLayer, if_neg above] at old
        rcases Jar.mem_update old with before | ⟨first, same, rfl⟩
        · exact .inl before
        · exact .inr ⟨entry, List.mem_cons_self, c, by rw [adds, ← same]; rfl⟩
    · exact .inr ⟨later, List.mem_cons_of_mem entry inside, c, adds⟩

theorem role_resource_single {name path : String} {release : Int}
    (taken : role settings false name = .resource release path) :
    release = baseRelease ∧ path = name := by
  obtain ⟨whole, lies⟩ := place_single name
  rw [role] at taken
  split at taken
  · cases taken
  simp only [← place.eq_1] at taken
  split at taken
  · cases taken
  · split at taken
    · cases taken
    · split at taken
      · cases taken
      · split at taken
        next =>
          injection taken with releases paths
          subst releases paths
          refine ⟨?_, whole⟩
          split
          · rfl
          next nonzero => exact lies.resolve_right nonzero
        next => cases taken

theorem addClassFile_resources (jar : Jar) (entry : String) (release : Int) (path : String)
    (bytes : List UInt8) : (addClassFile jar entry release path bytes).resources = jar.resources := by
  have module : (addModule jar entry release bytes).resources = jar.resources := by
    rw [addModule]
    split
    · rfl
    · split <;> rfl
  rw [addClassFile]
  split
  · split
    · exact module
    · rfl
  · cases ClassFile.parse bytes <;> rfl

/-- What one entry can do to the resources. -/
theorem addEntry_resources (jar : Jar) (entry : Entry) :
    (addEntry settings nested multiRelease jar entry).resources = jar.resources ∨
      ∃ release path bytes, role settings multiRelease entry.name = .resource release path ∧
        entry.content = .ok bytes ∧
        (addEntry settings nested multiRelease jar entry).resources =
          jar.resources.filter (·.path ≠ path) ++
            [⟨path, Digest.contentHash bytes, bytes.length, release⟩] := by
  rw [addEntry]
  cases part : role settings multiRelease entry.name with
  | ignored => exact .inl rfl
  | resource release path =>
    cases entry.content with
    | ok bytes =>
      simp only
      split
      · exact .inl rfl
      · exact .inr ⟨release, path, bytes, rfl, rfl, rfl⟩
    | error failure =>
      simp only
      split <;> exact .inl rfl
  | nestedJar =>
    cases entry.content with
    | ok bytes =>
      simp only
      split <;> exact .inl rfl
    | error failure => exact .inl rfl
  | classFile release path =>
    cases entry.content with
    | error failure => exact .inl rfl
    | ok bytes => exact .inl (addClassFile_resources ..)

theorem addEntry_base_resources {jar : Jar} (entry : Entry)
    (based : ∀ resource ∈ jar.resources, resource.release = baseRelease) :
    ∀ resource ∈ (addEntry settings nested false jar entry).resources,
      resource.release = baseRelease := by
  intro resource member
  rcases addEntry_resources jar entry with same | ⟨release, path, bytes, part, _, same⟩
  · rw [same] at member
    exact based resource member
  · rw [same, List.mem_append] at member
    rcases member with old | new
    · exact based resource (List.mem_of_mem_filter old)
    · rw [List.mem_singleton.mp new]
      exact (role_resource_single part).1

theorem addEntries_base_resources {jar : Jar} (entries : List Entry)
    (based : ∀ resource ∈ jar.resources, resource.release = baseRelease) :
    ∀ resource ∈ (entries.foldl (addEntry settings nested false) jar).resources,
      resource.release = baseRelease := by
  induction entries generalizing jar with
  | nil => exact based
  | cons entry entries ih => exact ih (addEntry_base_resources entry based)

/-- A resource stays while no entry of its name comes. -/
theorem addEntries_keeps_resource {jar : Jar} {resource : Resource} {entries : List Entry}
    (member : resource ∈ jar.resources) (others : ∀ entry ∈ entries, entry.name ≠ resource.path) :
    resource ∈ (entries.foldl (addEntry settings nested false) jar).resources := by
  induction entries generalizing jar with
  | nil => exact member
  | cons entry entries ih =>
    refine ih ?_ fun later inside => others later (List.mem_cons_of_mem entry inside)
    rcases addEntry_resources jar entry with same | ⟨release, path, bytes, part, _, same⟩
    · rw [same]
      exact member
    · rw [same, List.mem_append, List.mem_filter]
      have other := others entry List.mem_cons_self
      rw [← (role_resource_single part).2] at other
      exact .inl ⟨member, by simpa using other.symm⟩

theorem addEntries_resource {jar : Jar} {before after : List Entry} {entry : Entry}
    {bytes : List UInt8}
    (based : ∀ resource ∈ jar.resources, resource.release = baseRelease)
    (part : role settings false entry.name = .resource baseRelease entry.name)
    (content : entry.content = .ok bytes) (others : ∀ later ∈ after, later.name ≠ entry.name) :
    ⟨entry.name, Digest.contentHash bytes, bytes.length, baseRelease⟩ ∈
      ((before ++ entry :: after).foldl (addEntry settings nested false) jar).resources := by
  rw [List.foldl_append, List.foldl_cons]
  apply addEntries_keeps_resource ?_ others
  have based' : ∀ resource ∈ (before.foldl (addEntry settings nested false) jar).resources,
      resource.release = baseRelease := addEntries_base_resources before based
  generalize before.foldl (addEntry settings nested false) jar = reached at based'
  have highest : (reached.resources.any fun r =>
      decide (r.path = entry.name ∧ baseRelease < r.release)) = false := by
    rw [List.any_eq_false]
    intro resource member
    simp [based' resource member]
  rw [addEntry, part, content]
  simp only [highest]
  exact List.mem_append_right _ (List.mem_singleton.mpr rfl)

end ClasspathAudit.Inspector
