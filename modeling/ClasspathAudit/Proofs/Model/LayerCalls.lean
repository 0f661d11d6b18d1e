import ClasspathAudit.Proofs.Model.EffectiveClasses

/-!
Records built call by call. Whatever layers are asked for and whatever classes are added to them, in any
order, the finished record answers from the calls alone: a class is the one added last to the highest
release that counts and was given one of its name.
-/

namespace ClasspathAudit

/-- A step in building a record. -/
inductive LayerCall where
  /-- The layer of a release is asked for, and made where it is missing. -/
  | layerFor (release : Int)
  /-- A class is added to the layer that a release has been given. -/
  | add (release : Int) (c : JavaClass)
deriving DecidableEq, Repr

namespace LayerCall

def release : LayerCall → Int
  | layerFor release => release
  | add release _ => release

def run (jar : Jar) : LayerCall → Jar
  | layerFor release => jar.ensureLayer release
  | add release c => jar.addClass release c

/-- The record that calls build from one without layers, before it is finished. -/
def runAll (jar : Jar) (calls : List LayerCall) : Jar :=
  calls.foldl run { jar with layers := [] }

/-- The class that a call adds to a release under a name; what is below the base goes to the base. -/
def added? (release : Int) (name : String) : LayerCall → Option JavaClass
  | layerFor _ => none
  | add given c => if max given baseRelease = release ∧ c.name = name then some c else none

/-- The class that calls added last to a release under a name. -/
def lastAdded? (calls : List LayerCall) (release : Int) (name : String) : Option JavaClass :=
  lastAnswer? (added? release name) calls

end LayerCall

namespace Jar

/-- What a layer is found under when a release is asked for. -/
theorem updateLayer_layers (jar : Jar) (release : Int) (f : Layer → Layer) :
    (jar.updateLayer release f).layers = updateLayer.update f (max release baseRelease) jar.layers := by
  have raised : (if release < baseRelease then baseRelease else release) = max release baseRelease := by
    split <;> omega
  rw [updateLayer, raised]

theorem mem_releases_update {f : Layer → Layer} {release other : Int} {layers : List Layer}
    (keeps : ∀ layer, (f layer).release = layer.release) :
    other ∈ (updateLayer.update f release layers).map Layer.release ↔
      other ∈ layers.map Layer.release ∨ other = release := by
  induction layers with
  | nil => simp [updateLayer.update, keeps]
  | cons first layers ih =>
    rw [updateLayer.update]
    split
    next hit =>
      rw [List.map_cons, List.map_cons, keeps, hit]
      exact ⟨.inl, fun known => known.elim (fun old => old) fun same => List.mem_cons.mpr (.inl same)⟩
    next => simp only [List.map_cons, List.mem_cons, ih, or_assoc]

theorem update_id {release : Int} {layers : List Layer} (known : release ∈ layers.map Layer.release) :
    updateLayer.update id release layers = layers := by
  induction layers with
  | nil => cases known
  | cons first layers ih =>
    rw [updateLayer.update]
    split
    · rfl
    next miss =>
      rw [ih ((List.mem_cons.mp known).resolve_left fun same => miss same.symm)]

variable {jar : Jar}

theorem mem_releases_init {release : Int} : release ∈ jar.init.layers.map Layer.release ↔
    release ∈ jar.layers.map Layer.release ∨ release = baseRelease := by
  have same : (jar.init.layers.map Layer.release).Perm
      ((updateLayer.update id baseRelease jar.layers).map Layer.release) :=
    (List.mergeSort_perm _ _).map _
  rw [same.mem_iff, mem_releases_update (f := id) fun _ => rfl]

/-- A record without a layer below the base begins with the base. -/
theorem head?_init_releases (layered : Layered jar.layers) :
    (jar.init.layers.map Layer.release).head? = some baseRelease := by
  have ascending := (List.pairwise_map (f := Layer.release)).mpr (init_ascending layered)
  have based : baseRelease ∈ jar.init.layers.map Layer.release := mem_releases_init.mpr (.inr rfl)
  have above : ∀ release ∈ jar.init.layers.map Layer.release, baseRelease ≤ release := by
    intro release member
    rcases mem_releases_init.mp member with old | rfl
    · obtain ⟨layer, inside, rfl⟩ := List.mem_map.mp old
      exact layered.based layer inside
    · exact le_refl _
  cases releases : jar.init.layers.map Layer.release with
  | nil =>
    rw [releases] at based
    cases based
  | cons first rest =>
    rw [releases] at ascending based above
    rcases List.mem_cons.mp based with same | later
    · rw [List.head?_cons, same]
    · have below := List.rel_of_pairwise_cons ascending later
      have := above first List.mem_cons_self
      omega

/-- Finishing a finished record changes nothing. -/
theorem init_init (jar : Jar) : jar.init.init = jar.init := by
  have based : baseRelease ∈ jar.init.layers.map Layer.release := mem_releases_init.mpr (.inr rfl)
  have layers : jar.init.init.layers = jar.init.layers := by
    show (updateLayer.update id baseRelease jar.init.layers).mergeSort _ = _
    rw [update_id based]
    exact mergeSort_mergeSort_key Layer.release _
  have resources : jar.init.init.resources = jar.init.resources :=
    mergeSort_mergeSort_key Resource.path _
  calc jar.init.init = { jar.init with layers := jar.init.init.layers
                                       resources := jar.init.init.resources } := rfl
    _ = { jar.init with layers := jar.init.layers
                        resources := jar.init.resources } := by simp only [layers, resources]
    _ = jar.init := rfl

theorem mem_packages {target : Int} {package : String} :
    package ∈ jar.packages target ↔ ∃ c ∈ jar.effective target, c.package = package := by
  rw [packages, (List.mergeSort_perm _ _).mem_iff, List.mem_eraseDups, List.mem_map]

/-- A class of a lower target has a successor at every higher one. -/
theorem effectiveClass?_isSome_mono {name : String} {low high : Int} (layered : Layered jar.layers)
    (below : low ≤ high) (shown : (jar.init.effectiveClass? name low).isSome = true) :
    (jar.init.effectiveClass? name high).isSome = true := by
  rw [Option.isSome_iff_ne_none, ne_eq, init_effectiveClass?_eq_none_iff layered] at shown ⊢
  intro silent
  refine shown fun release counts => silent release ?_
  simp only [countsAt, Bool.or_eq_true, decide_eq_true_eq] at counts ⊢
  omega

end Jar

namespace LayerCall

variable {jar : Jar} {calls : List LayerCall}

theorem run_layered {call : LayerCall} (layered : Jar.Layered jar.layers) :
    Jar.Layered (run jar call).layers := by
  cases call with
  | layerFor release =>
    rw [run, Jar.ensureLayer, Jar.updateLayer_layers]
    exact Jar.update_layered (fun _ => rfl) (le_max_right _ _) layered
  | add release c =>
    rw [run, Jar.addClass, Jar.updateLayer_layers]
    exact Jar.update_layered (fun _ => rfl) (le_max_right _ _) layered

theorem run_keyed {call : LayerCall} (keyed : jar.Keyed) : (run jar call).Keyed := by
  cases call with
  | layerFor release => exact Jar.keyed_update (fun _ here => here) keyed
  | add release c => exact keyed.addClass release

theorem mem_releases_run {call : LayerCall} {release : Int} :
    release ∈ (run jar call).layers.map Layer.release ↔
      release ∈ jar.layers.map Layer.release ∨ release = max call.release baseRelease := by
  cases call with
  | layerFor given =>
    rw [run, Jar.ensureLayer, Jar.updateLayer_layers]
    exact Jar.mem_releases_update fun _ => rfl
  | add given c =>
    rw [run, Jar.addClass, Jar.updateLayer_layers]
    exact Jar.mem_releases_update fun _ => rfl

/-- One call puts its class, if it adds one, before what the release held. -/
theorem classAt?_run (call : LayerCall) (release : Int) (name : String) :
    Jar.classAt? (run jar call).layers release name =
      (added? release name call).or (Jar.classAt? jar.layers release name) := by
  cases call with
  | layerFor given =>
    rw [run, Jar.ensureLayer, Jar.updateLayer_layers, Jar.classAt?_update_id]
    rfl
  | add given c =>
    rw [run, Jar.addClass, Jar.updateLayer_layers, Jar.classAt?_update_add, added?]
    by_cases hit : max given baseRelease = release ∧ c.name = name
    · rw [if_pos hit, if_pos ⟨hit.1.symm, hit.2.symm⟩, Option.some_or]
    · rw [if_neg hit, if_neg fun same => hit ⟨same.1.symm, same.2.symm⟩, Option.none_or]

theorem runAll_layered : Jar.Layered (runAll jar calls).layers := by
  suffices ∀ start : Jar, Jar.Layered start.layers → Jar.Layered (calls.foldl run start).layers from
    this _ ⟨.nil, fun layer member => by cases member⟩
  induction calls with
  | nil => exact fun start layered => layered
  | cons call calls ih => exact fun start layered => ih _ (run_layered layered)

theorem runAll_keyed : (runAll jar calls).Keyed := by
  suffices ∀ start : Jar, start.Keyed → (calls.foldl run start).Keyed from
    this _ fun layer member => by cases member
  induction calls with
  | nil => exact fun start keyed => keyed
  | cons call calls ih => exact fun start keyed => ih _ (run_keyed keyed)

theorem runAll_finished : (runAll jar calls).init.Finished :=
  runAll_layered.finished runAll_keyed

theorem mem_releases_runAll {release : Int} :
    release ∈ (runAll jar calls).layers.map Layer.release ↔
      ∃ call ∈ calls, release = max call.release baseRelease := by
  suffices ∀ start : Jar, release ∈ (calls.foldl run start).layers.map Layer.release ↔
      release ∈ start.layers.map Layer.release ∨ ∃ call ∈ calls, release = max call.release baseRelease by
    rw [runAll, this]
    simp
  induction calls with
  | nil => simp
  | cons call calls ih =>
    intro start
    rw [List.foldl_cons, ih, mem_releases_run, List.exists_mem_cons_iff, or_assoc]

theorem classAt?_runAll (release : Int) (name : String) :
    Jar.classAt? (runAll jar calls).layers release name = lastAdded? calls release name := by
  rw [runAll, read_foldl (fun jar : Jar => Jar.classAt? jar.layers release name)
    (fun jar call => classAt?_run call release name)]
  exact Option.or_none

/-- What a finished record shows, told by the calls that built it. -/
structure Told (calls : List LayerCall) (built : Jar) : Prop where
  ascending : (built.layers.map Layer.release).Pairwise (· < ·)
  based : (built.layers.map Layer.release).head? = some baseRelease
  asked : ∀ release, release ∈ built.layers.map Layer.release ↔
    release = baseRelease ∨ ∃ call ∈ calls, release = max call.release baseRelease
  /-- Of the releases that count, the highest that has the name decides. -/
  shown : ∀ name target c, built.effectiveClass? name target = some c ↔
    ∃ release, (release = baseRelease ∨ release ≤ target) ∧ lastAdded? calls release name = some c ∧
      ∀ higher, release < higher → (higher = baseRelease ∨ higher ≤ target) →
        lastAdded? calls higher name = none
  absent : ∀ name target, built.effectiveClass? name target = none ↔
    ∀ release, (release = baseRelease ∨ release ≤ target) → lastAdded? calls release name = none
  sorted : ∀ target, (built.effective target).Pairwise fun a b => a.name < b.name
  listed : ∀ target c, c ∈ built.effective target ↔ built.effectiveClass? c.name target = some c
  /-- No name disappears at a higher target. -/
  grows : ∀ low high, low ≤ high →
    (built.effective low).map JavaClass.name ⊆ (built.effective high).map JavaClass.name
  counted : ∀ target, built.classCount target = (built.effective target).length
  packagesSorted : ∀ target, (built.packages target).Pairwise (· < ·)
  packagesListed : ∀ target package,
    package ∈ built.packages target ↔ ∃ c ∈ built.effective target, c.package = package
  settled : built.init = built

theorem countsAt_iff {target release : Int} :
    Jar.countsAt target release = true ↔ release = baseRelease ∨ release ≤ target := by
  rw [Jar.countsAt, Bool.or_eq_true, decide_eq_true_eq, decide_eq_true_eq, or_comm]

theorem grows_runAll {low high : Int} (below : low ≤ high) :
    ((runAll jar calls).init.effective low).map JavaClass.name ⊆
      ((runAll jar calls).init.effective high).map JavaClass.name := by
  have keyed : (runAll jar calls).init.Keyed := runAll_keyed.init
  intro name member
  obtain ⟨c, inside, rfl⟩ := List.mem_map.mp member
  have shown : ((runAll jar calls).init.effectiveClass? c.name low).isSome = true := by
    rw [keyed.mem_effective.mp inside, Option.isSome_some]
  obtain ⟨c', later⟩ := Option.isSome_iff_exists.mp
    (Jar.effectiveClass?_isSome_mono runAll_layered below shown)
  have same := keyed.effectiveClass?_name later
  refine List.mem_map.mpr ⟨c', keyed.mem_effective.mpr ?_, same⟩
  rw [same]
  exact later

/-- The layered record, whatever calls built it: its layers ascend from the base, its lookups and its
listings are those of the classes added last, and finishing it again changes nothing. -/
theorem finished_told (jar : Jar) (calls : List LayerCall) : Told calls (runAll jar calls).init where
  ascending := List.pairwise_map.mpr (Jar.init_ascending runAll_layered)
  based := Jar.head?_init_releases runAll_layered
  asked release := by rw [Jar.mem_releases_init, mem_releases_runAll, or_comm]
  shown name target c := by
    simp only [Jar.init_effectiveClass?_eq_some_iff runAll_layered, classAt?_runAll, countsAt_iff]
  absent name target := by
    simp only [Jar.init_effectiveClass?_eq_none_iff runAll_layered, classAt?_runAll, countsAt_iff]
  sorted _ := Jar.effective_ascending
  listed _ _ := runAll_keyed.init.mem_effective
  grows _ _ := grows_runAll
  counted _ := rfl
  packagesSorted _ := eraseDups_mergeSort_ascending _
  packagesListed _ _ := Jar.mem_packages
  settled := Jar.init_init _

end LayerCall

end ClasspathAudit
