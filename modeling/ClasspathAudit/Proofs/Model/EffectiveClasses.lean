import ClasspathAudit.Proofs.Model.ReleaseLayers

/-!
The classes that a record shows at a target release. Looking one up by its name and listing all of them
walk the same layers; in a record whose layers hold each name once they give the same classes.
-/

namespace ClasspathAudit

namespace Layer

/-- No two classes of the layer have the same name. -/
def Keyed (layer : Layer) : Prop :=
  layer.classes.Pairwise fun a b => a.name ≠ b.name

section

variable {layer : Layer} {name : String} {c : JavaClass}

theorem Keyed.add (keyed : layer.Keyed) : (layer.add c).Keyed := by
  refine .cons ?_ (List.Pairwise.sublist List.filter_sublist keyed)
  intro other member
  simp only [List.mem_filter, decide_eq_true_eq] at member
  exact member.2.symm

theorem Keyed.get?_eq_some_iff (keyed : layer.Keyed) :
    layer.get? name = some c ↔ c ∈ layer.classes ∧ c.name = name := by
  constructor
  · intro found
    exact ⟨List.mem_of_find?_eq_some found, by simpa using List.find?_some found⟩
  · rintro ⟨member, rfl⟩
    obtain ⟨before, after, split⟩ := List.append_of_mem member
    rw [Keyed, split, List.pairwise_append] at keyed
    rw [get?, split, List.find?_append, List.find?_eq_none.mpr]
    · simp
    · intro other earlier
      simpa using keyed.2.2 other earlier c List.mem_cons_self

/-- Under each name that it lists, the layer holds a class of that name. -/
theorem Keyed.map_get?_names (keyed : layer.Keyed) :
    (layer.names.filterMap layer.get?).map JavaClass.name = layer.names := by
  have each : ∀ name ∈ layer.names, (layer.get? name).map JavaClass.name = some name := by
    intro name listed
    rw [names, (List.mergeSort_perm _ _).mem_iff] at listed
    obtain ⟨c, member, named⟩ := List.mem_map.mp listed
    rw [keyed.get?_eq_some_iff.mpr ⟨member, named⟩, Option.map_some, named]
  rw [List.map_filterMap, List.filterMap_congr each, List.filterMap_some]

theorem Keyed.nodup_names (keyed : layer.Keyed) : layer.names.Nodup := by
  rw [names, (List.mergeSort_perm _ _).nodup_iff]
  exact List.pairwise_map.mpr keyed

theorem Keyed.foldl_add {classes : List JavaClass} (keyed : layer.Keyed) :
    (classes.foldl Layer.add layer).Keyed := by
  induction classes generalizing layer with
  | nil => exact keyed
  | cons first classes ih => exact ih keyed.add

/-- Adding all classes of a layer puts them in front of those that were there. -/
theorem get?_foldl_add {upper : Layer} (keyed : upper.Keyed) :
    (upper.classes.foldl Layer.add layer).get? name = (upper.get? name).or (layer.get? name) := by
  obtain ⟨release, classes⟩ := upper
  rw [Keyed] at keyed
  simp only [get?] at keyed ⊢
  induction classes generalizing layer with
  | nil => rfl
  | cons first classes ih =>
    obtain ⟨others, rest⟩ := List.pairwise_cons.mp keyed
    rw [List.foldl_cons, ih rest, List.find?_cons]
    have added := get?_add layer first name
    rw [get?, get?] at added
    rw [added]
    by_cases same : first.name = name
    · have absent : classes.find? (·.name = name) = none := by
        rw [List.find?_eq_none]
        intro other member
        simpa [same] using (others other member).symm
      simp [absent, same]
    · have other : name ≠ first.name := fun equal => same equal.symm
      simp [same, other]

end

end Layer

namespace Jar

/-- Every layer of the record holds each class name once. -/
def Keyed (jar : Jar) : Prop :=
  ∀ layer ∈ jar.layers, layer.Keyed

/-- The layers of the record ascend from the base, and each holds each class name once. -/
structure Finished (jar : Jar) : Prop where
  ascending : Ascending jar.layers
  keyed : jar.Keyed

/-- The layers that count at a target release, laid over each other. -/
def merged (jar : Jar) (target : Int) : Layer :=
  (jar.layersUpTo target).foldl (fun merged layer => layer.classes.foldl Layer.add merged)
    { release := baseRelease }

section

variable {jar : Jar} {name : String} {target : Int} {c : JavaClass}

theorem effective_eq : jar.effective target =
    (jar.merged target).classes.mergeSort fun a b => decide (a.name ≤ b.name) := rfl

theorem keyed_update {f : Layer → Layer} {release : Int} {layers : List Layer}
    (keeps : ∀ layer : Layer, layer.Keyed → (f layer).Keyed) (keyed : ∀ layer ∈ layers, layer.Keyed) :
    ∀ layer ∈ updateLayer.update f release layers, layer.Keyed := by
  induction layers with
  | nil =>
    rw [updateLayer.update, List.forall_mem_singleton]
    exact keeps _ .nil
  | cons first layers ih =>
    obtain ⟨here, rest⟩ := List.forall_mem_cons.mp keyed
    rw [updateLayer.update]
    split
    · exact List.forall_mem_cons.mpr ⟨keeps first here, rest⟩
    · exact List.forall_mem_cons.mpr ⟨here, ih rest⟩

theorem Keyed.addClass (keyed : jar.Keyed) (release : Int) : (jar.addClass release c).Keyed :=
  keyed_update (fun _ keyed => keyed.add) keyed

theorem Keyed.init (keyed : jar.Keyed) : jar.init.Keyed := by
  intro layer member
  exact keyed_update (fun _ keyed => keyed) keyed layer (mem_init_layers member)

theorem Layered.finished (layered : Layered jar.layers) (keyed : jar.Keyed) : jar.init.Finished :=
  ⟨layered.init, keyed.init⟩

theorem merged_keyed : (jar.merged target).Keyed := by
  suffices ∀ (layers : List Layer) (start : Layer), start.Keyed →
      (layers.foldl (fun merged layer => layer.classes.foldl Layer.add merged) start).Keyed from
    this _ _ .nil
  intro layers start keyed
  induction layers generalizing start with
  | nil => exact keyed
  | cons first layers ih => exact ih _ keyed.foldl_add

/-- Laid over each other, the layers answer as the last one that has the name. -/
theorem Keyed.get?_merged (keyed : jar.Keyed) :
    (jar.merged target).get? name = jar.effectiveClass? name target := by
  have counted : ∀ layer ∈ jar.layersUpTo target, layer.Keyed :=
    fun layer member => keyed layer ((List.takeWhile_sublist _).subset member)
  suffices ∀ (layers : List Layer) (start : Layer), (∀ layer ∈ layers, layer.Keyed) →
      (layers.foldl (fun merged layer => layer.classes.foldl Layer.add merged) start).get? name =
        layers.foldl (fun found layer => (layer.get? name).or found) (start.get? name) from
    this _ _ counted
  intro layers start keyed
  induction layers generalizing start with
  | nil => rfl
  | cons first layers ih =>
    obtain ⟨here, rest⟩ := List.forall_mem_cons.mp keyed
    rw [List.foldl_cons, ih _ rest, Layer.get?_foldl_add here, List.foldl_cons]

theorem effective_ascending : (jar.effective target).Pairwise fun a b => a.name < b.name :=
  mergeSort_ascending merged_keyed

theorem Keyed.mem_effective (keyed : jar.Keyed) :
    c ∈ jar.effective target ↔ jar.effectiveClass? c.name target = some c := by
  rw [effective_eq, (List.mergeSort_perm _ _).mem_iff, ← keyed.get?_merged,
    merged_keyed.get?_eq_some_iff]
  simp

theorem Keyed.effectiveClass?_name (keyed : jar.Keyed)
    (found : jar.effectiveClass? name target = some c) : c.name = name := by
  rw [← keyed.get?_merged, merged_keyed.get?_eq_some_iff] at found
  exact found.2

/-- The list of all classes answers by name as the lookup of one. -/
theorem Keyed.find?_effective (keyed : jar.Keyed) :
    (jar.effective target).find? (·.name = name) = jar.effectiveClass? name target := by
  have listed : Layer.Keyed ⟨baseRelease, jar.effective target⟩ :=
    effective_ascending.imp String.ne_of_lt
  apply Option.ext
  intro c
  have found : (jar.effective target).find? (·.name = name) = some c ↔
      c ∈ jar.effective target ∧ c.name = name := listed.get?_eq_some_iff
  rw [found, keyed.mem_effective]
  constructor
  · rintro ⟨shown, rfl⟩
    exact shown
  · intro shown
    have same := keyed.effectiveClass?_name shown
    subst same
    exact ⟨shown, rfl⟩

theorem Keyed.any_effective (keyed : jar.Keyed) :
    (jar.effective target).any (·.name = name) = (jar.effectiveClass? name target).isSome := by
  rw [← keyed.find?_effective, List.isSome_find?]

end

end Jar

end ClasspathAudit
