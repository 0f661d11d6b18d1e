import ClasspathAudit.Analysis.ReleaseLayers
import ClasspathAudit.Proofs.Classpath.Indices
import ClasspathAudit.Proofs.Model.LayerCalls

/-!
What the analysis of release layers finds. Every layer above the base is held against the version of a
class that stands highest below it, along a chain of any length; the findings are told by the layers
alone, and there is one row for each of them.
-/

namespace ClasspathAudit.Analysis

section

variable {σ τ κ ι ρ : Type}

/-- Each site that there is something to say of has one row, and there are no other rows. -/
def OnePerSite (tells : σ → ρ → Prop) (rows : List ρ) : Prop :=
  ∃ sites : List σ, sites.Nodup ∧ (∀ site, site ∈ sites ↔ ∃ row, tells site row) ∧
    List.Forall₂ tells sites rows

namespace OnePerSite

variable {tells : σ → ρ → Prop} {rows : List ρ}

theorem none (silent : ∀ site row, ¬ tells site row) : OnePerSite tells [] :=
  ⟨[], .nil, fun site => iff_of_false (by simp) fun ⟨row, told⟩ => silent site row told, .nil⟩

theorem single {site : σ} {row : ρ} (only : ∀ site' row', tells site' row' ↔ site' = site ∧ row' = row) :
    OnePerSite tells [row] := by
  refine ⟨[site], List.nodup_singleton site, ?_, .cons ((only site row).mpr ⟨rfl, rfl⟩) .nil⟩
  intro site'
  simp [only]

theorem congr {tells' : σ → ρ → Prop} (one : OnePerSite tells rows)
    (same : ∀ site row, tells site row ↔ tells' site row) : OnePerSite tells' rows := by
  obtain rfl : tells = tells' := funext fun site => funext fun row => propext (same site row)
  exact one

/-- Sites may be named in another way, if that tells them apart. -/
theorem rename (one : OnePerSite tells rows) {tells' : τ → ρ → Prop} (name : σ → τ)
    (apart : Function.Injective name) (same : ∀ site row, tells' (name site) row ↔ tells site row)
    (named : ∀ site' row, tells' site' row → ∃ site, name site = site') : OnePerSite tells' rows := by
  obtain ⟨sites, nodup, all, each⟩ := one
  refine ⟨sites.map name, nodup.map apart, ?_, ?_⟩
  · intro site'
    rw [List.mem_map]
    constructor
    · rintro ⟨site, member, rfl⟩
      obtain ⟨row, told⟩ := (all site).mp member
      exact ⟨row, (same site row).mpr told⟩
    · rintro ⟨row, told⟩
      obtain ⟨site, rfl⟩ := named site' row told
      exact ⟨site, (all site).mpr ⟨row, (same site row).mp told⟩, rfl⟩
  · rw [List.forall₂_map_left_iff]
    exact each.imp fun site row => (same site row).mpr

theorem map {ρ' : Type} (one : OnePerSite tells rows) (f : ρ → ρ') :
    OnePerSite (fun site row => ∃ finding, tells site finding ∧ row = f finding) (rows.map f) := by
  obtain ⟨sites, nodup, all, each⟩ := one
  refine ⟨sites, nodup, ?_, ?_⟩
  · intro site
    rw [all]
    constructor
    · exact fun ⟨finding, told⟩ => ⟨f finding, finding, told, rfl⟩
    · exact fun ⟨row, finding, told, same⟩ => ⟨finding, told⟩
  · rw [List.forall₂_map_right_iff]
    exact each.imp fun site finding told => ⟨finding, told, rfl⟩

/-- The rows of items that their keys tell apart. -/
theorem flatMap {key : ι → κ} {items : List ι} {f : ι → List ρ} {tells : ι → σ → ρ → Prop}
    (apart : (items.map key).Nodup) (each : ∀ item ∈ items, OnePerSite (tells item) (f item)) :
    OnePerSite (fun (site : κ × σ) row => ∃ item ∈ items, key item = site.1 ∧ tells item site.2 row)
      (items.flatMap f) := by
  induction items with
  | nil => exact none fun site row => by simp
  | cons first items ih =>
    rw [List.map_cons, List.nodup_cons] at apart
    rw [List.forall_mem_cons] at each
    obtain ⟨sites, nodup, all, one⟩ := each.1
    obtain ⟨others, nodup', all', one'⟩ := ih apart.2 each.2
    have foreign : ∀ site ∈ others, site.1 ≠ key first := by
      intro site member same
      obtain ⟨row, item, inside, keyed, -⟩ := (all' site).mp member
      apply apart.1
      exact List.mem_map.mpr ⟨item, inside, keyed.trans same⟩
    refine ⟨sites.map (key first, ·) ++ others, ?_, ?_, ?_⟩
    · apply List.Nodup.append (nodup.map (Prod.mk_right_injective _)) nodup'
      intro site member member'
      obtain ⟨inner, -, rfl⟩ := List.mem_map.mp member
      exact foreign _ member' rfl
    · rintro ⟨keyed, site⟩
      simp only [List.mem_append, List.mem_map, Prod.mk.injEq, all, all', List.exists_mem_cons_iff,
        exists_or]
      apply or_congr_left
      constructor
      · rintro ⟨site, ⟨row, told⟩, same, rfl⟩
        exact ⟨row, same, told⟩
      · rintro ⟨row, same, told⟩
        exact ⟨site, ⟨row, told⟩, same, rfl⟩
    · rw [List.flatMap_cons]
      apply List.rel_append
      · rw [List.forall₂_map_left_iff]
        exact one.imp fun site row told => ⟨first, List.mem_cons_self, rfl, told⟩
      · refine one'.imp ?_
        rintro site row ⟨item, inside, told⟩
        exact ⟨item, List.mem_cons_of_mem first inside, told⟩

variable {items : List ι} {test : ι → Bool}

/-- The rows of the items that pass a test, by their positions. -/
theorem flatMap_positions {f : ι → List ρ} {tells : ι → σ → ρ → Prop}
    (each : ∀ item ∈ items, test item = true → OnePerSite (tells item) (f item)) :
    OnePerSite (fun (site : Nat × σ) row =>
      ∃ item, items[site.1]? = some item ∧ test item = true ∧ tells item site.2 row)
      ((items.filter test).flatMap f) := by
  have passing : items.filter test =
      (items.zipIdx.filter fun entry => test entry.1).map Prod.fst := by
    conv_lhs => rw [← List.zipIdx_map_fst 0 items, List.filter_map]
    rfl
  have apart : ((items.zipIdx.filter fun entry => test entry.1).map Prod.snd).Nodup :=
    positions_ascending.imp Nat.ne_of_lt
  have each' : ∀ entry ∈ items.zipIdx.filter fun entry => test entry.1,
      OnePerSite (tells entry.1) (f entry.1) := by
    rintro ⟨item, position⟩ member
    rw [List.mem_filter, List.mem_zipIdx_iff_getElem?] at member
    exact each item (List.mem_of_getElem? member.1) member.2
  rw [passing, List.flatMap_map]
  apply (flatMap apart each').congr
  rintro ⟨position, site⟩ row
  simp only [List.mem_filter, List.mem_zipIdx_iff_getElem?, Prod.exists]
  constructor
  · rintro ⟨item, position', ⟨here, passes⟩, rfl, told⟩
    exact ⟨item, here, passes, told⟩
  · rintro ⟨item, here, passes, told⟩
    exact ⟨item, position, ⟨here, passes⟩, rfl, told⟩

/-- One row for each item that passes a test. -/
theorem map_positions {f : ι → ρ} :
    OnePerSite (fun (position : Nat) row =>
      ∃ item, items[position]? = some item ∧ test item = true ∧ f item = row)
      ((items.filter test).map f) := by
  have each : ∀ item ∈ items, test item = true →
      OnePerSite (fun (_ : Unit) row => f item = row) [f item] := by
    intro item _ _
    have only : ∀ (site : Unit) row, f item = row ↔ site = () ∧ row = f item := by simp [eq_comm]
    exact single only
  rw [← List.flatMap_singleton' (l := (items.filter test).map f), List.flatMap_map]
  apply (flatMap_positions each).rename Prod.fst
  · rintro ⟨position, -⟩ ⟨position', -⟩ rfl
    rfl
  · exact fun site row => Iff.rfl
  · exact fun position row _ => ⟨(position, ()), rfl⟩

end OnePerSite

end

/-- The members of a class that are compared with each other. -/
inductive MemberSort where
  | method
  | field
deriving DecidableEq

namespace MemberSort

def text : MemberSort → String
  | method => "method"
  | field => "field"

def members (c : JavaClass) : MemberSort → List Member
  | method => c.methods
  | field => c.fields

def visible (c : JavaClass) (sort : MemberSort) : List Member :=
  (sort.members c).filter (·.access.visible)

/-- The visible members of a name. -/
def overloads (c : JavaClass) (sort : MemberSort) (name : String) : List Member :=
  (sort.visible c).filter (·.name = name)

end MemberSort

/-- What there is to say of a member of one version of a class that another one lacks. -/
inductive Befalls (sort : MemberSort) (old new : JavaClass) (before : Member) : LayerFinding → Prop where
  | changed {after} : (sort.overloads old before.name).length = 1 →
      sort.overloads new before.name = [after] →
      Befalls sort old new before
        ⟨.error, sort.text ++ " changed", before.signature ++ " -> " ++ after.signature⟩
  | removed : ¬ ((sort.overloads old before.name).length = 1 ∧
        (sort.overloads new before.name).length = 1) →
      Befalls sort old new before ⟨.error, sort.text ++ " removed", before.signature⟩

/-- No visible member of the class has the signature of the member. -/
def Lacks (sort : MemberSort) (new : JavaClass) (before : Member) : Prop :=
  ∀ after ∈ sort.visible new, after.signature ≠ before.signature

/-- The version of a class that stands highest below a release. -/
def Precedes (jar : Jar) (release : Int) (name : String) (old : JavaClass) : Prop :=
  ∃ lower < release, Jar.classAt? jar.layers lower name = some old ∧
    ∀ between, lower < between → between < release → Jar.classAt? jar.layers between name = none

/-- What a finding is about: a class as a whole, or the member at a position of the version before. -/
inductive Change where
  | added
  | member (sort : MemberSort) (position : Nat)
deriving DecidableEq

/-- What there is to say of the version of a class at a release, beside the layers below. -/
inductive Finds (jar : Jar) (release : Int) (name : String) (new : JavaClass) :
    Change → LayerFinding → Prop where
  | added : (∀ lower < release, Jar.classAt? jar.layers lower name = none) →
      Finds jar release name new .added ⟨.warning, "class added", s!"Java {release}"⟩
  | member {sort position old before finding} : Precedes jar release name old →
      (sort.members old)[position]? = some before → before.access.visible = true →
      Lacks sort new before → Befalls sort old new before finding →
      Finds jar release name new (.member sort position) finding

/-- Where a finding is: in which JAR, by position, at which release, and in which class. -/
structure Site where
  jar : Nat
  release : Int
  name : String
  change : Change
deriving DecidableEq

/-- A row is about what there is to say of a class in a layer above the base; a class that describes a
module is passed over. -/
def RowOf (jar : Jar) (release : Int) (name : String) (change : Change) (row : Row) : Prop :=
  ∃ new finding, baseRelease < release ∧ Jar.classAt? jar.layers release name = some new ∧
    name ≠ ClassName.moduleInfo ∧ Finds jar release name new change finding ∧
    row =
      { key := keyOf [jar.displayName, toString release, name, finding.change, finding.detail]
        severity := finding.severity
        cells := some [.string jar.displayName, .int release, .string name, .string finding.change,
          .string finding.detail] }

/-- The row of a site, which is in a multi-release JAR. -/
def Shows (jars : List Jar) (site : Site) (row : Row) : Prop :=
  ∃ jar, jars[site.jar]? = some jar ∧ jar.isMultiRelease = true ∧
    RowOf jar site.release site.name site.change row

/-- Every visible signature of one version is one of another version. -/
def Keeps (old new : JavaClass) : Prop :=
  ∀ sort, ∀ before ∈ MemberSort.visible old sort, ∃ after ∈ MemberSort.visible new sort,
    after.signature = before.signature

/-- The rows of a section are exactly what the layers of the JARs tell. -/
structure Exact (jars : List Jar) (rows : List Row) : Prop where
  once : OnePerSite (Shows jars) rows
  unique : ∀ site row row', Shows jars site row → Shows jars site row' → row = row'
  /-- A class that the base lacks is said to be added at one release. -/
  introduced : ∀ (position : Nat) jar name, jars[position]? = some jar → jar.isMultiRelease = true →
    name ≠ ClassName.moduleInfo → Jar.classAt? jar.layers baseRelease name = none →
    (∃ release new, baseRelease < release ∧ Jar.classAt? jar.layers release name = some new) →
    ∃! release, ∃ row, Shows jars ⟨position, release, name, .added⟩ row
  /-- Wherever there is a version below a layer, there is one that stands highest. -/
  compared : ∀ jar ∈ jars, ∀ name release, baseRelease < release →
    (∃ lower < release, Jar.classAt? jar.layers lower name ≠ none) →
    ∃! old, Precedes jar release name old
  /-- A layer that keeps every visible signature has no rows, whatever it adds. -/
  kept : ∀ (position : Nat) jar name release old new, jars[position]? = some jar →
    Precedes jar release name old → Jar.classAt? jar.layers release name = some new →
    Keeps old new → ∀ change row, ¬ Shows jars ⟨position, release, name, change⟩ row

section

variable {sort : MemberSort} {old new : JavaClass} {before : Member}

theorem Befalls.unique {finding finding' : LayerFinding} (befalls : Befalls sort old new before finding)
    (befalls' : Befalls sort old new before finding') : finding = finding' := by
  cases befalls with
  | changed one one' =>
    cases befalls' with
    | changed _ other =>
      rw [one', List.singleton_inj] at other
      rw [other]
    | removed several => exact absurd ⟨one, by rw [one', List.length_singleton]⟩ several
  | removed several =>
    cases befalls' with
    | changed one one' => exact absurd ⟨one, by rw [one', List.length_singleton]⟩ several
    | removed _ => rfl

/-- What became of a member that the newer version lacks. -/
def changeOf (sort : MemberSort) (old new : JavaClass) (before : Member) : MemberChange :=
  match sort.overloads new before.name, (sort.overloads old before.name).length with
  | [after], 1 => .changed before after
  | _, _ => .removed before

theorem befalls_changeOf :
    Befalls sort old new before (ofMemberChange sort.text (changeOf sort old new before)) := by
  rw [changeOf]
  split
  next after one one' => exact .changed one' one
  next several =>
    apply Befalls.removed
    rintro ⟨one, one'⟩
    obtain ⟨after, only⟩ := List.length_eq_one_iff.mp one'
    exact several after only one

theorem memberChanges_eq (sort : MemberSort) (old new : JavaClass) :
    memberChanges (sort.members old) (sort.members new) =
      ((sort.members old).filter fun before => before.access.visible &&
        !(sort.visible new).any fun after => after.signature = before.signature).map
      (changeOf sort old new) := by
  apply congrArg₂ List.map
  · funext before
    simp only [List.countP_eq_length_filter]
    rfl
  · rw [List.filter_filter]
    exact List.filter_congr fun before _ => Bool.and_comm ..

/-- The changes of members, one for each visible member that is lacking. -/
theorem memberChanges_onePerSite (sort : MemberSort) (old new : JavaClass) :
    OnePerSite (fun (position : Nat) finding => ∃ before, (sort.members old)[position]? = some before ∧
        before.access.visible = true ∧ Lacks sort new before ∧ Befalls sort old new before finding)
      ((memberChanges (sort.members old) (sort.members new)).map (ofMemberChange sort.text)) := by
  rw [memberChanges_eq, List.map_map]
  apply OnePerSite.map_positions.congr
  intro position finding
  apply exists_congr
  intro before
  have told : ofMemberChange sort.text (changeOf sort old new before) = finding ↔
      Befalls sort old new before finding :=
    ⟨fun same => same ▸ befalls_changeOf, fun befalls => befalls_changeOf.unique befalls⟩
  simp [Lacks, told, and_assoc]

example : memberChanges [⟨"open", "()V", .isPublic⟩, ⟨"read", "()V", .isPublic⟩]
      [⟨"read", "()I", .isPublic⟩, ⟨"close", "()V", .isPublic⟩] =
    [.removed ⟨"open", "()V", .isPublic⟩,
      .changed ⟨"read", "()V", .isPublic⟩ ⟨"read", "()I", .isPublic⟩] := by decide

end

section

open Jar

variable {jar : Jar} {release : Int} {name : String} {old new : JavaClass}

theorem countsAt_below (above : baseRelease < release) (lower : Int) :
    countsAt (release - 1) lower = true ↔ lower < release := by
  rw [countsAt, Bool.or_eq_true, decide_eq_true_eq, decide_eq_true_eq]
  omega

theorem effectiveClass?_below (ascending : Ascending jar.layers) (above : baseRelease < release) :
    jar.effectiveClass? name (release - 1) = some old ↔ Precedes jar release name old := by
  simp only [ascending.effectiveClass?_eq_some_iff, countsAt_below above]
  rfl

theorem effectiveClass?_below_none (ascending : Ascending jar.layers)
    (above : baseRelease < release) :
    jar.effectiveClass? name (release - 1) = none ↔
      ∀ lower < release, classAt? jar.layers lower name = none := by
  simp only [ascending.effectiveClass?_eq_none_iff, countsAt_below above]

theorem Precedes.unique (ascending : Ascending jar.layers) (above : baseRelease < release)
    {old' : JavaClass} (precedes : Precedes jar release name old)
    (precedes' : Precedes jar release name old') : old = old' := by
  rw [← effectiveClass?_below ascending above] at precedes precedes'
  exact Option.some.inj (precedes.symm.trans precedes')

theorem not_precedes (silent : ∀ lower < release, classAt? jar.layers lower name = none) :
    ¬ Precedes jar release name old := by
  rintro ⟨lower, below, found, -⟩
  rw [silent lower below] at found
  cases found

/-- The findings on a class, one for each thing that there is to say of it. -/
theorem layerFindings_onePerSite (ascending : Ascending jar.layers)
    (above : baseRelease < release) :
    OnePerSite (Finds jar release new.name new) (layerFindings jar release new) := by
  rw [layerFindings]
  split
  next old shown =>
    have precedes := (effectiveClass?_below ascending above).mp shown
    have sorts : (memberChanges old.methods new.methods).map (ofMemberChange "method") ++
        (memberChanges old.fields new.fields).map (ofMemberChange "field") =
        [MemberSort.method, .field].flatMap fun sort =>
          (memberChanges (sort.members old) (sort.members new)).map (ofMemberChange sort.text) := by
      simp [MemberSort.members, MemberSort.text]
    rw [sorts]
    have apart : ([MemberSort.method, .field].map id).Nodup := by decide
    have each := OnePerSite.flatMap apart fun sort _ => memberChanges_onePerSite sort old new
    apply each.rename fun (sort, position) => Change.member sort position
    · rintro ⟨sort, position⟩ ⟨sort', position'⟩ same
      cases same
      rfl
    · rintro ⟨sort, position⟩ finding
      constructor
      · intro finds
        cases finds with
        | member precedes' here visible lacks befalls =>
          cases precedes.unique ascending above precedes'
          exact ⟨sort, by cases sort <;> simp, rfl, _, here, visible, lacks, befalls⟩
      · rintro ⟨_, _, rfl, before, here, visible, lacks, befalls⟩
        exact .member precedes here visible lacks befalls
    · intro change finding finds
      cases finds with
      | added silent => exact absurd precedes (not_precedes silent)
      | @member sort position => exact ⟨(sort, position), rfl⟩
  next hidden =>
    have silent := (effectiveClass?_below_none ascending above).mp hidden
    rw [if_pos (by rw [base_get?, silent baseRelease above, Option.isNone_none])]
    apply OnePerSite.single
    intro change finding
    constructor
    · intro finds
      cases finds with
      | added => exact ⟨rfl, rfl⟩
      | member precedes => exact absurd precedes (not_precedes silent)
    · rintro ⟨rfl, rfl⟩
      exact .added silent

theorem classAt?_name (finished : jar.Finished) {c : JavaClass}
    (held : classAt? jar.layers release name = some c) : c.name = name := by
  obtain ⟨layer, member, -, found⟩ := (classAt?_eq_some_iff finished.ascending.distinct).mp held
  exact ((finished.keyed layer member).get?_eq_some_iff.mp found).2

theorem mem_layeredClasses (finished : jar.Finished) {c : JavaClass} :
    (release, c) ∈ layeredClasses jar ↔
      baseRelease < release ∧ classAt? jar.layers release c.name = some c := by
  simp only [layeredClasses, List.mem_flatMap, List.mem_filter, List.mem_map, List.mem_filterMap,
    Prod.mk.injEq, decide_eq_true_eq, classAt?_eq_some_iff finished.ascending.distinct]
  constructor
  · rintro ⟨layer, ⟨member, other⟩, _, ⟨name, -, found⟩, rfl, rfl⟩
    have based := finished.ascending.based layer member
    have named := ((finished.keyed layer member).get?_eq_some_iff.mp found).2
    subst named
    exact ⟨by omega, layer, member, rfl, found⟩
  · rintro ⟨above, layer, member, rfl, found⟩
    refine ⟨layer, ⟨member, by omega⟩, c, ⟨c.name, ?_, found⟩, rfl, rfl⟩
    rw [Layer.names, (List.mergeSort_perm _ _).mem_iff]
    exact List.mem_map_of_mem (List.mem_of_find?_eq_some found)

theorem layeredClasses_apart (finished : jar.Finished) :
    ((layeredClasses jar).map fun (release, c) => (release, c.name)).Nodup := by
  have keys : (layeredClasses jar).map (fun (release, c) => (release, c.name)) =
      (jar.layers.filter (·.release ≠ baseRelease)).flatMap fun layer =>
        layer.names.map (layer.release, ·) := by
    rw [layeredClasses, List.map_flatMap]
    apply List.flatMap_congr
    intro layer member
    have keyed := finished.keyed layer (List.mem_of_mem_filter member)
    conv_rhs => rw [← keyed.map_get?_names]
    rw [List.map_map, List.map_map]
    rfl
  rw [keys, List.nodup_flatMap]
  constructor
  · intro layer member
    have keyed := finished.keyed layer (List.mem_of_mem_filter member)
    exact keyed.nodup_names.map (Prod.mk_right_injective _)
  · apply (finished.ascending.distinct.sublist List.filter_sublist).imp
    intro first second other key member member'
    obtain ⟨name, -, rfl⟩ := List.mem_map.mp member
    obtain ⟨name', -, same⟩ := List.mem_map.mp member'
    exact other (congrArg Prod.fst same).symm

/-- The rows on a JAR, one for each thing that there is to say. -/
theorem jarRows_onePerSite (finished : jar.Finished) :
    OnePerSite (fun ((release, name), change) row => RowOf jar release name change row)
      (((layeredClasses jar).filter fun (_, c) => !c.isModuleInfo).flatMap fun (release, c) =>
        (layerFindings jar release c).map (layerRow jar release c.name)) := by
  have apart : (((layeredClasses jar).filter fun (_, c) => !c.isModuleInfo).map
      fun (release, c) => (release, c.name)).Nodup :=
    (layeredClasses_apart finished).sublist (List.filter_sublist.map _)
  have each : ∀ layered ∈ (layeredClasses jar).filter fun (_, c) => !c.isModuleInfo,
      OnePerSite (fun change row => ∃ finding,
        Finds jar layered.1 layered.2.name layered.2 change finding ∧
          row = layerRow jar layered.1 layered.2.name finding)
        ((layerFindings jar layered.1 layered.2).map (layerRow jar layered.1 layered.2.name)) := by
    rintro ⟨release, new⟩ member
    have above := ((mem_layeredClasses finished).mp (List.mem_of_mem_filter member)).1
    exact (layerFindings_onePerSite finished.ascending above).map _
  apply (OnePerSite.flatMap apart each).congr
  rintro ⟨⟨release, name⟩, change⟩ row
  simp only [List.mem_filter, Prod.exists, mem_layeredClasses finished, Prod.mk.injEq]
  constructor
  · rintro ⟨_, new, ⟨⟨above, held⟩, described⟩, ⟨rfl, rfl⟩, finding, finds, rfl⟩
    exact ⟨new, finding, above, held, by simpa [JavaClass.isModuleInfo] using described, finds, rfl⟩
  · rintro ⟨new, finding, above, held, described, finds, rfl⟩
    have named := classAt?_name finished held
    subst named
    exact ⟨release, new, ⟨⟨above, held⟩, by simpa [JavaClass.isModuleInfo] using described⟩,
      ⟨rfl, rfl⟩, finding, finds, rfl⟩

theorem Finds.unique (ascending : Ascending jar.layers) (above : baseRelease < release)
    {change : Change} {finding finding' : LayerFinding}
    (finds : Finds jar release name new change finding)
    (finds' : Finds jar release name new change finding') : finding = finding' := by
  cases finds with
  | added => cases finds'; rfl
  | member precedes here visible lacks befalls =>
    cases finds' with
    | member precedes' here' visible' lacks' befalls' =>
      cases precedes.unique ascending above precedes'
      cases here.symm.trans here'
      exact befalls.unique befalls'

theorem RowOf.unique (ascending : Ascending jar.layers) {change : Change} {row row' : Row}
    (told : RowOf jar release name change row) (told' : RowOf jar release name change row') :
    row = row' := by
  obtain ⟨new, finding, above, held, -, finds, rfl⟩ := told
  obtain ⟨new', finding', -, held', -, finds', rfl⟩ := told'
  cases held.symm.trans held'
  rw [finds.unique ascending above finds']

/-- A version that keeps every visible signature has no rows. -/
theorem RowOf.not_keeps (ascending : Ascending jar.layers) {change : Change} {row : Row}
    (told : RowOf jar release name change row) (precedes : Precedes jar release name old)
    (held : classAt? jar.layers release name = some new) : ¬ Keeps old new := by
  intro keeps
  obtain ⟨new', finding, above, held', -, finds, -⟩ := told
  cases held.symm.trans held'
  cases finds with
  | added silent => exact not_precedes silent precedes
  | @member sort position old' before _ precedes' here visible lacks =>
    cases precedes.unique ascending above precedes'
    have shown : before ∈ sort.visible old :=
      List.mem_filter.mpr ⟨List.mem_of_getElem? here, visible⟩
    obtain ⟨after, there, same⟩ := keeps sort before shown
    exact lacks after there same

theorem exists_precedes (ascending : Ascending jar.layers) (above : baseRelease < release)
    (below : ∃ lower < release, classAt? jar.layers lower name ≠ none) :
    ∃! old, Precedes jar release name old := by
  cases shown : jar.effectiveClass? name (release - 1) with
  | none =>
    obtain ⟨lower, under, held⟩ := below
    exact absurd ((effectiveClass?_below_none ascending above).mp shown lower under) held
  | some old =>
    have precedes := (effectiveClass?_below ascending above).mp shown
    exact ⟨old, precedes, fun old' precedes' => precedes'.unique ascending above precedes⟩

/-- Of the layers that hold a class, one is lowest. -/
theorem exists_lowest (ascending : Ascending jar.layers)
    (held : classAt? jar.layers release name = some new) :
    ∃ lowest first, classAt? jar.layers lowest name = some first ∧
      ∀ lower < lowest, classAt? jar.layers lower name = none := by
  obtain ⟨layer, member, -, found⟩ := (classAt?_eq_some_iff ascending.distinct).mp held
  have present : (jar.layers.find? fun layer => (layer.get? name).isSome).isSome = true := by
    rw [List.find?_isSome]
    exact ⟨layer, member, by rw [found, Option.isSome_some]⟩
  obtain ⟨lowest, search⟩ := Option.isSome_iff_exists.mp present
  obtain ⟨here, before, after, split, silent⟩ := List.find?_eq_some_iff_append.mp search
  obtain ⟨first, found'⟩ := Option.isSome_iff_exists.mp here
  refine ⟨lowest.release, first, ?_, ?_⟩
  · rw [classAt?_eq_some_iff ascending.distinct]
    exact ⟨lowest, by rw [split]; simp, rfl, found'⟩
  · intro lower below
    rw [classAt?_eq_none_iff ascending.distinct]
    rintro other member rfl
    have order := ascending.ascending
    rw [split, List.pairwise_append, List.pairwise_cons] at order
    rw [split, List.mem_append, List.mem_cons] at member
    rcases member with earlier | rfl | later
    · simpa using silent other earlier
    · exact absurd below (Int.lt_irrefl _)
    · exact absurd (order.2.1.1 other later) (Int.lt_asymm below)

end

section

variable {jars : List Jar}

theorem rows_onePerSite (finished : ∀ jar ∈ jars, jar.Finished) :
    OnePerSite (Shows jars) ((jars.filter Jar.isMultiRelease).flatMap fun jar =>
      ((layeredClasses jar).filter fun (_, c) => !c.isModuleInfo).flatMap fun (release, c) =>
        (layerFindings jar release c).map (layerRow jar release c.name)) := by
  have each := OnePerSite.flatMap_positions fun jar member (_ : jar.isMultiRelease = true) =>
    jarRows_onePerSite (finished jar member)
  apply each.rename fun (jar, (release, name), change) => Site.mk jar release name change
  · rintro ⟨jar, ⟨release, name⟩, change⟩ ⟨jar', ⟨release', name'⟩, change'⟩ same
    cases same
    rfl
  · exact fun site row => Iff.rfl
  · exact fun site row _ => ⟨(site.jar, (site.release, site.name), site.change), rfl⟩

/-- A class that the base lacks is added where it stands lowest. -/
theorem exists_added {position : Nat} {jar : Jar} {name : String} (finished : jar.Finished)
    (here : jars[position]? = some jar) (multi : jar.isMultiRelease = true)
    (described : name ≠ ClassName.moduleInfo)
    (lacking : Jar.classAt? jar.layers baseRelease name = none)
    (held : ∃ release new, baseRelease < release ∧ Jar.classAt? jar.layers release name = some new) :
    ∃! release, ∃ row, Shows jars ⟨position, release, name, .added⟩ row := by
  obtain ⟨_, _, -, held⟩ := held
  obtain ⟨lowest, first, held, silent⟩ := exists_lowest finished.ascending held
  have above : baseRelease < lowest := by
    obtain ⟨layer, member, rfl, -⟩ :=
      (Jar.classAt?_eq_some_iff finished.ascending.distinct).mp held
    apply lt_of_le_of_ne (finished.ascending.based layer member)
    intro base
    rw [← base, lacking] at held
    cases held
  refine ⟨lowest, ⟨_, jar, here, multi, first, _, above, held, described, .added silent, rfl⟩, ?_⟩
  rintro other ⟨row, jar', here', -, new, finding, -, held', -, finds, -⟩
  cases here.symm.trans here'
  cases finds with
  | added silent' =>
    rcases Int.lt_trichotomy other lowest with below | same | beyond
    · rw [silent other below] at held'
      cases held'
    · exact same
    · rw [silent' lowest beyond] at held
      cases held

end

/-- The section on the release layers of finished records is exact: wherever a layer above the base holds
a class, its rows are what sets it apart from the version that stands highest below. -/
theorem multiRelease_exact (jars : List Jar) (finished : ∀ jar ∈ jars, jar.Finished) (release : Int)
    (boundary : Option PlatformList) :
    ∃ s, multiRelease.run false (.build (.new jars release) boundary) = .ok s ∧
      Exact jars s.findings := by
  have given : ∀ rows : List Row, (rows.map some).filterMap (fun row => row) = rows := by
    simp [List.filterMap_map]
  refine ⟨_, rfl, ?_, ?_, ?_, ?_, ?_⟩
  · rw [Section.findings, Option.getD_some, given]
    exact rows_onePerSite finished
  · rintro site row row' ⟨jar, here, -, told⟩ ⟨jar', here', -, told'⟩
    cases here.symm.trans here'
    exact told.unique (finished jar (List.mem_of_getElem? here)).ascending told'
  · intro position jar name here
    exact exists_added (finished jar (List.mem_of_getElem? here)) here
  · intro jar member name release
    exact exists_precedes (finished jar member).ascending
  · rintro position jar name release old new here precedes held keeps change row ⟨jar', here', -, told⟩
    cases here.symm.trans here'
    exact told.not_keeps (finished jar (List.mem_of_getElem? here)).ascending precedes held keeps

/-- A public class of the given name and methods, and nothing else. -/
def published (name : String) (methods : List Member) : JavaClass where
  name
  major := 52
  minor := 0
  access := .isPublic
  superName := ClassName.object
  interfaces := []
  methods
  fields := []
  annotations := []
  references := []
  memberRefs := []
  hash := 0
  size := 0
  degraded := false

/-- A reader in three layers, each of which lacks a method of the one below, and a cache in two. -/
def reader : Jar :=
  (LayerCall.runAll { origin := "reader.jar", manifest := [("Multi-Release", "true")] }
    [.add 8 (published "app.Reader" [⟨"open", "()V", .isPublic⟩, ⟨"read", "()V", .isPublic⟩]),
      .add 17 (published "app.Cache" []), .add 17 (published "app.Reader" []),
      .add 11 (published "app.Cache" []),
      .add 11 (published "app.Reader" [⟨"read", "()I", .isPublic⟩])]).init

theorem multiRelease_exact_reader : (∀ jar ∈ [reader], jar.Finished) ∧
    ∃ s, multiRelease.run false (.build (.new [reader] 17) none) = .ok s ∧
      Exact [reader] s.findings := by
  have finished : ∀ jar ∈ [reader], jar.Finished :=
    List.forall_mem_singleton.mpr LayerCall.runAll_finished
  exact ⟨finished, multiRelease_exact [reader] finished 17 none⟩

end ClasspathAudit.Analysis
