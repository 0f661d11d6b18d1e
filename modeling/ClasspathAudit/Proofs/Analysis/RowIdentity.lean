import ClasspathAudit.Proofs.Analysis.RowKeys
import ClasspathAudit.Proofs.Answers
import ClasspathAudit.Proofs.Graph.Ancestry

/-!
What a row of a report stands for. Sections of a report come from different analyses, and in those whose
keys identify findings a difference of two reports never pairs rows that are about different things,
whatever was filtered on either side.
-/

namespace ClasspathAudit

namespace Section

theorem name_atLeast (s : Section) (threshold : Severity) : (s.atLeast threshold).name = s.name := by
  rw [atLeast]
  split <;> rfl

theorem findings_atLeast (s : Section) (threshold : Severity) :
    (s.atLeast threshold).findings.Sublist s.findings := by
  rw [atLeast]
  split
  · exact .refl _
  · simp only [findings]
    cases s.rows with
    | none => exact .slnil
    | some rows => exact List.filter_sublist.filterMap _

end Section

namespace Analysis

/-- The analyses whose keys identify findings, with the columns that say what a finding is about. -/
def identified : List (Analysis × List Nat) :=
  [(jarFiles, [0]), (classVersions, [0]), (duplicateClasses, [0]), (duplicateResources, [0]),
    (platformShadowed, [0]), (unresolvedDependencies, [0, 1, 2]), (ambiguousDependencies, [0]),
    (missingMembers, [0, 1, 3]), (classHierarchy, [0, 1]), (splitPackages, [0]), (packages, [0]),
    (jarDependencies, [0]), (artifactVersions, [0]), (jarManifests, [0])]

theorem tells_identified : ∀ entry ∈ identified, ∃ read, Tells entry.1 entry.2 read := by
  simp only [identified, List.forall_mem_cons]
  exact ⟨⟨_, tells_jarFiles⟩, ⟨_, tells_classVersions⟩, ⟨_, tells_duplicateClasses⟩,
    ⟨_, tells_duplicateResources⟩, ⟨_, tells_platformShadowed⟩, ⟨_, tells_unresolvedDependencies⟩,
    ⟨_, tells_ambiguousDependencies⟩, ⟨_, tells_missingMembers⟩, ⟨_, tells_classHierarchy⟩,
    ⟨_, tells_splitPackages⟩, ⟨_, tells_packages⟩, ⟨_, tells_jarDependencies⟩,
    ⟨_, tells_artifactVersions⟩, ⟨_, tells_jarManifests⟩, fun _ none => nomatch none⟩

theorem identified_registered : ∀ entry ∈ identified, entry.1 ∈ registry := by
  simp [identified, registry]

theorem nodup_names : (registry.map Analysis.name).Nodup := by decide

theorem Told.sublist {columns : List Nat} {read : String → List Cell} {rows kept : List Row}
    (told : Told columns read rows) (within : kept.Sublist rows) : Told columns read kept :=
  ⟨told.keyed.sublist within, fun row member => told.cells row (within.subset member)⟩

section

variable {g : Graph} {a : Analysis} {s : Section} {r : Report}

theorem run_eq_ok (ran : a.run false g = .ok s) :
    s.name = a.name ∧ a.rows g = .ok s.findings := by
  obtain ⟨rows, found, rfl⟩ := map_eq_ok ran
  refine ⟨rfl, ?_⟩
  rw [found]
  simp [Section.findings, List.filterMap_map]

theorem enabled_sublist {analyses chosen : List Analysis} {settings : Option AnalysisSettings}
    (chose : enabled analyses settings = .ok chosen) : chosen.Sublist analyses := by
  cases settings with
  | none =>
    cases chose
    exact .refl _
  | some settings =>
    rw [enabled] at chose
    split at chose
    · cases chose
    · cases chose
      exact List.filter_sublist

theorem runAll_eq_ok {chosen : List Analysis} {sections : List Section}
    (ran : runAll g chosen = .ok sections) :
    sections.map Section.name = chosen.map Analysis.name ∧
      ∀ s ∈ sections, ∃ a ∈ chosen, a.run false g = .ok s := by
  induction chosen generalizing sections with
  | nil =>
    cases ran
    exact ⟨rfl, fun _ none => nomatch none⟩
  | cons a rest ih =>
    rw [runAll] at ran
    split at ran
    · cases ran
    next found first =>
      obtain ⟨sections, others, rfl⟩ := map_eq_ok ran
      obtain ⟨names, each⟩ := ih others
      refine ⟨by rw [List.map_cons, List.map_cons, names, (run_eq_ok first).1], ?_⟩
      rw [List.forall_mem_cons]
      refine ⟨⟨a, List.mem_cons_self, first⟩, fun s member => ?_⟩
      obtain ⟨b, inside, ran⟩ := each s member
      exact ⟨b, List.mem_cons_of_mem a inside, ran⟩

/-- The sections of a report are those of some analyses, with some of the rows of each. -/
theorem report_eq_ok {analyses : List Analysis} {settings : Option AnalysisSettings}
    {heading : Heading} {cancelled : Bool}
    (made : report analyses settings heading cancelled g = .ok r) :
    (r.sectionList.map Section.name).Sublist (analyses.map Analysis.name) ∧
      ∀ s ∈ r.sectionList, ∃ a ∈ analyses, s.name = a.name ∧
        ∃ rows, a.rows g = .ok rows ∧ s.findings.Sublist rows := by
  obtain ⟨chosen, chose, made⟩ := bind_eq_ok made
  cases cancelled with
  | true => cases made
  | false =>
    obtain ⟨sections, ran, made⟩ := bind_eq_ok made
    cases made
    obtain ⟨names, each⟩ := runAll_eq_ok ran
    have within := enabled_sublist chose
    simp only [Report.sectionList, Option.getD_some, List.filterMap_map, List.filterMap_eq_map',
      Function.comp_def, List.map_map, Section.name_atLeast, List.forall_mem_map]
    refine ⟨names ▸ within.map _, fun s member => ?_⟩
    obtain ⟨a, inside, ran⟩ := each s member
    obtain ⟨named, rows⟩ := run_eq_ok ran
    exact ⟨a, within.subset inside, named, s.findings, rows, Section.findings_atLeast ..⟩

end

section

variable {jars : List Jar} {release : Int} {boundary : Option PlatformList}
variable {settings : Option AnalysisSettings} {heading : Heading} {r : Report}

theorem distinctSections_report {g : Graph} (made : report registry settings heading false g = .ok r) :
    r.DistinctSections :=
  (report_eq_ok made).1.nodup nodup_names

/-- The sections of a report that are named for an identified analysis have rows told by their keys. -/
theorem told_section {entry : Analysis × List Nat} (listed : entry ∈ identified)
    {read : String → List Cell} (tells : Tells entry.1 entry.2 read)
    (legible : (Classpath.new jars release).Legible)
    (made : report registry settings heading false (.build (.new jars release) boundary) = .ok r) :
    ∀ s ∈ r.sectionList, s.name = entry.1.name → Told entry.2 read s.findings := by
  intro s member named
  obtain ⟨a, inside, same, rows, found, within⟩ := (report_eq_ok made).2 s member
  obtain rfl : a = entry.1 := List.inj_on_of_nodup_map nodup_names inside
    (identified_registered entry listed) (same.symm.trans named)
  obtain ⟨rows', found', told⟩ := tells jars release boundary legible
  obtain rfl := Except.ok.inj (found.symm.trans found')
  exact told.sublist within

end

/-- In the sections of a name, two reports have each key once, and their difference pairs rows of one
key, which agree on what they are about; a row has one partner at most. -/
structure Identifies (old new : Report) (name : String) (columns : List Nat) : Prop where
  oldKeyed : ∀ s ∈ old.sectionList, s.name = name → Row.Keyed s.findings
  newKeyed : ∀ s ∈ new.sectionList, s.name = name → Row.Keyed s.findings
  pairs : ∀ o n, (DiffReport.between old new).Pairs name o n ↔
    old.Lists name o ∧ new.Lists name n ∧ o.key = n.key
  about : ∀ o n, (DiffReport.between old new).Pairs name o n →
    columns.map o.cell = columns.map n.cell
  single : ∀ o n o' n', (DiffReport.between old new).Pairs name o n →
    (DiffReport.between old new).Pairs name o' n' → (o = o' ↔ n = n')

/-- Keys identify findings: in each of the sections that `identified` names, all rows have keys and no two
the same, and a difference of two reports pairs a row with the one of the same key only. -/
theorem keys_identify (jars jars' : List Jar) (release release' : Int)
    (boundary boundary' : Option PlatformList) (legible : (Classpath.new jars release).Legible)
    (legible' : (Classpath.new jars' release').Legible) :
    ∀ entry ∈ identified,
      (∃ s, entry.1.run false (.build (.new jars release) boundary) = .ok s ∧
        s.name = entry.1.name ∧ Row.Keyed s.findings) ∧
      ∀ settings settings' heading heading' old new,
        report registry settings heading false (.build (.new jars release) boundary) = .ok old →
        report registry settings' heading' false (.build (.new jars' release') boundary') = .ok new →
        Identifies old new entry.1.name entry.2 := by
  intro entry listed
  obtain ⟨read, tells⟩ := tells_identified entry listed
  constructor
  · obtain ⟨rows, found, told⟩ := tells jars release boundary legible
    obtain ⟨s, ran⟩ : ∃ s, entry.1.run false (.build (.new jars release) boundary) = .ok s := by
      rw [run, found]
      exact ⟨_, rfl⟩
    obtain ⟨named, rows'⟩ := run_eq_ok ran
    obtain rfl := Except.ok.inj (found.symm.trans rows')
    exact ⟨s, ran, named, told.keyed⟩
  · intro settings settings' heading heading' old new made made'
    have told := told_section listed tells legible made
    have told' := told_section listed tells legible' made'
    have keyed := fun s member named => (told s member named).keyed
    have keyed' := fun s member named => (told' s member named).keyed
    have pairs := fun o n => DiffReport.pairs_between (o := o) (n := n)
      (distinctSections_report made) keyed keyed'
    refine ⟨keyed, keyed', pairs, ?_, ?_⟩
    · intro o n paired
      obtain ⟨⟨s, member, named, inside⟩, ⟨t, member', named', inside'⟩, same⟩ :=
        (pairs o n).mp paired
      rw [(told s member named).cells o inside, same, (told' t member' named').cells n inside']
    · intro o n o' n' paired paired'
      obtain ⟨inOld, inNew, same⟩ := (pairs o n).mp paired
      obtain ⟨inOld', inNew', same'⟩ := (pairs o' n').mp paired'
      constructor
      · rintro rfl
        exact inNew.unique (distinctSections_report made') keyed' inNew' (same.symm.trans same')
      · rintro rfl
        exact inOld.unique (distinctSections_report made) keyed inOld' (same.trans same'.symm)

/-- JARs of one class each. -/
def stocked (held : List (String × JavaClass)) : List Jar :=
  held.map fun (origin, c) => { Graph.bundle [c] with origin }

theorem effective_stocked (held : List (String × JavaClass)) :
    (stocked held).map (·.effective baseRelease) = held.map fun (_, c) => [c] := by
  rw [stocked, List.map_map]
  exact List.map_congr_left fun (_, c) _ => Graph.effective_bundle_single c

theorem forall_stocked {held : List (String × JavaClass)} {said : JavaClass → Prop}
    (each : ∀ entry ∈ held, said entry.2) :
    ∀ jar ∈ stocked held, ∀ c ∈ jar.effective baseRelease, said c := by
  intro jar member
  obtain ⟨⟨origin, c⟩, listed, rfl⟩ := List.mem_map.mp member
  have shown := Graph.effective_bundle_single c
  exact fun c' inside => List.mem_singleton.mp (shown ▸ inside) ▸ each _ listed

/-- A JAR whose class mentions one that nothing provides, and one that the second JAR has. -/
def tills : List (String × JavaClass) :=
  [("till.jar", { Classpath.stampedClass "till.Drawer" 1 with
      references := ["coin.Penny", "coin.Purse"] }),
    ("coin.jar", Classpath.stampedClass "coin.Penny" 2)]

theorem keys_identify_tills :
    (Classpath.new (stocked tills) baseRelease).Legible ∧
      (Classpath.new (stocked (tills.take 1)) baseRelease).Legible ∧
      ∃ heading old new,
        report registry none heading false (.build (.new (stocked tills) baseRelease) none) = .ok old ∧
        report registry none heading false (.build (.new (stocked (tills.take 1)) baseRelease) none) =
          .ok new ∧
        Identifies old new "unresolved_dependencies" [0, 1, 2] ∧
        ∃ o n, (DiffReport.between old new).Pairs "unresolved_dependencies" o n ∧
          o.key = "till.jar|till.Drawer|coin.Purse" := by
  have legible : (Classpath.new (stocked tills) baseRelease).Legible :=
    ⟨by decide +kernel, by decide +kernel, by decide +kernel, forall_stocked (by decide +kernel),
      forall_stocked (by decide +kernel), forall_stocked (by decide +kernel)⟩
  have legible' : (Classpath.new (stocked (tills.take 1)) baseRelease).Legible :=
    ⟨by decide +kernel, by decide +kernel, by decide +kernel, forall_stocked (by decide +kernel),
      forall_stocked (by decide +kernel), forall_stocked (by decide +kernel)⟩
  have identifies := (keys_identify (stocked tills) (stocked (tills.take 1)) baseRelease baseRelease
    none none legible legible' (unresolvedDependencies, [0, 1, 2]) (by simp [identified])).2 none none
    { id := "run", generatedAt := ⟨0, 0, 0⟩ } { id := "run", generatedAt := ⟨0, 0, 0⟩ } _ _ rfl rfl
  refine ⟨legible, legible', _, _, _, rfl, rfl, identifies, ?_⟩
  let gone := row .error "till.jar|till.Drawer|coin.Purse"
    [.string "till.jar", .string "till.Drawer", .string "coin.Purse"]
  refine ⟨gone, gone, (identifies.pairs gone gone).mpr ⟨?_, ?_, rfl⟩, rfl⟩
  · rw [Graph.new_eq_showing (effective_stocked tills), Report.Lists]
    decide +kernel
  · rw [Graph.new_eq_showing (effective_stocked (tills.take 1)), Report.Lists]
    decide +kernel

end Analysis

end ClasspathAudit
