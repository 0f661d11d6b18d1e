import ClasspathAudit.Proofs.Graph.Ancestry

/-!
The search for a name among the supertypes of a class. It enters the classes of a name once only, and all
branches share the names that were visited; still it ends in every hierarchy, and it finds the name exactly
if a class above lists it.
-/

namespace ClasspathAudit.Graph

/-- The classes that a record sees above a class, the class itself among them. -/
inductive Above (g : Graph) (source : Option JarRef) (c : JavaClass) : JavaClass → Prop where
  | self : Above g source c c
  | parent {d e : JavaClass} {name : String} (reached : Above g source c d)
      (listed : name ∈ d.parents) (stands : g.classOf? source name = some e) : Above g source c e

/-- The class, or a class above it, has a supertype of the name. -/
def Inherits (g : Graph) (source : Option JarRef) (c : JavaClass) (target : String) : Prop :=
  ∃ d, Above g source c d ∧ target ∈ d.parents

section

variable {g : Graph} {source : Option JarRef} {target : String}

theorem Above.trans {c d e : JavaClass} (first : Above g source c d) (second : Above g source d e) :
    Above g source c e := by
  induction second with
  | self => exact first
  | parent _ listed stands ih => exact .parent ih listed stands

/-- What is above a parent is above the class. -/
theorem Above.lift {c d e : JavaClass} (start : d ∈ c.parents.filterMap (g.classOf? source))
    (above : Above g source d e) : Above g source c e := by
  obtain ⟨name, listed, stands⟩ := List.mem_filterMap.mp start
  exact (Above.parent .self listed stands).trans above

/-- The runs of the search through classes one after the other, from the names that were visited before:
its answer, and the names visited by then. No bound is set on how deep a run goes. -/
inductive Searches (g : Graph) (source : Option JarRef) (target : String) :
    List JavaClass → List String → Bool × List String → Prop where
  | done {visited : List String} : Searches g source target [] visited (false, visited)
  | known {c : JavaClass} {cs : List JavaClass} {visited : List String}
      {result : Bool × List String} (before : c.name ∈ visited)
      (rest : Searches g source target cs visited result) :
      Searches g source target (c :: cs) visited result
  | direct {c : JavaClass} {cs : List JavaClass} {visited : List String}
      (fresh : c.name ∉ visited) (lists : target ∈ c.parents) :
      Searches g source target (c :: cs) visited (true, c.name :: visited)
  | found {c : JavaClass} {cs : List JavaClass} {visited after : List String}
      (fresh : c.name ∉ visited) (unlisted : target ∉ c.parents)
      (parents : Searches g source target (c.parents.filterMap (g.classOf? source))
        (c.name :: visited) (true, after)) :
      Searches g source target (c :: cs) visited (true, after)
  | missed {c : JavaClass} {cs : List JavaClass} {visited middle : List String}
      {result : Bool × List String} (fresh : c.name ∉ visited) (unlisted : target ∉ c.parents)
      (parents : Searches g source target (c.parents.filterMap (g.classOf? source))
        (c.name :: visited) (false, middle))
      (rest : Searches g source target cs middle result) :
      Searches g source target (c :: cs) visited result

section

variable {cs : List JavaClass} {visited : List String} {result : Bool × List String}

theorem Searches.grows (run : Searches g source target cs visited result) : visited ⊆ result.2 := by
  induction run with
  | done => exact List.Subset.refl _
  | known _ _ ih => exact ih
  | direct => exact List.subset_cons_self _ _
  | found _ _ _ ih => exact List.Subset.trans (List.subset_cons_self _ _) ih
  | missed _ _ _ _ climbed ih =>
    exact List.Subset.trans (List.subset_cons_self _ _) (List.Subset.trans climbed ih)

/-- A search has one run only. -/
theorem Searches.unique {result' : Bool × List String}
    (run : Searches g source target cs visited result)
    (run' : Searches g source target cs visited result') : result = result' := by
  induction run generalizing result' with
  | done =>
    cases run'
    rfl
  | known before _ ih =>
    cases run' with
    | known _ rest => exact ih rest
    | direct fresh | found fresh | missed fresh => exact absurd before fresh
  | direct fresh lists =>
    cases run' with
    | known before => exact absurd before fresh
    | direct => rfl
    | found _ unlisted | missed _ unlisted => exact absurd lists unlisted
  | found fresh unlisted _ ih =>
    cases run' with
    | known before => exact absurd before fresh
    | direct _ lists => exact absurd lists unlisted
    | found _ _ parents => exact ih parents
    | missed _ _ parents => cases ih parents
  | missed fresh unlisted _ _ climbed ih =>
    cases run' with
    | known before => exact absurd before fresh
    | direct _ lists => exact absurd lists unlisted
    | found _ _ parents => cases climbed parents
    | missed _ _ parents rest =>
      cases climbed parents
      exact ih rest

/-- The search of one class that does not list the name is that of its parents. -/
theorem Searches.through {c : JavaClass} (fresh : c.name ∉ visited) (unlisted : target ∉ c.parents)
    (parents : Searches g source target (c.parents.filterMap (g.classOf? source))
      (c.name :: visited) result) : Searches g source target [c] visited result := by
  obtain ⟨answer, after⟩ := result
  cases answer with
  | true => exact .found fresh unlisted parents
  | false => exact .missed fresh unlisted parents .done

/-- A search that found the name does not go on to further classes. -/
theorem Searches.append_found {later : List JavaClass}
    (run : Searches g source target cs visited result) (found : result.1 = true) :
    Searches g source target (cs ++ later) visited result := by
  induction run with
  | done => cases found
  | known before _ ih => exact .known before (ih found)
  | direct fresh lists => exact .direct fresh lists
  | found fresh unlisted parents => exact .found fresh unlisted parents
  | missed fresh unlisted parents _ _ ih => exact .missed fresh unlisted parents (ih found)

/-- A search that did not find the name goes on with the names that it has visited. -/
theorem Searches.append_missed {later : List JavaClass} {result' : Bool × List String}
    (run : Searches g source target cs visited result) (missed : result.1 = false)
    (next : Searches g source target later result.2 result') :
    Searches g source target (cs ++ later) visited result' := by
  induction run with
  | done => exact next
  | known before _ ih => exact .known before (ih missed next)
  | direct => cases missed
  | found => cases missed
  | missed fresh unlisted parents _ _ ih => exact .missed fresh unlisted parents (ih missed next)

end

/-- One round of a search through several parents: once the name is found, nothing more is entered. -/
def climb (g : Graph) (source : Option JarRef)
    (enter : JavaClass → List String → Bool × List String) (reached : Bool × List String)
    (parent : String) : Bool × List String :=
  if reached.1 then reached
  else match g.classOf? source parent with
    | some c => enter c reached.2
    | none => reached

theorem searchAncestors_succ (fuel : Nat) (c : JavaClass) (visited : List String) :
    searchAncestors g source target (fuel + 1) c visited =
      if c.name ∈ visited then (false, visited)
      else if target ∈ c.parents then (true, c.name :: visited)
      else c.parents.foldl (climb g source (searchAncestors g source target fuel))
        (false, c.name :: visited) := by
  simp only [searchAncestors, List.contains_iff_mem]
  rfl

/-- What a search that did not find the name has added to the visited names: each new one names a class
above one of those it started from, which does not list the name and whose parents were visited too. -/
structure Climbed (g : Graph) (source : Option JarRef) (target : String) (starts : List JavaClass)
    (before after : List String) : Prop where
  grows : before ⊆ after
  covers : ∀ c ∈ starts, c.name ∈ after
  settled : ∀ name ∈ after, name ∉ before → ∃ c ∈ starts, ∃ d, Above g source c d ∧
    d.name = name ∧ target ∉ d.parents ∧
    ∀ parent ∈ d.parents, ∀ e, g.classOf? source parent = some e → e.name ∈ after

theorem Climbed.still {starts : List JavaClass} {visited : List String}
    (known : ∀ c ∈ starts, c.name ∈ visited) : Climbed g source target starts visited visited :=
  ⟨List.Subset.refl _, known, fun _ member fresh => absurd member fresh⟩

theorem Climbed.append {starts starts' : List JavaClass} {before middle after : List String}
    (first : Climbed g source target starts before middle)
    (second : Climbed g source target starts' middle after) :
    Climbed g source target (starts ++ starts') before after where
  grows := List.Subset.trans first.grows second.grows
  covers := List.forall_mem_append.mpr
    ⟨fun c member => second.grows (first.covers c member), second.covers⟩
  settled name member fresh := by
    by_cases early : name ∈ middle
    · obtain ⟨c, start, d, above, named, unlisted, closed⟩ := first.settled name early fresh
      exact ⟨c, List.mem_append_left _ start, d, above, named, unlisted,
        fun parent listed e stands => second.grows (closed parent listed e stands)⟩
    · obtain ⟨c, start, rest⟩ := second.settled name member early
      exact ⟨c, List.mem_append_right _ start, rest⟩

/-- A class is climbed past once its parents are. -/
theorem Climbed.enter {c : JavaClass} {before after : List String} (unlisted : target ∉ c.parents)
    (climbed : Climbed g source target (c.parents.filterMap (g.classOf? source))
      (c.name :: before) after) : Climbed g source target [c] before after where
  grows := List.Subset.trans (List.subset_cons_self _ _) climbed.grows
  covers := List.forall_mem_singleton.mpr (climbed.grows List.mem_cons_self)
  settled name member fresh := by
    refine ⟨c, List.mem_singleton_self c, ?_⟩
    by_cases same : name = c.name
    · exact ⟨c, .self, same.symm, unlisted, fun parent inside e stands =>
        climbed.covers e (List.mem_filterMap.mpr ⟨parent, inside, stands⟩)⟩
    · obtain ⟨d, start, e, above, rest⟩ := climbed.settled name member (by simp [same, fresh])
      exact ⟨e, above.lift start, rest⟩

/-- A search from several classes found the name above one of them, or has climbed to the top. -/
def Climb (g : Graph) (source : Option JarRef) (target : String) (starts : List JavaClass)
    (before : List String) (result : Bool × List String) : Prop :=
  (result.1 = true ∧ ∃ c ∈ starts, Inherits g source c target) ∨
    (result.1 = false ∧ Climbed g source target starts before result.2)

/-- A run finds the name only if it is there, and has climbed to the top if it does not find it. -/
theorem Searches.climb {cs : List JavaClass} {visited : List String} {result : Bool × List String}
    (run : Searches g source target cs visited result) : Climb g source target cs visited result := by
  induction run with
  | done => exact .inr ⟨rfl, Climbed.still (List.forall_mem_nil _)⟩
  | @known c _ _ _ before _ ih =>
    rcases ih with ⟨found, d, start, inherits⟩ | ⟨missed, rest⟩
    · exact .inl ⟨found, d, List.mem_cons_of_mem c start, inherits⟩
    · have here : Climbed g source target [c] _ _ :=
        Climbed.still (List.forall_mem_singleton.mpr before)
      exact .inr ⟨missed, here.append rest⟩
  | @direct c _ _ _ lists => exact .inl ⟨rfl, c, List.mem_cons_self, c, .self, lists⟩
  | @found c _ _ _ _ _ _ ih =>
    rcases ih with ⟨_, d, start, e, above, lists⟩ | ⟨missed, _⟩
    · exact .inl ⟨rfl, c, List.mem_cons_self, e, above.lift start, lists⟩
    · cases missed
  | @missed c _ _ _ _ _ unlisted _ _ climbed ih =>
    rcases climbed with ⟨found, _⟩ | ⟨_, climbed⟩
    · cases found
    rcases ih with ⟨found, d, start, inherits⟩ | ⟨missed, rest⟩
    · exact .inl ⟨found, d, List.mem_cons_of_mem c start, inherits⟩
    · exact .inr ⟨missed, (climbed.enter unlisted).append rest⟩

theorem foldl_climb_found {enter : JavaClass → List String → Bool × List String}
    {visited : List String} (parents : List String) :
    parents.foldl (climb g source enter) (true, visited) = (true, visited) := by
  induction parents with
  | nil => rfl
  | cons parent parents ih => exact ih

/-- The loop over the parents, from what the search of each one does. -/
theorem foldl_climb_searches {enter : JavaClass → List String → Bool × List String}
    {parents : List String} {visited : List String}
    (entering : ∀ parent ∈ parents, ∀ c, g.classOf? source parent = some c →
      ∀ visited', visited ⊆ visited' → Searches g source target [c] visited' (enter c visited')) :
    Searches g source target (parents.filterMap (g.classOf? source)) visited
      (parents.foldl (climb g source enter) (false, visited)) := by
  induction parents generalizing visited with
  | nil => exact .done
  | cons parent parents ih =>
    have later := fun other inside => entering other (List.mem_cons_of_mem parent inside)
    rw [List.foldl_cons]
    cases stands : g.classOf? source parent with
    | none =>
      have stays : climb g source enter (false, visited) parent = (false, visited) := by
        simp [climb, stands]
      rw [stays, List.filterMap_cons_none stands]
      exact ih later
    | some c =>
      have enters : climb g source enter (false, visited) parent = enter c visited := by
        simp [climb, stands]
      have run := entering parent List.mem_cons_self c stands visited (List.Subset.refl _)
      rw [enters, List.filterMap_cons_some stands]
      cases answer : (enter c visited).1 with
      | true =>
        have ends : enter c visited = (true, (enter c visited).2) := Prod.ext answer rfl
        rw [ends, foldl_climb_found, ← ends]
        exact run.append_found answer
      | false =>
        have goesOn : enter c visited = (false, (enter c visited).2) := Prod.ext answer rfl
        rw [goesOn]
        exact run.append_missed answer (ih fun other inside c' stands' visited' grown =>
          later other inside c' stands' visited' (List.Subset.trans run.grows grown))

end

section

variable {g : Graph} {position : Nat} {target : String}

/-- A class that a JAR sees under a name has that name, and the name is on the classpath. -/
theorem classOf?_listed (grounded : Grounded g) {name : String} {c : JavaClass}
    (stands : g.classOf? (some (.listed position)) name = some c) :
    c.name = name ∧ name ∈ g.classpath.classNames := by
  obtain ⟨provider, provided, shown⟩ := Option.bind_eq_some_iff.mp stands
  obtain ⟨-, -, listed⟩ := grounded position name provider provided
  obtain ⟨_, rfl, named⟩ := Stands.listed grounded ⟨provided, shown⟩
  exact ⟨named, listed⟩

/-- With fuel for the names not yet visited, a search ends by itself. -/
theorem searchAncestors_searches (grounded : Grounded g) (fuel : Nat) (c : JavaClass)
    (visited : List String) (listed : c.name ∈ g.classpath.classNames)
    (enough : g.unvisited visited < fuel) :
    Searches g (some (.listed position)) target [c] visited
      (searchAncestors g (some (.listed position)) target fuel c visited) := by
  -- on the fuel: a class that is entered has a name not yet visited, and then it is visited
  induction fuel generalizing c visited with
  | zero => omega
  | succ fuel ih =>
    rw [searchAncestors_succ]
    by_cases known : c.name ∈ visited
    · rw [if_pos known]
      exact .known known .done
    rw [if_neg known]
    by_cases direct : target ∈ c.parents
    · rw [if_pos direct]
      exact .direct known direct
    rw [if_neg direct]
    have fewer := unvisited_cons_lt listed known
    refine .through known direct (foldl_climb_searches fun parent _ d stands visited' grown =>
      ih d visited' ?_ ?_)
    · obtain ⟨named, listed⟩ := classOf?_listed grounded stands
      exact named ▸ listed
    · have fewer' : g.unvisited visited' ≤ g.unvisited (c.name :: visited) := unvisited_le grown
      omega

theorem isSubclass_searches (grounded : Grounded g) (position : Nat) (target : String) {c : JavaClass}
    (listed : c.name ∈ g.classpath.classNames) :
    ∃ visited, Searches g (some (.listed position)) target [c] []
      (g.isSubclass (some (.listed position)) c target, visited) :=
  ⟨_, searchAncestors_searches grounded _ c [] listed unvisited_lt_searchBound⟩

/-- Above a class that a JAR sees under its own name, the name tells the class. -/
theorem Above.stands (grounded : Grounded g) {c d : JavaClass}
    (own : ∀ e, g.classOf? (some (.listed position)) c.name = some e → e = c)
    (above : Above g (some (.listed position)) c d) :
    ∀ e, g.classOf? (some (.listed position)) d.name = some e → e = d := by
  cases above with
  | self => exact own
  | parent _ _ stands =>
    intro e stands'
    rw [(classOf?_listed grounded stands).1, stands] at stands'
    exact (Option.some.inj stands').symm

theorem Above.unique (grounded : Grounded g) {c d e : JavaClass}
    (own : ∀ e, g.classOf? (some (.listed position)) c.name = some e → e = c)
    (above : Above g (some (.listed position)) c d) (above' : Above g (some (.listed position)) c e)
    (same : d.name = e.name) : d = e := by
  -- one of the two is the class itself, or a record sees both under one name
  cases above with
  | self =>
    cases above' with
    | self => rfl
    | parent _ _ stands =>
      rw [← (classOf?_listed grounded stands).1, ← same] at stands
      exact (own e stands).symm
  | parent _ _ stands =>
    rw [← (classOf?_listed grounded stands).1, same] at stands
    exact above'.stands grounded own d stands

/-- A search that found nothing has climbed past every class above its start. -/
theorem Climbed.above (grounded : Grounded g) {c d : JavaClass} {after : List String}
    (own : ∀ e, g.classOf? (some (.listed position)) c.name = some e → e = c)
    (climbed : Climbed g (some (.listed position)) target [c] [] after)
    (above : Above g (some (.listed position)) c d) :
    target ∉ d.parents ∧ ∀ parent ∈ d.parents, ∀ e,
      g.classOf? (some (.listed position)) parent = some e → e.name ∈ after := by
  have met : ∀ {d}, Above g (some (.listed position)) c d → d.name ∈ after →
      target ∉ d.parents ∧ ∀ parent ∈ d.parents, ∀ e,
        g.classOf? (some (.listed position)) parent = some e → e.name ∈ after := by
    intro d above visited
    obtain ⟨start, single, d', above', same, rest⟩ := climbed.settled d.name visited List.not_mem_nil
    rw [List.mem_singleton.mp single] at above'
    obtain rfl := above'.unique grounded own above same
    exact rest
  induction above with
  | self => exact met .self (climbed.covers c (List.mem_singleton_self c))
  | parent reached listed stands ih =>
    exact met (.parent reached listed stands) (ih.2 _ listed _ stands)

/-- The search for a supertype finds it exactly if the class has it, in cyclic hierarchies too. -/
theorem isSubclass_iff (grounded : Grounded g) {c : JavaClass}
    (listed : c.name ∈ g.classpath.classNames)
    (own : ∀ e, g.classOf? (some (.listed position)) c.name = some e → e = c) :
    g.isSubclass (some (.listed position)) c target = true ↔
      Inherits g (some (.listed position)) c target := by
  obtain ⟨visited, run⟩ := isSubclass_searches grounded position target listed
  rcases run.climb with ⟨found, _, single, inherits⟩ | ⟨missed, climbed⟩
  · rw [List.mem_singleton.mp single] at inherits
    exact iff_of_true found inherits
  · refine iff_of_false (Bool.eq_false_iff.mp missed) ?_
    rintro ⟨d, above, lists⟩
    exact (climbed.above grounded own above).1 lists

end

section

variable {jars : List Jar} {release : Int} {boundary : Option PlatformList} {position : Nat}
variable {c : JavaClass}

/-- For its own JAR, the name of a class stands for the class, unless the platform has the name. -/
theorem classOf?_own
    (shown : (Classpath.new jars release).classIn? (.listed position) c.name = some c) (e : JavaClass)
    (stands : (build (Classpath.new jars release) boundary).classOf? (some (.listed position)) c.name =
      some e) : e = c := by
  obtain ⟨provider, provided, shows⟩ := Option.bind_eq_some_iff.mp stands
  change (resolveIn (Classpath.new jars release) boundary (some (.listed position)) c.name).provider? =
    some provider at provided
  rw [resolveIn] at provided
  split at provided
  · cases provided
  · rw [Option.filter_some_pos (by rw [shown, Option.isSome_some])] at provided
    cases provided
    exact Option.some.inj (shows.symm.trans shown)

end

/-- From a class of a JAR the search for a supertype ends, with one answer only, and the answer is whether
the class, or one that its JAR sees above it, has a supertype of the name. Cycles through the class itself
and supertypes that are inherited on several ways make no difference. -/
theorem isSubclass_decides (jars : List Jar) (release : Int) (boundary : Option PlatformList)
    (position : Nat) (c : JavaClass) (target : String)
    (shown : (Classpath.new jars release).classIn? (.listed position) c.name = some c) :
    let g := build (Classpath.new jars release) boundary
    let source : Option JarRef := some (.listed position)
    (∃ visited, Searches g source target [c] [] (g.isSubclass source c target, visited)) ∧
    (∀ result, Searches g source target [c] [] result →
      result.1 = g.isSubclass source c target) ∧
    (g.isSubclass source c target = true ↔ Inherits g source c target) := by
  intro g source
  have listed : c.name ∈ g.classpath.classNames :=
    Classpath.mem_classNames (Classpath.mem_providersOf.mpr ⟨c, shown⟩)
  have ends := isSubclass_searches grounded_build position target listed
  refine ⟨ends, ?_, isSubclass_iff grounded_build listed (classOf?_own shown)⟩
  intro result run
  obtain ⟨visited, run'⟩ := ends
  rw [run.unique run']

/-- A class that descends from itself has a supertype that only the second of two interfaces with a common
parent lists, and none of a name that no class lists. -/
theorem isSubclass_decides_loop :
    let g := build (Classpath.new loop 8) none
    let source : Option JarRef := some (.listed 0)
    let c := bareClass "app.Sub" "app.Base" ["app.Left", "app.Right"]
    g.classpath.classIn? (.listed 0) c.name = some c ∧
      (∃ visited, Searches g source "gone.Away" [c] [] (true, visited)) ∧
      Inherits g source c "app.Sub" ∧ Inherits g source c "gone.Away" ∧
      ¬ Inherits g source c "app.Away" := by
  intro g source c
  have shown : (Classpath.new loop 8).classIn? (.listed 0) c.name = some c := by decide +kernel
  have cyclic : g.isSubclass source c "app.Sub" = true := by decide +kernel
  have hidden : g.isSubclass source c "gone.Away" = true := by decide +kernel
  have absent : g.isSubclass source c "app.Away" = false := by decide +kernel
  have decides := fun target => isSubclass_decides loop 8 none 0 c target shown
  refine ⟨shown, ?_, (decides _).2.2.mp cyclic, (decides _).2.2.mp hidden, ?_⟩
  · obtain ⟨visited, run⟩ := (decides "gone.Away").1
    rw [hidden] at run
    exact ⟨visited, run⟩
  · intro inherits
    have found := (decides _).2.2.mpr inherits
    rw [absent] at found
    cases found

end ClasspathAudit.Graph
