import ClasspathAudit.Proofs.Graph.Hierarchy

/-!
What a search has seen by its end. The visited names carry the invariant: the search of a parent adds
all that can be reached from it without passing a visited name, so the searches of several parents,
one after the other, add up.
-/

namespace ClasspathAudit.Graph

variable {g : Graph} {source : Option JarRef} {ref : MemberRef}

/-- What a search that found nothing has seen: it entered every name that can be reached without
passing a name visited before, and nothing else. -/
structure Explored (g : Graph) (source : Option JarRef) (ref : MemberRef) (targets : List String)
    (start result : Finding × List String) : Prop where
  grows : start.2 ⊆ result.2
  covers : targets ⊆ result.2
  closed : ∀ name ∈ result.2, name ∉ start.2 → ∀ c, g.expanded? source name = some c →
    c.parents ⊆ result.2
  silent : ∀ name ∈ result.2, name ∉ start.2 → ¬ Answers g source ref name
  reached : ∀ name ∈ result.2, name ∉ start.2 → ∃ target ∈ targets, Hierarchy g source target name
  unseen : result.1 = .unknown ↔ start.1 = .unknown ∨
    ∃ name ∈ result.2, name ∉ start.2 ∧ name ≠ ClassName.object ∧ Outside g source name
  settled : result.1.isFound = false

/-- A search from several names either found a declaration or has explored all of them. -/
def Outcome (g : Graph) (source : Option JarRef) (ref : MemberRef) (targets : List String)
    (start result : Finding × List String) : Prop :=
  (result.1.isFound = true ∧
    ∃ target ∈ targets, ∃ name, Hierarchy g source target name ∧ Answers g source ref name) ∨
  Explored g source ref targets start result

theorem Explored.still {targets : List String} {start : Finding × List String}
    (open' : start.1.isFound = false) (known : targets ⊆ start.2) :
    Explored g source ref targets start start where
  grows := List.Subset.refl _
  covers := known
  closed name member fresh := absurd member fresh
  silent name member fresh := absurd member fresh
  reached name member fresh := absurd member fresh
  unseen := by
    constructor
    · exact Or.inl
    · rintro (before | ⟨name, member, fresh, _⟩)
      · exact before
      · exact absurd member fresh
  settled := open'

theorem Explored.append {targets targets' : List String} {start middle result : Finding × List String}
    (first : Explored g source ref targets start middle)
    (second : Explored g source ref targets' middle result) :
    Explored g source ref (targets ++ targets') start result where
  grows := List.Subset.trans first.grows second.grows
  covers := List.append_subset.mpr
    ⟨List.Subset.trans first.covers second.grows, second.covers⟩
  closed name member fresh c expands := by
    by_cases early : name ∈ middle.2
    · exact List.Subset.trans (first.closed name early fresh c expands) second.grows
    · exact second.closed name member early c expands
  silent name member fresh := by
    by_cases early : name ∈ middle.2
    · exact first.silent name early fresh
    · exact second.silent name member early
  reached name member fresh := by
    by_cases early : name ∈ middle.2
    · obtain ⟨target, inside, path⟩ := first.reached name early fresh
      exact ⟨target, List.mem_append_left _ inside, path⟩
    · obtain ⟨target, inside, path⟩ := second.reached name member early
      exact ⟨target, List.mem_append_right _ inside, path⟩
  unseen := by
    rw [second.unseen, first.unseen]
    constructor
    · rintro ((before | ⟨name, member, fresh, hidden⟩) | ⟨name, member, fresh, hidden⟩)
      · exact .inl before
      · exact .inr ⟨name, second.grows member, fresh, hidden⟩
      · exact .inr ⟨name, member, fun old => fresh (first.grows old), hidden⟩
    · rintro (before | ⟨name, member, fresh, hidden⟩)
      · exact .inl (.inl before)
      · by_cases early : name ∈ middle.2
        · exact .inl (.inr ⟨name, early, fresh, hidden⟩)
        · exact .inr ⟨name, member, early, hidden⟩
  settled := second.settled

theorem visit_explored {enter : String → List String → Finding × List String}
    {reached : Finding × List String} {parent : String} (open' : reached.1.isFound = false)
    (explored : Explored g source ref [parent] (.missing, reached.2) (enter parent reached.2)) :
    Explored g source ref [parent] reached (visit enter reached parent) := by
  have settled := explored.settled
  by_cases hidden : (enter parent reached.2).1 = .unknown
  · have result : visit enter reached parent = enter parent reached.2 := by
      simp [visit, open', hidden]
    rw [result]
    refine ⟨explored.grows, explored.covers, explored.closed, explored.silent, explored.reached, ?_,
      settled⟩
    constructor
    · intro unknown
      rcases explored.unseen.mp unknown with before | new
      · cases before
      · exact .inr new
    · exact fun _ => hidden
  · have result : visit enter reached parent = (reached.1, (enter parent reached.2).2) := by
      simp [visit, open', hidden, settled]
    rw [result]
    refine ⟨explored.grows, explored.covers, explored.closed, explored.silent, explored.reached, ?_,
      open'⟩
    constructor
    · exact Or.inl
    · rintro (before | new)
      · exact before
      · exact absurd (explored.unseen.mpr (.inr new)) hidden

theorem foldl_visit_found {enter : String → List String → Finding × List String}
    {reached : Finding × List String} (found : reached.1.isFound = true) (parents : List String) :
    parents.foldl (visit enter) reached = reached := by
  induction parents with
  | nil => rfl
  | cons parent parents ih =>
    have stays : visit enter reached parent = reached := by simp [visit, found]
    rw [List.foldl_cons, stays, ih]

/-- The loop over the parents, from what the search of each one gives. -/
theorem foldl_visit_outcome {enter : String → List String → Finding × List String}
    {start : Finding × List String} {parents : List String} (open' : start.1.isFound = false)
    (entering : ∀ parent ∈ parents, ∀ visited, start.2 ⊆ visited →
      Outcome g source ref [parent] (.missing, visited) (enter parent visited)) :
    Outcome g source ref parents start (parents.foldl (visit enter) start) := by
  induction parents generalizing start with
  | nil => exact .inr (Explored.still open' (List.nil_subset _))
  | cons parent parents ih =>
    rw [List.foldl_cons]
    rcases entering parent List.mem_cons_self start.2 (List.Subset.refl _) with
      ⟨found, _, single, name, path, answers⟩ | explored
    · have result : visit enter start parent = enter parent start.2 := by simp [visit, open', found]
      rw [result, foldl_visit_found found]
      rw [List.mem_singleton.mp single] at path
      exact .inl ⟨found, parent, List.mem_cons_self, name, path, answers⟩
    · have middle := visit_explored open' explored
      rcases ih middle.settled fun later inside visited grown =>
        entering later (List.mem_cons_of_mem parent inside) visited
          (List.Subset.trans middle.grows grown) with ⟨found, target, inside, seen⟩ | rest
      · exact .inl ⟨found, target, List.mem_cons_of_mem parent inside, seen⟩
      · exact .inr (middle.append rest)

/-- How many class names a search can still enter. -/
def unvisited (g : Graph) (visited : List String) : Nat :=
  (g.classpath.classNames.toFinset \ visited.toFinset).card

theorem unvisited_le {visited visited' : List String} (grown : visited ⊆ visited') :
    g.unvisited visited' ≤ g.unvisited visited := by
  apply Finset.card_le_card
  apply Finset.sdiff_subset_sdiff (Finset.Subset.refl _)
  intro name member
  exact List.mem_toFinset.mpr (grown (List.mem_toFinset.mp member))

theorem unvisited_cons_lt {name : String} {visited : List String}
    (listed : name ∈ g.classpath.classNames) (fresh : name ∉ visited) :
    g.unvisited (name :: visited) < g.unvisited visited := by
  apply Finset.card_lt_card
  refine Finset.ssubset_iff_subset_ne.mpr ⟨?_, ?_⟩
  · apply Finset.sdiff_subset_sdiff (Finset.Subset.refl _)
    intro other member
    simp only [List.mem_toFinset] at member ⊢
    exact List.mem_cons_of_mem name member
  · intro same
    have member : name ∈ g.classpath.classNames.toFinset \ visited.toFinset := by
      simp [listed, fresh]
    rw [← same] at member
    simp at member

/-- A search that ends at its first name. -/
theorem Explored.leaf {owner : String} {visited : List String} {finding : Finding}
    (closed : g.expanded? source owner = none) (silent : ¬ Answers g source ref owner)
    (settled : finding.isFound = false) (fresh : owner ∉ visited)
    (unseen : finding = .unknown ↔ owner ≠ ClassName.object ∧ Outside g source owner) :
    Explored g source ref [owner] (.missing, visited) (finding, owner :: visited) := by
  have new : ∀ name ∈ owner :: visited, name ∉ visited → name = owner := by
    intro name member other
    exact (List.mem_cons.mp member).resolve_right other
  refine ⟨List.subset_cons_self _ _, by simp, ?_, ?_, ?_, ?_, settled⟩
  · intro name member other c expands
    rw [new name member other, closed] at expands
    cases expands
  · intro name member other
    rw [new name member other]
    exact silent
  · intro name member other
    refine ⟨owner, List.mem_singleton_self _, ?_⟩
    rw [new name member other]
    exact .owner
  · constructor
    · intro unknown
      exact .inr ⟨owner, List.mem_cons_self, fresh, unseen.mp unknown⟩
    · rintro (before | ⟨name, member, other, hidden⟩)
      · cases before
      · rw [new name member other] at hidden
        exact unseen.mpr hidden

/-- A search that goes on to the parents of its first name. -/
theorem Explored.expand {owner : String} {visited : List String} {c : JavaClass}
    {result : Finding × List String} (expands : g.expanded? source owner = some c)
    (other : owner ≠ ClassName.object) (undeclared : declaredMember? c ref = none)
    (rest : Explored g source ref c.parents (.missing, owner :: visited) result) :
    Explored g source ref [owner] (.missing, visited) result := by
  have mine : owner ∈ result.2 := rest.grows List.mem_cons_self
  have older : visited ⊆ result.2 := List.Subset.trans (List.subset_cons_self _ _) rest.grows
  refine ⟨older, by simpa using mine, ?_, ?_, ?_, ?_, rest.settled⟩
  · intro name member fresh c' expands'
    by_cases same : name = owner
    · rw [same, expands] at expands'
      cases expands'
      exact rest.covers
    · exact rest.closed name member (by simp [same, fresh]) c' expands'
  · intro name member fresh
    by_cases same : name = owner
    · rw [same]
      rintro (⟨c', expands', declares⟩ | ⟨root, _⟩)
      · rw [expands] at expands'
        cases expands'
        rw [undeclared] at declares
        cases declares
      · exact other root
    · exact rest.silent name member (by simp [same, fresh])
  · intro name member fresh
    refine ⟨owner, List.mem_singleton_self _, ?_⟩
    by_cases same : name = owner
    · rw [same]
      exact .owner
    · obtain ⟨parent, listed, path⟩ := rest.reached name member (by simp [same, fresh])
      exact (Hierarchy.parent .owner expands listed).trans path
  · rw [rest.unseen]
    constructor
    · rintro (before | ⟨name, member, fresh, hidden⟩)
      · cases before
      · exact .inr ⟨name, member, fun old => fresh (List.mem_cons_of_mem owner old), hidden⟩
    · rintro (before | ⟨name, member, fresh, root, outside⟩)
      · cases before
      · refine .inr ⟨name, member, ?_, root, outside⟩
        intro old
        rcases List.mem_cons.mp old with same | before
        · rw [same] at outside
          rw [not_expanded_of_outside owner outside] at expands
          cases expands
        · exact fresh before

/-- With fuel for the names not yet visited, a search finds a declaration or explores all there is. -/
theorem search_outcome (ref : MemberRef) (uniform : Uniform g source) (fuel : Nat) (owner : String)
    (visited : List String) (enough : g.unvisited visited < fuel) :
    Outcome g source ref [owner] (.missing, visited) (search g ref fuel source owner visited) := by
  induction fuel generalizing owner visited with
  | zero => omega
  | succ fuel ih =>
    rw [search_succ uniform]
    by_cases known : owner ∈ visited
    · rw [if_pos known]
      exact .inr (Explored.still rfl (by simpa using known))
    rw [if_neg known]
    by_cases root : owner = ClassName.object
    · have closed : g.expanded? source owner = none := by rw [expanded?, if_pos root]
      rw [if_pos root]
      by_cases universal : ref.kind ≠ .field ∧ objectMethods.contains (ref.name ++ ref.descriptor)
      · rw [if_pos universal]
        exact .inl ⟨rfl, owner, List.mem_singleton_self _, owner, .owner, .inr ⟨root, universal⟩⟩
      · rw [if_neg universal]
        refine .inr (Explored.leaf closed ?_ rfl known (by simp [root]))
        rintro (⟨c, expands, _⟩ | ⟨_, has⟩)
        · rw [closed] at expands
          cases expands
        · exact universal has
    rw [if_neg root]
    cases expands : g.expanded? source owner with
    | none =>
      refine .inr (Explored.leaf expands ?_ rfl known ?_)
      · rintro (⟨c, expands', _⟩ | ⟨same, _⟩)
        · rw [expands] at expands'
          cases expands'
        · exact root same
      · exact ⟨fun _ => ⟨root, outside_of_not_expanded uniform root expands⟩, fun _ => rfl⟩
    | some c =>
      cases declares : declaredMember? c ref with
      | some member =>
        simp only [declares]
        refine .inl ⟨rfl, owner, List.mem_singleton_self _, owner, .owner, .inl ⟨c, expands, ?_⟩⟩
        rw [declares]
        rfl
      | none =>
        have fewer := unvisited_cons_lt (mem_classNames_of_expanded uniform expands) known
        have rest : Outcome g source ref c.parents (.missing, owner :: visited)
            (c.parents.foldl (visit (search g ref fuel source)) (.missing, owner :: visited)) := by
          refine foldl_visit_outcome rfl fun parent _ visited' grown => ih parent visited' ?_
          have fewer' : g.unvisited visited' ≤ g.unvisited (owner :: visited) := unvisited_le grown
          omega
        simp only [declares]
        rcases rest with ⟨found, parent, listed, name, path, answers⟩ | explored
        · exact .inl ⟨found, owner, List.mem_singleton_self _, name,
            (Hierarchy.parent .owner expands listed).trans path, answers⟩
        · exact .inr (explored.expand expands root declares)

theorem foldl_visit_grows {enter : String → List String → Finding × List String}
    (grows : ∀ parent visited, visited ⊆ (enter parent visited).2) (parents : List String)
    (start : Finding × List String) : start.2 ⊆ (parents.foldl (visit enter) start).2 := by
  induction parents generalizing start with
  | nil => exact List.Subset.refl _
  | cons parent parents ih =>
    refine List.Subset.trans ?_ (ih _)
    rw [visit]
    split
    · exact List.Subset.refl _
    · simp only
      split <;> exact grows parent start.2

theorem search_grows (uniform : Uniform g source) (fuel : Nat) (owner : String)
    (visited : List String) : visited ⊆ (search g ref fuel source owner visited).2 := by
  induction fuel generalizing owner visited with
  | zero => exact List.Subset.refl _
  | succ fuel ih =>
    rw [search_succ uniform]
    split
    · exact List.Subset.refl _
    · split
      · exact List.subset_cons_self _ _
      · split
        · exact List.subset_cons_self _ _
        · split
          · exact List.subset_cons_self _ _
          · exact List.Subset.trans (List.subset_cons_self owner visited)
              (foldl_visit_grows ih _ (.missing, owner :: visited))

theorem foldl_visit_congr {enter enter' : String → List String → Finding × List String}
    {start : Finding × List String} (grows : ∀ parent visited, visited ⊆ (enter parent visited).2)
    (same : ∀ parent visited, start.2 ⊆ visited → enter' parent visited = enter parent visited)
    (parents : List String) :
    parents.foldl (visit enter') start = parents.foldl (visit enter) start := by
  induction parents generalizing start with
  | nil => rfl
  | cons parent parents ih =>
    have first : visit enter' start parent = visit enter start parent := by
      rw [visit, visit, same parent start.2 (List.Subset.refl _)]
    rw [List.foldl_cons, List.foldl_cons, first]
    apply ih
    intro later visited grown
    refine same later visited (List.Subset.trans ?_ grown)
    exact foldl_visit_grows grows [parent] start

/-- A search with fuel for the names not yet visited ends by itself: more fuel changes nothing. -/
theorem search_fuel (uniform : Uniform g source) {fuel fuel' : Nat} {owner : String}
    {visited : List String} (enough : g.unvisited visited < fuel) (more : fuel ≤ fuel') :
    search g ref fuel' source owner visited = search g ref fuel source owner visited := by
  induction fuel generalizing fuel' owner visited with
  | zero => omega
  | succ fuel ih =>
    obtain ⟨fuel', rfl⟩ := Nat.exists_eq_add_one_of_ne_zero (show fuel' ≠ 0 by omega)
    rw [search_succ uniform, search_succ uniform]
    split
    · rfl
    next fresh =>
      split
      · rfl
      · split
        · rfl
        next c expands =>
          split
          · rfl
          · apply foldl_visit_congr (search_grows uniform fuel)
            intro parent visited' grown
            have fewer := unvisited_cons_lt (mem_classNames_of_expanded uniform expands) fresh
            have fewer' : g.unvisited visited' ≤ g.unvisited (owner :: visited) := unvisited_le grown
            exact ih (by omega) (by omega)

end ClasspathAudit.Graph
