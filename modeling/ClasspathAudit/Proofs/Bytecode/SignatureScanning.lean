import ClasspathAudit.Proofs.Bytecode.SignatureGrammar

/-!
The scan of generic signatures against their grammar. `Scans act input R` says how an action ends in
front of `input`: it never uses up its bound on rounds and nesting, and it succeeds with exactly the
values, rests and names that `R` allows. Each way of combining actions has one rule, so that what a
scan accepts is told part by part, and each part is a rule of the grammar.
-/

namespace ClasspathAudit.Signature

variable {α β : Type}

theorem run_bind (act : Scan α) (f : α → Scan β) (s : State) :
    (act >>= f).run.run s = match act.run.run s with
      | (.ok x, s') => (f x).run.run s'
      | (.error problem, s') => (.error problem, s') := by
  simp only [ExceptT.run_bind, StateT.run_bind]
  rcases act.run.run s with ⟨_ | _, _⟩ <;> rfl

theorem run_ite {p : Prop} [Decidable p] (act act' : Scan α) (s : State) :
    (if p then act else act').run.run s = if p then act.run.run s else act'.run.run s := by
  split <;> rfl

/-- In front of `input` the action ends by itself, and it succeeds with what `R` allows: a value, the
text that is left, and the names reported on the way. -/
structure Scans (act : Scan α) (input : List Char) (R : α → List Char → List String → Prop) :
    Prop where
  ends : ∀ {offset names s}, act.run.run ⟨offset, input, names⟩ ≠ (.error .exhausted, s)
  sound : ∀ {offset names x s}, act.run.run ⟨offset, input, names⟩ = (.ok x, s) →
    ∃ found, R x s.rest found ∧ s.names = found.reverse ++ names
  complete : ∀ {x rest found}, R x rest found → ∀ offset names, ∃ offset',
    act.run.run ⟨offset, input, names⟩ = (.ok x, ⟨offset', rest, found.reverse ++ names⟩)

namespace Scans

variable {act : Scan α} {f : α → Scan β} {input rest : List Char} {x : α}
variable {R R' : α → List Char → List String → Prop} {S : β → List Char → List String → Prop}

theorem of_iff (scans : Scans act input R)
    (same : ∀ x rest found, R x rest found ↔ R' x rest found) : Scans act input R' where
  ends := scans.ends
  sound run := by
    obtain ⟨found, allowed, names⟩ := scans.sound run
    exact ⟨found, (same _ _ _).mp allowed, names⟩
  complete allowed := scans.complete ((same _ _ _).mpr allowed)

theorem pure (x : α) : Scans (Pure.pure x) input fun y rest found =>
    y = x ∧ rest = input ∧ found = [] where
  ends run := by cases run
  sound run := by
    cases run
    exact ⟨[], ⟨rfl, rfl, rfl⟩, rfl⟩
  complete := by
    rintro _ _ _ ⟨rfl, rfl, rfl⟩ offset names
    exact ⟨offset, rfl⟩

/-- An action that gives up for a reason in the text. -/
theorem refused {problem : Nat → Problem} (told : ∀ n, problem n ≠ .exhausted)
    (fails : ∀ offset names, act.run.run ⟨offset, input, names⟩ =
      (.error (problem offset), ⟨offset, input, names⟩))
    (never : ∀ x rest found, ¬ R x rest found) : Scans act input R where
  ends {offset names s} run := by
    rw [fails] at run
    exact told offset (Except.error.inj (Prod.mk.inj run).1)
  sound run := by
    rw [fails] at run
    cases run
  complete allowed := absurd allowed (never _ _ _)

theorem fail {problem : Nat → Problem} (told : ∀ n, problem n ≠ .exhausted)
    (never : ∀ x rest found, ¬ R x rest found) : Scans (Signature.fail problem) input R :=
  refused told (fun _ _ => rfl) never

theorem throw {problem : Problem} (told : problem ≠ .exhausted)
    (never : ∀ x rest found, ¬ R x rest found) : Scans (MonadExcept.throw problem) input R :=
  refused (fun _ => told) (fun _ _ => rfl) never

theorem bind {Q : α → List Char → β → List Char → List String → Prop} (first : Scans act input R)
    (second : ∀ x mid found, R x mid found → Scans (f x) mid (Q x mid)) :
    Scans (act >>= f) input fun y rest found => ∃ x mid names names',
      R x mid names ∧ Q x mid y rest names' ∧ found = names ++ names' where
  ends {offset names s} run := by
    rw [run_bind] at run
    generalize ran : act.run.run ⟨offset, input, names⟩ = outcome at run
    obtain ⟨problem | x, t⟩ := outcome
    · cases run
      exact first.ends ran
    · obtain ⟨found, allowed, -⟩ := first.sound ran
      exact (second x t.rest found allowed).ends run
  sound {offset names y s} run := by
    rw [run_bind] at run
    generalize ran : act.run.run ⟨offset, input, names⟩ = outcome at run
    obtain ⟨problem | x, t⟩ := outcome
    · cases run
    · obtain ⟨found, allowed, told⟩ := first.sound ran
      obtain ⟨found', allowed', told'⟩ := (second x t.rest found allowed).sound run
      refine ⟨found ++ found', ⟨x, t.rest, found, found', allowed, allowed', rfl⟩, ?_⟩
      rw [told', told, List.reverse_append, List.append_assoc]
  complete := by
    rintro y rest _ ⟨x, mid, found, found', allowed, allowed', rfl⟩ offset names
    obtain ⟨between, ran⟩ := first.complete allowed offset names
    obtain ⟨offset', ran'⟩ := (second x mid found allowed).complete allowed' between
      (found.reverse ++ names)
    refine ⟨offset', ?_⟩
    rw [run_bind, ran]
    dsimp only
    rw [ran', List.reverse_append, List.append_assoc]

/-- An action that always succeeds and reports nothing, and what comes behind it. -/
theorem after (moves : ∀ offset names, ∃ offset',
      act.run.run ⟨offset, input, names⟩ = (.ok x, ⟨offset', rest, names⟩))
    (scans : Scans (f x) rest S) : Scans (act >>= f) input S where
  ends {offset names s} run := by
    obtain ⟨offset', ran⟩ := moves offset names
    rw [run_bind, ran] at run
    exact scans.ends run
  sound {offset names y s} run := by
    obtain ⟨offset', ran⟩ := moves offset names
    rw [run_bind, ran] at run
    exact scans.sound run
  complete allowed offset names := by
    obtain ⟨offset', ran⟩ := moves offset names
    obtain ⟨last, ran'⟩ := scans.complete allowed offset' names
    refine ⟨last, ?_⟩
    rw [run_bind, ran]
    exact ran'

theorem remaining_bind {f : List Char → Scan β} (scans : Scans (f input) input S) :
    Scans (remaining >>= f) input S :=
  after (fun offset _ => ⟨offset, rfl⟩) scans

theorem peek_bind {f : Option Char → Scan β} (scans : Scans (f input.head?) input S) :
    Scans (peek >>= f) input S :=
  after (fun offset _ => ⟨offset, rfl⟩) scans

theorem advance_bind {f : Unit → Scan β} {c : Char} (scans : Scans (f ()) input S) :
    Scans (advance >>= f) (c :: input) S :=
  after (fun _ _ => ⟨_, rfl⟩) scans

theorem advance {c : Char} : Scans Signature.advance (c :: input) fun _ rest found =>
    rest = input ∧ found = [] := by
  have silent : Scans (Pure.pure ()) input _ := Scans.pure ()
  have scans := advance_bind (c := c) silent
  rw [bind_pure] at scans
  exact scans.of_iff fun _ _ _ => by simp

/-- A name is reported in front of those that follow it. -/
theorem report_bind {f : Unit → Scan β} {name : List Char} (scans : Scans (f ()) input S) :
    Scans (report name >>= f) input fun y rest found =>
      ∃ others, found = ClassName.external (String.ofList name) :: others ∧ S y rest others where
  ends {offset names s} run := scans.ends run
  sound {offset names y s} run := by
    obtain ⟨found, allowed, told⟩ := scans.sound run
    exact ⟨_ :: found, ⟨found, rfl, allowed⟩, by simp [told]⟩
  complete := by
    rintro y rest _ ⟨others, rfl, allowed⟩ offset names
    obtain ⟨offset', ran⟩ := scans.complete allowed offset
      (ClassName.external (String.ofList name) :: names)
    refine ⟨offset', ?_⟩
    rw [List.reverse_cons, List.append_assoc]
    exact ran

theorem report {name : List Char} : Scans (Signature.report name) input fun _ rest found =>
    rest = input ∧ found = [ClassName.external (String.ofList name)] := by
  have scans : Scans (Signature.report name >>= Pure.pure) input _ := report_bind (Scans.pure ())
  rw [bind_pure] at scans
  exact scans.of_iff fun _ _ _ => by simp [and_comm]

theorem expect {mark : Char} : Scans (Signature.expect mark) input fun _ rest found =>
    input = mark :: rest ∧ found = [] := by
  refine peek_bind ?_
  cases input with
  | nil =>
    rw [if_neg (by simp)]
    exact fail (fun _ => by simp) (by simp)
  | cons c tail =>
    split
    next same =>
      exact advance.of_iff fun _ rest found => by simp_all [eq_comm]
    next other =>
      refine fail (fun _ => by simp) ?_
      rintro _ rest found ⟨same, -⟩
      exact other (congrArg List.head? same)

/-- A name and its end are found by running up to the first stop. -/
theorem identifier_iff {stops name rest : List Char} :
    Identifier stops name ∧ input = name ++ rest ∧ (∃ c ∈ stops, rest.head? = some c) ↔
      name = input.takeWhile (!stops.contains ·) ∧ rest = input.dropWhile (!stops.contains ·) ∧
        name ≠ [] ∧ rest ≠ [] := by
  constructor
  · rintro ⟨⟨filled, free⟩, rfl, c, stop, first⟩
    obtain ⟨tail, rfl⟩ := List.head?_eq_some_iff.mp first
    have passes : ∀ d ∈ name, (!stops.contains d) = true := fun d member => by
      simpa using free d member
    have stays : ¬ (!stops.contains c) = true := by simpa using stop
    rw [List.takeWhile_append_of_pos passes, List.dropWhile_append_of_pos passes,
      List.takeWhile_cons_of_neg (p := (!stops.contains ·)) stays,
      List.dropWhile_cons_of_neg (p := (!stops.contains ·)) stays, List.append_nil]
    exact ⟨rfl, rfl, filled, List.cons_ne_nil c tail⟩
  · rintro ⟨rfl, rfl, filled, ended⟩
    refine ⟨⟨filled, fun c member => ?_⟩, List.takeWhile_append_dropWhile.symm, ?_⟩
    · simpa using List.all_eq_true.mp List.all_takeWhile c member
    · have first := List.head?_dropWhile_not (!stops.contains ·) input
      obtain ⟨c, tail, split⟩ := List.exists_cons_of_ne_nil ended
      rw [split] at first ⊢
      exact ⟨c, by simpa using first, rfl⟩

theorem run_identifier (stops : List Char) (s : State) : (Signature.identifier stops).run.run s =
    if (s.rest.takeWhile (!stops.contains ·)).isEmpty ||
        (s.rest.dropWhile (!stops.contains ·)).isEmpty then
      (.error (.identifier s.offset), s)
    else
      (.ok (s.rest.takeWhile (!stops.contains ·)),
        { s with
          offset := s.offset + Text.byteCount (s.rest.takeWhile (!stops.contains ·))
          rest := s.rest.dropWhile (!stops.contains ·) }) := by
  change (ite _ _ _ : Scan (List Char)).run.run s = _
  rw [run_ite]
  rfl

theorem identifier {stops : List Char} : Scans (Signature.identifier stops) input
    fun name rest found => Identifier stops name ∧ input = name ++ rest ∧
      (∃ c ∈ stops, rest.head? = some c) ∧ found = [] where
  ends {offset names s} run := by
    rw [run_identifier] at run
    split at run
    · cases run
    · cases run
  sound {offset names name s} run := by
    rw [run_identifier] at run
    split at run
    next => cases run
    next stands =>
      simp only [Bool.or_eq_true, List.isEmpty_iff, not_or] at stands
      cases run
      obtain ⟨named, split, stop⟩ := identifier_iff.mpr ⟨rfl, rfl, stands⟩
      exact ⟨[], ⟨named, split, stop, rfl⟩, rfl⟩
  complete := by
    rintro name rest _ ⟨named, split, stop, rfl⟩ offset names
    obtain ⟨rfl, rfl, filled, ended⟩ := identifier_iff.mp ⟨named, split, stop⟩
    have stands : ¬ ((input.takeWhile (!stops.contains ·)).isEmpty ||
        (input.dropWhile (!stops.contains ·)).isEmpty) = true := by
      rw [Bool.or_eq_true, List.isEmpty_iff, List.isEmpty_iff, not_or]
      exact ⟨filled, ended⟩
    rw [run_identifier, if_neg stands]
    exact ⟨_, rfl⟩

end Scans

/-- What one round of a repetition does: it stops, or it takes an item and asks for more. -/
def Round (stop : List Char → List Char → Prop) (item : List Char → List Char → List String → Prop)
    (input : List Char) : Bool → List Char → List String → Prop
  | false, rest, found => stop input rest ∧ found = []
  | true, rest, found => item input rest found

section

variable {step : Scan Bool} {stop : List Char → List Char → Prop} {bound : Nat} {input : List Char}
variable {item G : List Char → List Char → List String → Prop}

theorem round_takes {act : Scan Unit} (taken : Scans act input fun _ => item input)
    (unstopped : ∀ rest, ¬ stop input rest) :
    Scans (act >>= fun _ => pure true) input (Round stop item input) := by
  refine (taken.bind fun _ mid _ _ => Scans.pure true).of_iff ?_
  rintro (_ | _) rest found
  · simp [Round, unstopped]
  · simp [Round]

theorem round_stops (ended : ∀ rest, stop input rest ↔ rest = input)
    (done : ∀ rest found, ¬ item input rest found) :
    Scans (pure false) input (Round stop item input) := by
  refine (Scans.pure false).of_iff ?_
  rintro (_ | _) rest found
  · simp [Round, ended]
  · simp [Round, done]

theorem round_closes {c : Char} {tail : List Char} (ended : ∀ rest, stop (c :: tail) rest ↔ rest = tail)
    (done : ∀ rest found, ¬ item (c :: tail) rest found) :
    Scans (advance >>= fun _ => pure false) (c :: tail) (Round stop item (c :: tail)) := by
  refine (Scans.advance_bind (Scans.pure false)).of_iff ?_
  rintro (_ | _) rest found
  · simp [Round, ended]
  · simp [Round, done]

theorem round_fails {problem : Problem} (told : problem ≠ .exhausted)
    (unstopped : ∀ rest, ¬ stop input rest) (done : ∀ rest found, ¬ item input rest found) :
    Scans (throw problem) input (Round stop item input) := by
  refine Scans.throw told ?_
  rintro (_ | _) rest found round
  · exact unstopped rest round.1
  · exact done rest found round

/-- A list is closed by its mark, which begins none of its items. -/
theorem itemOrEnd_scans {mark : Char} {act : Char → Scan Unit}
    (filled : ∀ rest found, ¬ item [] rest found)
    (unmarked : ∀ tail rest found, ¬ item (mark :: tail) rest found)
    (taken : ∀ c tail, input = c :: tail → c ≠ mark → Scans (act c) input fun _ => item input) :
    Scans (itemOrEnd mark act) input
      (Round (fun input rest => input = mark :: rest) item input) := by
  refine Scans.peek_bind ?_
  cases input with
  | nil => exact round_fails (by simp) (by simp) filled
  | cons c tail =>
    dsimp only [List.head?_cons]
    split
    next same =>
      subst same
      exact round_closes (by simp [eq_comm]) (unmarked tail)
    next other =>
      exact round_takes (taken c tail rfl other) fun rest closed => other (List.cons.inj closed).1

/-- A repetition of rounds that take characters ends, and takes what the rounds take. -/
theorem roundsUpTo_scans
    (each : ∀ input, input.length ≤ bound → Scans step input (Round stop item input))
    (shorter : ∀ input mid found, item input mid found → mid.length < input.length)
    (opened : ∀ input rest found, G input rest found ↔ stop input rest ∧ found = [] ∨
      ∃ mid names names', item input mid names ∧ G mid rest names' ∧ found = names ++ names')
    (fuel : Nat) (enough : input.length < fuel) (within : input.length ≤ bound) :
    Scans (roundsUpTo fuel step) input fun _ => G input := by
  induction fuel generalizing input with
  | zero => exact absurd enough (Nat.not_lt_zero _)
  | succ fuel ih =>
    refine ((each input within).bind
      (Q := fun more mid _ rest found => if more then G mid rest found else rest = mid ∧ found = [])
      ?_).of_iff ?_
    · rintro (_ | _) mid found round
      · exact (Scans.pure ()).of_iff fun _ _ _ => by simp
      · have less := shorter input mid found round
        exact (ih (by omega) (by omega)).of_iff fun _ _ _ => by simp
    · intro _ rest found
      rw [opened]
      simp [Round]

theorem rounds_scans
    (each : ∀ input, input.length ≤ bound → Scans step input (Round stop item input))
    (shorter : ∀ input mid found, item input mid found → mid.length < input.length)
    (opened : ∀ input rest found, G input rest found ↔ stop input rest ∧ found = [] ∨
      ∃ mid names names', item input mid names ∧ G mid rest names' ∧ found = names ++ names')
    (within : input.length ≤ bound) : Scans (rounds step) input fun _ => G input :=
  Scans.remaining_bind (roundsUpTo_scans each shorter opened _ (Nat.lt_succ_self _) within)

/-- Rounds that each take a word of some rule take such words in a row. -/
theorem rounds_scans_many {rule : List Char → List String → Prop} {firsts : Char → Prop}
    (begins : Begins rule firsts)
    (each : ∀ input, input.length ≤ bound → Scans step input (Round stop (Reads rule) input))
    (within : input.length ≤ bound) :
    Scans (rounds step) input fun _ => ReadsUpTo rule stop input :=
  rounds_scans each (fun _ _ _ => begins.shorter) (fun _ _ _ => readsUpTo_iff) within

end

end ClasspathAudit.Signature
