import ClasspathAudit.Proofs.Bytecode.SignatureScanning

/-!
What the scan of generic signatures accepts. Every part of the scan takes the words of one rule of the
grammar and reports their class types, so that a signature is accepted exactly if it is a sentence, and
no signature uses up the bound on rounds and nesting.
-/

namespace ClasspathAudit.Signature

/-- Reference types are nested in each other: the scan of those inside takes them wherever at most
`bound` characters are left. -/
def TakesReferences (inner : Scan Unit) (bound : Nat) : Prop :=
  ∀ input, input.length ≤ bound → Scans inner input fun _ => Reads Reference input

section

variable {inner : Scan Unit} {bound : Nat} {c : Char} {input tail : List Char}

theorem typeSignature_scans (known : Scans inner input fun _ => Reads Reference input) :
    Scans (typeSignature inner) input fun _ => Reads AnyType input := by
  refine Scans.peek_bind ?_
  cases input with
  | nil =>
    exact known.of_iff fun _ _ _ =>
      iff_of_false reference_begins.not_reads_nil type_begins.not_reads_nil
  | cons c tail =>
    dsimp only [List.head?_cons]
    split
    next simple =>
      have primitive : c ∈ ['B', 'C', 'D', 'F', 'I', 'J', 'S', 'Z'] := by
        simpa [Descriptor.isPrimitive] using simple
      have other : ∀ rest found, ¬ Reads Reference (c :: tail) rest found := by
        intro rest found reads
        have first := reference_begins.first reads
        simp only [List.mem_cons, List.not_mem_nil, or_false] at first
        rcases first with rfl | rfl | rfl <;> simp at primitive
      exact Scans.advance.of_iff fun _ rest found => by
        simp [reads_type_cons, primitive, other]
    next other =>
      have primitive : c ∉ ['B', 'C', 'D', 'F', 'I', 'J', 'S', 'Z'] := by
        simpa [Descriptor.isPrimitive] using other
      exact known.of_iff fun _ rest found => by
        rw [reads_type_cons, or_iff_right (fun simple => primitive simple.1)]

theorem typeArgument_scans
    (known : TakesReferences inner bound) (within : (c :: tail).length ≤ bound) :
    Scans (typeArgument inner c) (c :: tail) fun _ => Reads Argument (c :: tail) := by
  have plain : ∀ rest found, c ∉ ['L', 'T', '['] → ¬ Reads Reference (c :: tail) rest found :=
    fun _ _ other reads => other (reference_begins.first reads)
  have inside : tail.length ≤ bound := Nat.le_of_succ_le within
  rw [typeArgument]
  split
  next nul =>
    refine Scans.throw (by simp) fun _ rest found reads => ?_
    have first := argument_begins.first reads
    simp only [List.mem_cons, List.not_mem_nil, or_false] at first
    rcases first with rfl | rfl | rfl | rfl | rfl | rfl <;> cases nul
  next =>
    split
    next star =>
      exact Scans.advance.of_iff fun _ rest found => by
        simp [reads_argument_cons, star, star ▸ plain rest found]
    next noStar =>
      split
      next marked =>
        refine (Scans.advance_bind (known tail inside)).of_iff fun _ rest found => ?_
        have other : c ∉ ['L', 'T', '['] := by
          rcases marked with rfl | rfl <;> decide
        simp [reads_argument_cons, noStar, marked, plain rest found other]
      next unmarked =>
        exact (known (c :: tail) within).of_iff fun _ rest found => by
          simp [reads_argument_cons, noStar, unmarked]

theorem argumentOrEnd_scans (known : TakesReferences inner bound) (within : input.length ≤ bound) :
    Scans (itemOrEnd '>' (typeArgument inner)) input
      (Round (fun input rest => input = '>' :: rest) (Reads Argument) input) := by
  refine itemOrEnd_scans (fun _ _ => argument_begins.not_reads_nil) ?_ ?_
  · intro tail rest found reads
    exact absurd (argument_begins.first reads) (by decide)
  · rintro c tail rfl -
    exact typeArgument_scans known within

/-- The type arguments at the front of a text, all of them where there are any. -/
def ReadsArguments (input rest : List Char) (found : List String) : Prop :=
  Reads Arguments input rest found ∧ (rest = input → input.head? ≠ some '<')

theorem readsArguments_cons {rest : List Char} {found : List String} :
    ReadsArguments ('<' :: tail) rest found ↔
      ReadsUpTo Argument (fun input rest => input = '>' :: rest) tail rest found := by
  constructor
  · rintro ⟨⟨word, stands, split⟩, whole⟩
    cases stands with
    | none => exact absurd rfl (whole split.symm)
    | list stands =>
      obtain ⟨-, rfl⟩ := List.cons.inj split
      exact ⟨_, ⟨_, stands, List.append_assoc ..⟩, rfl⟩
  · rintro ⟨_, ⟨word, stands, rfl⟩, rfl⟩
    refine ⟨⟨_, .list stands, by simp⟩, fun same => ?_⟩
    have size := congrArg List.length same
    simp only [List.length_cons, List.length_append] at size
    omega

theorem readsArguments_other (other : input.head? ≠ some '<') {rest : List Char}
    {found : List String} : ReadsArguments input rest found ↔ rest = input ∧ found = [] := by
  constructor
  · rintro ⟨⟨word, stands, rfl⟩, -⟩
    cases stands with
    | none => exact ⟨rfl, rfl⟩
    | list => exact absurd rfl other
  · rintro ⟨rfl, rfl⟩
    exact ⟨⟨[], .none, rfl⟩, fun _ => other⟩

theorem typeArguments_scans
    (known : TakesReferences inner bound) (within : input.length ≤ bound) :
    Scans (typeArguments inner) input fun _ => ReadsArguments input := by
  refine Scans.peek_bind ?_
  split
  next stands =>
    obtain ⟨tail, rfl⟩ := List.head?_eq_some_iff.mp stands
    have inside : tail.length ≤ bound := Nat.le_of_succ_le within
    refine (Scans.advance_bind (rounds_scans_many argument_begins (fun _ within =>
      argumentOrEnd_scans known within) inside)).of_iff fun _ _ _ => readsArguments_cons.symm
  next other =>
    exact (Scans.pure ()).of_iff fun _ _ _ => by simp [readsArguments_other other]

/-- What follows a class name with its arguments: the end, or the member classes. -/
def ReadsTail (name input rest : List Char) (found : List String) : Prop :=
  input = ';' :: rest ∧ found = [ClassName.external (String.ofList name)] ∨
    ∃ tail names, input = '.' :: tail ∧ found = ClassName.external (String.ofList name) :: names ∧
      Reads (ClassType (name ++ ['$'])) tail rest names

/-- Arguments are read up to what follows them, and whether or not there are any, a name ends before
them. -/
theorem Arguments.front {arguments : List Char} {names : List String}
    (stand : Arguments arguments names) (follows : c = '.' ∨ c = ';') (tail : List Char) :
    (∃ d ∈ ['<', '.', ';'], (arguments ++ c :: tail).head? = some d) ∧
      ReadsArguments (arguments ++ c :: tail) (c :: tail) names := by
  refine ⟨?_, ⟨_, stand, rfl⟩, fun same => ?_⟩
  · cases stand with
    | none => exact ⟨c, by rcases follows with rfl | rfl <;> decide, rfl⟩
    | list => exact ⟨'<', by decide, rfl⟩
  · rw [← same]
    rcases follows with rfl | rfl <;> simp

/-- A class type is a segment, its arguments and what follows them. -/
theorem reads_classType {enclosing rest : List Char} {found : List String} :
    Reads (ClassType enclosing) input rest found ↔
      ∃ segment mid mid' names names', Identifier ['<', '.', ';'] segment ∧
        input = segment ++ mid ∧ (∃ c ∈ ['<', '.', ';'], mid.head? = some c) ∧
        ReadsArguments mid mid' names ∧ ReadsTail (enclosing ++ segment) mid' rest names' ∧
        found = names ++ names' := by
  constructor
  · rintro ⟨word, stands, rfl⟩
    cases stands with
    | last named stand =>
      obtain ⟨stop, arguments⟩ := stand.front (.inr rfl) rest
      exact ⟨_, _, _, _, _, named, by simp, stop, arguments, .inl ⟨rfl, rfl⟩, rfl⟩
    | @member _ _ _ word _ _ named stand stands =>
      obtain ⟨stop, arguments⟩ := stand.front (.inl rfl) (word ++ rest)
      exact ⟨_, _, _, _, _, named, by simp, stop, arguments,
        .inr ⟨_, _, rfl, rfl, _, stands, rfl⟩, rfl⟩
  · rintro ⟨segment, mid, mid', names, names', named, rfl, -, ⟨⟨arguments, stand, rfl⟩, -⟩,
      follows, rfl⟩
    rcases follows with ⟨rfl, rfl⟩ | ⟨tail, others, rfl, rfl, word, stands, rfl⟩
    · exact ⟨_, .last named stand, by simp⟩
    · exact ⟨_, .member named stand stands, by simp⟩

/-- A segment, its arguments and what follows them, scanned one after the other. -/
theorem segment_scans {enclosing : List Char} {further : List Char → Scan Unit}
    (known : TakesReferences inner bound) (within : input.length ≤ bound)
    (follows : ∀ segment mid, mid.length < input.length →
      Scans (further segment) mid fun _ => ReadsTail (enclosing ++ segment) mid) :
    Scans (identifier ['<', '.', ';'] >>= fun segment => typeArguments inner >>= fun _ =>
      further segment) input fun _ => Reads (ClassType enclosing) input := by
  refine (Scans.identifier.bind (Q := fun segment mid _ rest found => ∃ mid' names names',
    ReadsArguments mid mid' names ∧ ReadsTail (enclosing ++ segment) mid' rest names' ∧
      found = names ++ names') ?_).of_iff fun _ rest found => ?_
  · rintro segment mid _ ⟨⟨filled, -⟩, split, -, rfl⟩
    have positive := List.length_pos_iff.mpr filled
    have sizes := congrArg List.length split
    rw [List.length_append] at sizes
    have arguments : Scans (typeArguments inner) mid _ := typeArguments_scans known (by omega)
    refine (arguments.bind (Q := fun _ mid' _ => ReadsTail (enclosing ++ segment) mid')
      fun _ mid' names read => ?_).of_iff fun _ _ _ => by simp
    obtain ⟨⟨word, -, split'⟩, -⟩ := read
    have sizes' := congrArg List.length split'
    rw [List.length_append] at sizes'
    exact follows segment mid' (by omega)
  · rw [reads_classType]
    constructor
    · rintro ⟨segment, mid, _, _, ⟨named, split, stop, rfl⟩,
        ⟨mid', names, names', arguments, tail, rfl⟩, rfl⟩
      exact ⟨segment, mid, mid', names, names', named, split, stop, arguments, tail, rfl⟩
    · rintro ⟨segment, mid, mid', names, names', named, split, stop, arguments, tail, rfl⟩
      exact ⟨segment, mid, [], _, ⟨named, split, stop, rfl⟩,
        ⟨mid', names, names', arguments, tail, rfl⟩, rfl⟩

/-- Member classes up to the semicolon; there are no more of them than characters. -/
theorem classTail_scans
    (known : TakesReferences inner bound) (within : input.length ≤ bound) (fuel : Nat)
    (enough : input.length < fuel) (name : List Char) :
    Scans (classTail inner fuel name) input fun _ => ReadsTail name input := by
  induction fuel generalizing input name with
  | zero => exact absurd enough (Nat.not_lt_zero _)
  | succ fuel ih =>
    refine Scans.peek_bind ?_
    split
    next stands =>
      obtain ⟨tail, rfl⟩ := List.head?_eq_some_iff.mp stands
      have inside : tail.length < bound := within
      have members : Scans (identifier ['<', '.', ';'] >>= fun segment =>
          typeArguments inner >>= fun _ => classTail inner fuel (name ++ '$' :: segment)) tail
            fun _ => Reads (ClassType (name ++ ['$'])) tail := by
        refine segment_scans known (Nat.le_of_lt inside) fun segment mid less => ?_
        rw [List.append_assoc]
        exact ih (by omega) (by simp at enough; omega) _
      refine (Scans.report_bind (Scans.advance_bind members)).of_iff fun _ rest found => ?_
      simp [ReadsTail]
    next other =>
      refine (Scans.expect.bind fun _ mid _ _ => Scans.report).of_iff
        fun _ rest found => ?_
      have noMember : ∀ tail, input ≠ '.' :: tail := by
        rintro tail rfl
        exact other rfl
      simp [ReadsTail, noMember]

theorem classType_scans
    (known : TakesReferences inner bound) (within : input.length ≤ bound) :
    Scans (classType inner) input fun _ => Reads (ClassType []) input :=
  segment_scans known within fun segment mid less => Scans.remaining_bind
    (classTail_scans known (by omega) _ (Nat.lt_succ_self _) segment)

end

/-- A reference type is scanned whole; types are not nested deeper than there are characters. -/
theorem referenceUpTo_scans (fuel : Nat) (input : List Char) (enough : input.length < fuel) :
    Scans (referenceUpTo fuel) input fun _ => Reads Reference input := by
  induction fuel generalizing input with
  | zero => exact absurd enough (Nat.not_lt_zero _)
  | succ fuel ih =>
    refine Scans.peek_bind ?_
    cases input with
    | nil => exact Scans.fail (fun _ => by simp) fun _ _ _ => reference_begins.not_reads_nil
    | cons c tail =>
      have inside : tail.length < fuel := Nat.lt_of_succ_lt_succ enough
      have known : TakesReferences (referenceUpTo fuel) tail.length := fun input less =>
        ih input (by omega)
      dsimp only [List.head?_cons]
      split
      next same =>
        cases same
        refine (Scans.advance_bind (classType_scans known le_rfl)).of_iff fun _ rest found => ?_
        simp [reads_reference_cons]
      next same =>
        cases same
        refine (Scans.advance_bind (Scans.identifier.bind fun _ _ _ _ => Scans.expect)).of_iff
          fun _ rest found => ?_
        rw [reads_reference_cons]
        constructor
        · rintro ⟨name, _, _, _, ⟨named, split, -, rfl⟩, ⟨rfl, rfl⟩, rfl⟩
          exact .inr (.inl ⟨rfl, rfl, name, named, split⟩)
        · rintro (⟨impossible, -⟩ | ⟨-, rfl, name, named, rfl⟩ | ⟨impossible, -⟩)
          · simp at impossible
          · exact ⟨name, _, [], [], ⟨named, rfl, by simp, rfl⟩, ⟨rfl, rfl⟩, rfl⟩
          · simp at impossible
      next same =>
        cases same
        refine (Scans.advance_bind (typeSignature_scans (known tail le_rfl))).of_iff
          fun _ rest found => ?_
        simp [reads_reference_cons]
      next noClass noVariable noArray =>
        refine Scans.fail (fun _ => by simp) fun _ rest found reads => ?_
        have first := reference_begins.first reads
        simp only [List.mem_cons, List.not_mem_nil, or_false] at first
        rcases first with rfl | rfl | rfl
        · exact noClass rfl
        · exact noVariable rfl
        · exact noArray rfl

theorem reference_scans (input : List Char) :
    Scans reference input fun _ => Reads Reference input :=
  Scans.remaining_bind (referenceUpTo_scans _ input (Nat.lt_succ_self _))

theorem returnType_scans (input : List Char) :
    Scans returnType input fun _ => Reads ReturnType input := by
  refine Scans.peek_bind ?_
  split
  next stands =>
    obtain ⟨tail, rfl⟩ := List.head?_eq_some_iff.mp stands
    refine Scans.advance.of_iff fun _ rest found => ?_
    have noType : ¬ Reads AnyType ('V' :: tail) rest found := fun reads =>
      absurd (type_begins.first reads) (by decide)
    simp [reads_return_cons, noType]
  next other =>
    refine (typeSignature_scans (reference_scans input)).of_iff fun _ rest found => ?_
    cases input with
    | nil => exact iff_of_false type_begins.not_reads_nil return_begins.not_reads_nil
    | cons c tail =>
      have noVoid : c ≠ 'V' := by
        rintro rfl
        exact other rfl
      simp [reads_return_cons, noVoid]

/-- Where the marks end. -/
def Unmarked (mark : Char) (input rest : List Char) : Prop :=
  rest = input ∧ input.head? ≠ some mark

theorem markedReference_scans {mark : Char} (input : List Char) :
    Scans (markedReference mark) input
      (Round (Unmarked mark) (Reads (Marked mark Reference)) input) := by
  refine Scans.peek_bind ?_
  split
  next stands =>
    obtain ⟨tail, rfl⟩ := List.head?_eq_some_iff.mp stands
    have taken : Scans (advance >>= fun _ => reference) (mark :: tail) fun _ =>
        Reads (Marked mark Reference) (mark :: tail) :=
      (Scans.advance_bind (reference_scans tail)).of_iff fun _ _ _ => by simp [reads_marked_cons]
    rw [← bind_assoc]
    exact round_takes taken fun rest unmarked => unmarked.2 rfl
  next other =>
    refine round_stops (fun rest => ⟨And.left, fun here => ⟨here, other⟩⟩) fun rest found reads => ?_
    cases input with
    | nil => exact marked_begins.not_reads_nil reads
    | cons c tail => exact other (congrArg some (marked_begins.first reads))

/-- Marked reference types in a row, all that there are. -/
theorem markedReferences_scans {mark : Char} (input : List Char) :
    Scans (rounds (markedReference mark)) input fun _ =>
      ReadsUpTo (Marked mark Reference) (Unmarked mark) input :=
  rounds_scans_many marked_begins (fun input _ => markedReference_scans input) le_rfl

theorem parameterOrEnd_scans (input : List Char) :
    Scans (itemOrEnd ')' fun _ => typeSignature reference) input
      (Round (fun input rest => input = ')' :: rest) (Reads AnyType) input) := by
  refine itemOrEnd_scans (fun _ _ => type_begins.not_reads_nil) ?_ ?_
  · intro tail rest found reads
    exact absurd (type_begins.first reads) (by decide)
  · intro _ _ _ _
    exact typeSignature_scans (reference_scans input)

theorem referenceOrEnd_scans (input : List Char) :
    Scans referenceOrEnd input
      (Round (fun input rest => rest = input ∧ input = []) (Reads Reference) input) := by
  refine Scans.remaining_bind ?_
  cases input with
  | nil => exact round_stops (by simp) fun _ _ => reference_begins.not_reads_nil
  | cons c tail => exact round_takes (reference_scans _) (by simp)

/-- The parameters, result and thrown types of a method at the front of a text. -/
def ReadsMethod (input rest : List Char) (found : List String) : Prop :=
  ∃ mid mid' names names' names'',
    ReadsUpTo AnyType (fun input rest => input = ')' :: rest) input mid names ∧
    Reads ReturnType mid mid' names' ∧
    ReadsUpTo (Marked '^' Reference) (Unmarked '^') mid' rest names'' ∧
    found = names ++ (names' ++ names'')

theorem types_scans (input : List Char) : Scans types input fun _ rest found =>
    (∃ tail, input = '(' :: tail ∧ ReadsMethod tail rest found) ∨
      input.head? ≠ some '(' ∧ rest = [] ∧ Many Reference input found := by
  refine Scans.peek_bind ?_
  split
  next stands =>
    obtain ⟨tail, rfl⟩ := List.head?_eq_some_iff.mp stands
    refine (Scans.advance_bind ((rounds_scans_many type_begins (fun input _ =>
      parameterOrEnd_scans input) le_rfl).bind fun _ mid _ _ => (returnType_scans mid).bind
        fun _ mid' _ _ => markedReferences_scans mid')).of_iff fun _ rest found => ?_
    constructor
    · rintro ⟨-, mid, names, _, parameters, ⟨-, mid', names', names'', result, throws, rfl⟩, rfl⟩
      exact .inl ⟨tail, rfl, mid, mid', names, names', names'', parameters, result, throws, rfl⟩
    · rintro (⟨_, same, mid, mid', names, names', names'', parameters, result, throws, rfl⟩ | other)
      · cases same
        exact ⟨(), mid, names, _, parameters, ⟨(), mid', names', names'', result, throws, rfl⟩, rfl⟩
      · exact absurd rfl other.1
  next other =>
    refine (rounds_scans_many reference_begins (fun input _ => referenceOrEnd_scans input)
      le_rfl).of_iff fun _ rest found => ?_
    constructor
    · rintro ⟨_, ⟨word, stand, split⟩, rfl, rfl⟩
      rw [List.append_nil] at split
      exact .inr ⟨other, rfl, split ▸ stand⟩
    · rintro (⟨tail, rfl, -⟩ | ⟨-, rfl, stand⟩)
      · exact absurd rfl other
      · exact ⟨[], ⟨input, stand, (List.append_nil _).symm⟩, rfl, rfl⟩

theorem ending_scans (input : List Char) :
    Scans ending input fun _ rest found => input = [] ∧ rest = [] ∧ found = [] := by
  refine Scans.remaining_bind ?_
  cases input with
  | nil => exact (Scans.pure ()).of_iff fun _ _ _ => by simp
  | cons c tail => exact Scans.fail (fun _ => by simp) (by simp)

/-- Words in a row begin as each of them does. -/
theorem Many.first {rule : List Char → List String → Prop} {firsts : Char → Prop} {word : List Char}
    {names : List String} (begins : Begins rule firsts) (stand : Many rule word names) {c : Char}
    (first : word.head? = some c) : firsts c := by
  cases stand with
  | none => cases first
  | more stands others =>
    obtain ⟨d, tail, rfl, known⟩ := begins stands
    cases first
    exact known

/-- The types of a signature, with nothing behind them. -/
theorem typesToEnd_scans (input : List Char) : Scans (types >>= fun _ => ending) input
    fun _ rest found => rest = [] ∧ Types input found := by
  refine ((types_scans input).bind fun _ mid _ _ => ending_scans mid).of_iff fun _ rest found => ?_
  constructor
  · rintro ⟨-, _, names, _, types, ⟨rfl, rfl, rfl⟩, rfl⟩
    rw [List.append_nil]
    refine ⟨rfl, ?_⟩
    rcases types with ⟨tail, rfl, _, mid', names, names', names'', ⟨_, ⟨word, parameters, rfl⟩, rfl⟩,
      ⟨word', result, rfl⟩, ⟨_, ⟨word'', throws, rfl⟩, rfl, -⟩, rfl⟩ | ⟨-, -, stand⟩
    · rw [List.append_nil]
      exact .method parameters result throws
    · exact .references stand
  · rintro ⟨rfl, types⟩
    refine ⟨(), [], found, [], ?_, ⟨rfl, rfl, rfl⟩, (List.append_nil _).symm⟩
    cases types with
    | method parameters result throws =>
      exact .inl ⟨_, rfl, _, _, _, _, _, ⟨_, ⟨_, parameters, rfl⟩, rfl⟩, ⟨_, result, rfl⟩,
        ⟨[], ⟨_, throws, (List.append_nil _).symm⟩, rfl, by simp⟩, rfl⟩
    | references stand =>
      exact .inr ⟨fun first => absurd (stand.first reference_begins first) (by decide), rfl, stand⟩

/-- A type parameter with its bounds, up to the next one or the closing mark. -/
def ReadsParameter (input rest : List Char) (found : List String) : Prop :=
  ∃ name bounds, Identifier [':'] name ∧ name.head? ≠ some '>' ∧ Bounds bounds found ∧
    (bounds = [] → rest.head? = some '>') ∧ rest.head? ≠ some ':' ∧
    input = name ++ ':' :: (bounds ++ rest)

theorem reads_parameters {input rest : List Char} {found : List String} :
    Reads Parameters input rest found ↔ input = '>' :: rest ∧ found = [] ∨
      ∃ mid names names', ReadsParameter input mid names ∧ Reads Parameters mid rest names' ∧
        found = names ++ names' := by
  constructor
  · rintro ⟨word, stand, rfl⟩
    cases stand with
    | close => exact .inl ⟨rfl, rfl⟩
    | @parameter name bounds words names names' named open' bounded last others =>
      obtain ⟨c, tail, rfl, noColon⟩ := parameters_begin others
      refine .inr ⟨_, names, names', ⟨name, bounds, named, open', bounded, ?_, ?_, ?_⟩,
        ⟨_, others, rfl⟩, rfl⟩
      · exact last
      · simpa using noColon
      · simp
  · rintro (⟨rfl, rfl⟩ | ⟨_, names, names', ⟨name, bounds, named, open', bounded, last, -, rfl⟩,
      ⟨words, others, rfl⟩, rfl⟩)
    · exact ⟨_, .close, rfl⟩
    · obtain ⟨c, tail, rfl, -⟩ := parameters_begin others
      have stand : Parameters (name ++ ':' :: (bounds ++ c :: tail)) (names ++ names') :=
        .parameter named open' bounded last others
      exact ⟨_, stand, by simp⟩

theorem firstBound_scans (input : List Char) : Scans firstBound input fun _ rest found =>
    (input.head? = some ':' ∨ input.head? = some '>') ∧ rest = input ∧ found = [] ∨
      Reads Reference input rest found := by
  refine Scans.peek_bind ?_
  split
  next bounded =>
    exact (reference_scans input).of_iff fun _ _ _ => by simp [bounded]
  next unbounded =>
    have stops : input.head? = some ':' ∨ input.head? = some '>' := by
      simpa [or_iff_not_imp_left] using unbounded
    refine (Scans.pure ()).of_iff fun _ rest found => ?_
    have noReference : ¬ Reads Reference input rest found := by
      intro reads
      cases input with
      | nil => exact reference_begins.not_reads_nil reads
      | cons c tail =>
        have first := reference_begins.first reads
        rcases stops with same | same <;> cases same <;> simp at first
    simp [stops, noReference]

/-- The bounds of a type parameter, all that there are; only before the closing mark there may be
none. -/
theorem bounds_scans (input : List Char) :
    Scans (firstBound >>= fun _ => rounds (markedReference ':')) input fun _ rest found =>
      ∃ bounds, Bounds bounds found ∧ (bounds = [] → rest.head? = some '>') ∧
        rest.head? ≠ some ':' ∧ input = bounds ++ rest := by
  refine ((firstBound_scans input).bind fun _ mid _ _ => markedReferences_scans mid).of_iff
    fun _ rest found => ?_
  constructor
  · rintro ⟨-, mid, names, names', ⟨stops, rfl, rfl⟩ | ⟨word, first, rfl⟩,
      ⟨_, ⟨words, stand, rfl⟩, rfl, last⟩, rfl⟩
    · cases stand with
      | none => exact ⟨[], .none, fun _ => stops.resolve_left last, last, rfl⟩
      | more stands others =>
        exact ⟨_, .further stands others, fun empty => absurd (List.append_eq_nil_iff.mp empty).1
          (marked_begins.ne_nil stands), last, rfl⟩
    · exact ⟨_, .first first stand, fun empty => absurd (List.append_eq_nil_iff.mp empty).1
        (reference_begins.ne_nil first), last, (List.append_assoc ..).symm⟩
  · rintro ⟨bounds, bounded, empty, last, rfl⟩
    cases bounded with
    | none =>
      exact ⟨(), _, [], [], .inl ⟨.inr (empty rfl), rfl, rfl⟩, ⟨_, ⟨[], .none, rfl⟩, rfl, last⟩, rfl⟩
    | first first others =>
      exact ⟨(), _, _, _, .inr ⟨_, first, List.append_assoc ..⟩, ⟨_, ⟨_, others, rfl⟩, rfl, last⟩, rfl⟩
    | further stands others =>
      obtain ⟨c, tail, rfl, rfl⟩ := marked_begins stands
      exact ⟨(), _, [], _, .inl ⟨.inl rfl, rfl, rfl⟩, ⟨_, ⟨_, .more stands others, rfl⟩, rfl, last⟩,
        rfl⟩

/-- A type parameter, scanned where its name begins. -/
theorem typeParameter_scans {input : List Char} (unclosed : input.head? ≠ some '>') :
    Scans typeParameter input fun _ => ReadsParameter input := by
  refine (Scans.identifier.bind fun name mid _ _ => Scans.expect.bind fun _ mid' _ _ =>
    bounds_scans mid').of_iff fun _ rest found => ?_
  constructor
  · rintro ⟨name, _, _, _, ⟨named, rfl, -, rfl⟩,
      ⟨-, _, _, _, ⟨rfl, rfl⟩, ⟨bounds, bounded, empty, last, rfl⟩, rfl⟩, rfl⟩
    refine ⟨name, bounds, named, fun first => unclosed ?_, bounded, empty, last, rfl⟩
    rw [List.head?_append, first, Option.some_or]
  · rintro ⟨name, bounds, named, -, bounded, empty, last, rfl⟩
    exact ⟨name, _, [], found, ⟨named, rfl, ⟨':', by simp⟩, rfl⟩,
      ⟨(), _, [], found, ⟨rfl, rfl⟩, ⟨bounds, bounded, empty, last, rfl⟩, rfl⟩, rfl⟩

theorem ReadsParameter.first {c : Char} {tail rest : List Char} {found : List String}
    (reads : ReadsParameter (c :: tail) rest found) : c ≠ '>' := by
  obtain ⟨name, bounds, named, unclosed, -, -, -, split⟩ := reads
  cases name with
  | nil => exact absurd rfl named.1
  | cons d name =>
    obtain ⟨rfl, -⟩ := List.cons.inj split
    rintro rfl
    exact unclosed rfl

theorem typeParameterOrEnd_scans (input : List Char) :
    Scans (itemOrEnd '>' fun _ => typeParameter) input
      (Round (fun input rest => input = '>' :: rest) ReadsParameter input) := by
  refine itemOrEnd_scans ?_ (fun _ _ _ reads => reads.first rfl) ?_
  · rintro rest found ⟨name, bounds, -, -, -, -, -, split⟩
    simp at split
  · rintro c tail rfl other
    exact typeParameter_scans fun closed => other (Option.some.inj closed)

theorem typeParameters_scans (input : List Char) : Scans typeParameters input fun _ rest found =>
    (∃ tail, input = '<' :: tail ∧ Reads Parameters tail rest found) ∨
      input.head? ≠ some '<' ∧ rest = input ∧ found = [] := by
  refine Scans.peek_bind ?_
  split
  next stands =>
    obtain ⟨tail, rfl⟩ := List.head?_eq_some_iff.mp stands
    refine (Scans.advance_bind (rounds_scans (fun input _ => typeParameterOrEnd_scans input) ?_
      (fun _ _ _ => reads_parameters) le_rfl)).of_iff fun _ _ _ => by simp
    rintro input mid found ⟨name, bounds, -, -, -, -, -, rfl⟩
    simp only [List.length_append, List.length_cons]
    omega
  next other =>
    have noTail : ∀ tail, input ≠ '<' :: tail := by
      rintro tail rfl
      exact other rfl
    exact (Scans.pure ()).of_iff fun _ _ _ => by simp [other, noTail]

/-- Types begin with an opening parenthesis or with a reference type. -/
theorem Types.first {word : List Char} {names : List String} (types : Types word names) {c : Char}
    (first : word.head? = some c) : c ∈ ['(', 'L', 'T', '['] := by
  cases types with
  | method =>
    cases first
    exact List.mem_cons_self
  | references stand => exact List.mem_cons_of_mem _ (stand.first reference_begins first)

/-- A whole signature is a sentence. -/
theorem whole_scans (input : List Char) :
    Scans whole input fun _ rest found => rest = [] ∧ Sentence input found := by
  refine ((typeParameters_scans input).bind fun _ mid _ _ => typesToEnd_scans mid).of_iff
    fun _ rest found => ?_
  constructor
  · rintro ⟨-, mid, names, names', ⟨tail, rfl, ⟨word, parameters, rfl⟩⟩ | ⟨-, rfl, rfl⟩,
      ⟨rfl, types⟩, rfl⟩
    · exact ⟨rfl, .generic parameters types⟩
    · exact ⟨rfl, .plain types⟩
  · rintro ⟨rfl, sentence⟩
    cases sentence with
    | plain types =>
      have noParameters : input.head? ≠ some '<' := fun first =>
        absurd (types.first first) (by decide)
      exact ⟨(), _, [], found, .inr ⟨noParameters, rfl, rfl⟩, ⟨rfl, types⟩, rfl⟩
    | generic parameters types =>
      exact ⟨(), _, _, _, .inl ⟨_, rfl, _, parameters, rfl⟩, ⟨rfl, types⟩, rfl⟩

/-- A signature is understood exactly if it is a sentence of the grammar, and then its class types are
reported in reading order. The scan of any text ends before its bound on rounds and nesting. -/
theorem scan_eq_iff_sentence (signature : String) :
    (∀ names, scan signature = (names, none) ↔ Sentence signature.toList names) ∧
      (scan signature).2 ≠ some ⟨signature, .exhausted⟩ := by
  have scans := whole_scans signature.toList
  constructor
  · intro names
    constructor
    · intro accepted
      rw [scan] at accepted
      generalize ran : whole.run.run ⟨0, signature.toList, []⟩ = result at accepted
      obtain ⟨_ | x, s⟩ := result
      · cases accepted
      · obtain ⟨found, ⟨-, sentence⟩, told⟩ := scans.sound ran
        cases accepted
        rw [told, List.append_nil, List.reverse_reverse]
        exact sentence
    · intro sentence
      obtain ⟨offset, ran⟩ := scans.complete (x := ()) ⟨rfl, sentence⟩ 0 []
      rw [scan, ran]
      simp
  · intro spent
    rw [scan] at spent
    generalize ran : whole.run.run ⟨0, signature.toList, []⟩ = result at spent
    obtain ⟨problem | x, s⟩ := result
    · cases spent
      exact scans.ends ran
    · cases spent

/-- A member class comes after its own arguments, and what encloses it before them. -/
example : scan "Lorg/Outer<TT;>.Inner<Lorg/A;>;" =
    (["org.Outer", "org.A", "org.Outer$Inner"], none) := by rfl

end ClasspathAudit.Signature
