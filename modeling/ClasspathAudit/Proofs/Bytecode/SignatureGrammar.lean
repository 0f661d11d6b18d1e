import ClasspathAudit.Bytecode.Signature
import Mathlib.Tactic

/-!
The grammar of generic signatures. Each rule relates a word to the class types in it, in the order in
which they are read. A word stands in front of whatever follows it (`Reads`), and the first character
tells which rule it was built by.
-/

namespace ClasspathAudit.Signature

/-- Words in a row, with the class types of all of them. -/
inductive Many (item : List Char → List String → Prop) : List Char → List String → Prop where
  | none : Many item [] []
  | more {word words names names'} :
      item word names → Many item words names' → Many item (word ++ words) (names ++ names')

/-- A word with a mark in front of it. -/
inductive Marked (mark : Char) (item : List Char → List String → Prop) :
    List Char → List String → Prop where
  | mk {word names} : item word names → Marked mark item (mark :: word) names

/-- A name that ends where one of `stops` stands. -/
def Identifier (stops name : List Char) : Prop :=
  name ≠ [] ∧ ∀ c ∈ name, c ∉ stops

mutual

/-- A class type, a type variable or an array. -/
inductive Reference : List Char → List String → Prop where
  | classType {word names} : ClassType [] word names → Reference ('L' :: word) names
  | typeVariable {name} : Identifier [';'] name → Reference ('T' :: (name ++ [';'])) []
  | array {word names} : AnyType word names → Reference ('[' :: word) names

inductive AnyType : List Char → List String → Prop where
  | primitive {c} : c ∈ ['B', 'C', 'D', 'F', 'I', 'J', 'S', 'Z'] → AnyType [c] []
  | reference {word names} : Reference word names → AnyType word names

/-- The segments of a class type behind those of `enclosing`, each with its type arguments. A segment
is named together with what encloses it, and after the class types among its arguments. -/
inductive ClassType : List Char → List Char → List String → Prop where
  | last {enclosing segment arguments names} :
      Identifier ['<', '.', ';'] segment → Arguments arguments names →
      ClassType enclosing (segment ++ (arguments ++ [';']))
        (names ++ [ClassName.external (String.ofList (enclosing ++ segment))])
  | member {enclosing segment arguments word names names'} :
      Identifier ['<', '.', ';'] segment → Arguments arguments names →
      ClassType (enclosing ++ segment ++ ['$']) word names' →
      ClassType enclosing (segment ++ (arguments ++ '.' :: word))
        (names ++ ClassName.external (String.ofList (enclosing ++ segment)) :: names')

/-- Type arguments, or nothing. -/
inductive Arguments : List Char → List String → Prop where
  | none : Arguments [] []
  | list {word names} : Many Argument word names → Arguments ('<' :: (word ++ ['>'])) names

inductive Argument : List Char → List String → Prop where
  | wildcard : Argument ['*'] []
  | bounded {mark word names} : mark ∈ ['+', '-'] → Reference word names →
      Argument (mark :: word) names
  | exact {word names} : Reference word names → Argument word names

end

/-- The bounds of a type parameter. -/
inductive Bounds : List Char → List String → Prop where
  | none : Bounds [] []
  | first {word words names names'} :
      Reference word names → Many (Marked ':' Reference) words names' →
      Bounds (word ++ words) (names ++ names')
  | further {word words names names'} :
      Marked ':' Reference word names → Many (Marked ':' Reference) words names' →
      Bounds (word ++ words) (names ++ names')

/-- Type parameters up to the closing mark. Only the last one may be without bounds. -/
inductive Parameters : List Char → List String → Prop where
  | close : Parameters ['>'] []
  | parameter {name bounds words names names'} :
      Identifier [':'] name → name.head? ≠ some '>' → Bounds bounds names →
      (bounds = [] → words.head? = some '>') → Parameters words names' →
      Parameters (name ++ ':' :: (bounds ++ words)) (names ++ names')

inductive ReturnType : List Char → List String → Prop where
  | void : ReturnType ['V'] []
  | type {word names} : AnyType word names → ReturnType word names

/-- The types of a method, or else reference types in a row. -/
inductive Types : List Char → List String → Prop where
  | method {parameters result throws names names' names''} :
      Many AnyType parameters names → ReturnType result names' →
      Many (Marked '^' Reference) throws names'' →
      Types ('(' :: (parameters ++ ')' :: (result ++ throws))) (names ++ (names' ++ names''))
  | references {word names} : Many Reference word names → Types word names

/-- A whole signature, with its class types in reading order. -/
inductive Sentence : List Char → List String → Prop where
  | plain {word names} : Types word names → Sentence word names
  | generic {parameters word names names'} :
      Parameters parameters names → Types word names' →
      Sentence ('<' :: (parameters ++ word)) (names ++ names')

/-- A word of some rule at the front of a text, and what is left behind it. -/
def Reads (rule : List Char → List String → Prop) (input rest : List Char) (found : List String) :
    Prop :=
  ∃ word, rule word found ∧ input = word ++ rest

/-- Words of some rule in a row, and then a stop. -/
def ReadsUpTo (rule : List Char → List String → Prop) (stop : List Char → List Char → Prop)
    (input rest : List Char) (found : List String) : Prop :=
  ∃ mid, Reads (Many rule) input mid found ∧ stop mid rest

/-- Every word of a rule begins with one of the characters. -/
def Begins (rule : List Char → List String → Prop) (firsts : Char → Prop) : Prop :=
  ∀ {word names}, rule word names → ∃ c tail, word = c :: tail ∧ firsts c

section

variable {c : Char} {input rest tail word : List Char} {found names : List String}
variable {rule : List Char → List String → Prop} {firsts : Char → Prop}

theorem Begins.ne_nil (begins : Begins rule firsts) (stands : rule word names) : word ≠ [] := by
  obtain ⟨c, tail, rfl, -⟩ := begins stands
  exact List.cons_ne_nil c tail

theorem Begins.not_reads_nil (begins : Begins rule firsts) : ¬ Reads rule [] rest found := by
  rintro ⟨word, stands, split⟩
  obtain ⟨c, tail, rfl, -⟩ := begins stands
  cases split

theorem Begins.first (begins : Begins rule firsts) (reads : Reads rule (c :: tail) rest found) :
    firsts c := by
  obtain ⟨word, stands, split⟩ := reads
  obtain ⟨d, others, rfl, first⟩ := begins stands
  obtain ⟨rfl, -⟩ := List.cons.inj split
  exact first

theorem Begins.shorter (begins : Begins rule firsts) (reads : Reads rule input rest found) :
    rest.length < input.length := by
  obtain ⟨word, stands, rfl⟩ := reads
  have positive := List.length_pos_iff.mpr (begins.ne_nil stands)
  rw [List.length_append]
  omega

end

theorem Identifier.first {stops name rest : List Char} (named : Identifier stops name) :
    ∃ c tail, name ++ rest = c :: tail ∧ c ∉ stops := by
  obtain ⟨filled, free⟩ := named
  cases name with
  | nil => exact absurd rfl filled
  | cons c name => exact ⟨c, name ++ rest, rfl, free c List.mem_cons_self⟩

theorem reference_begins : Begins Reference (· ∈ ['L', 'T', '[']) := by
  intro word names stands
  cases stands with
  | classType => exact ⟨_, _, rfl, by simp⟩
  | typeVariable => exact ⟨_, _, rfl, by simp⟩
  | array => exact ⟨_, _, rfl, by simp⟩

theorem type_begins : Begins AnyType
    (· ∈ ['B', 'C', 'D', 'F', 'I', 'J', 'S', 'Z', 'L', 'T', '[']) := by
  intro word names stands
  cases stands with
  | primitive simple => exact ⟨_, [], rfl, List.mem_append_left ['L', 'T', '['] simple⟩
  | reference stands =>
    obtain ⟨c, tail, rfl, first⟩ := reference_begins stands
    exact ⟨c, tail, rfl, List.mem_append_right ['B', 'C', 'D', 'F', 'I', 'J', 'S', 'Z'] first⟩

theorem return_begins : Begins ReturnType
    (· ∈ ['V', 'B', 'C', 'D', 'F', 'I', 'J', 'S', 'Z', 'L', 'T', '[']) := by
  intro word names stands
  cases stands with
  | void => exact ⟨_, _, rfl, by simp⟩
  | type stands =>
    obtain ⟨c, tail, rfl, first⟩ := type_begins stands
    exact ⟨c, tail, rfl, List.mem_cons_of_mem 'V' first⟩

theorem argument_begins : Begins Argument (· ∈ ['*', '+', '-', 'L', 'T', '[']) := by
  intro word names stands
  cases stands with
  | wildcard => exact ⟨_, _, rfl, by simp⟩
  | bounded marked => exact ⟨_, _, rfl, List.mem_cons_of_mem '*' (List.mem_append_left _ marked)⟩
  | exact stands =>
    obtain ⟨c, tail, rfl, first⟩ := reference_begins stands
    exact ⟨c, tail, rfl, List.mem_append_right ['*', '+', '-'] first⟩

theorem marked_begins {mark : Char} {rule : List Char → List String → Prop} :
    Begins (Marked mark rule) (· = mark) := by
  rintro _ _ ⟨⟩
  exact ⟨_, _, rfl, rfl⟩

/-- What is left of type parameters begins with their closing mark or with the name of one. -/
theorem parameters_begin : Begins Parameters (· ≠ ':') := by
  intro word names stand
  cases stand with
  | close => exact ⟨_, _, rfl, by simp⟩
  | parameter named _ _ _ _ =>
    obtain ⟨c, tail, same, free⟩ := named.first
    exact ⟨c, tail, same, by simpa using free⟩

section

variable {c : Char} {input rest tail : List Char} {found : List String}
variable {item : List Char → List String → Prop}

/-- The first character of a reference type tells which one it is. -/
theorem reads_reference_cons : Reads Reference (c :: tail) rest found ↔
    c = 'L' ∧ Reads (ClassType []) tail rest found ∨
      c = 'T' ∧ found = [] ∧ (∃ name, Identifier [';'] name ∧ tail = name ++ ';' :: rest) ∨
      c = '[' ∧ Reads AnyType tail rest found := by
  constructor
  · rintro ⟨word, stands, split⟩
    cases stands with
    | classType stands =>
      obtain ⟨rfl, rfl⟩ := List.cons.inj split
      exact .inl ⟨rfl, _, stands, rfl⟩
    | typeVariable named =>
      obtain ⟨rfl, rfl⟩ := List.cons.inj split
      exact .inr (.inl ⟨rfl, rfl, _, named, by simp⟩)
    | array stands =>
      obtain ⟨rfl, rfl⟩ := List.cons.inj split
      exact .inr (.inr ⟨rfl, _, stands, rfl⟩)
  · rintro (⟨rfl, word, stands, rfl⟩ | ⟨rfl, rfl, name, named, rfl⟩ | ⟨rfl, word, stands, rfl⟩)
    · exact ⟨_, .classType stands, rfl⟩
    · exact ⟨_, .typeVariable named, by simp⟩
    · exact ⟨_, .array stands, rfl⟩

theorem reads_type_cons : Reads AnyType (c :: tail) rest found ↔
    c ∈ ['B', 'C', 'D', 'F', 'I', 'J', 'S', 'Z'] ∧ rest = tail ∧ found = [] ∨
      Reads Reference (c :: tail) rest found := by
  constructor
  · rintro ⟨word, stands, split⟩
    cases stands with
    | primitive simple =>
      obtain ⟨rfl, rfl⟩ := List.cons.inj split
      exact .inl ⟨simple, rfl, rfl⟩
    | reference stands => exact .inr ⟨word, stands, split⟩
  · rintro (⟨simple, rfl, rfl⟩ | ⟨word, stands, split⟩)
    · exact ⟨_, .primitive simple, rfl⟩
    · exact ⟨word, .reference stands, split⟩

theorem reads_argument_cons : Reads Argument (c :: tail) rest found ↔
    c = '*' ∧ rest = tail ∧ found = [] ∨
      c ∈ ['+', '-'] ∧ Reads Reference tail rest found ∨ Reads Reference (c :: tail) rest found := by
  constructor
  · rintro ⟨word, stands, split⟩
    cases stands with
    | wildcard =>
      obtain ⟨rfl, rfl⟩ := List.cons.inj split
      exact .inl ⟨rfl, rfl, rfl⟩
    | bounded marked stands =>
      obtain ⟨rfl, rfl⟩ := List.cons.inj split
      exact .inr (.inl ⟨marked, _, stands, rfl⟩)
    | exact stands => exact .inr (.inr ⟨word, stands, split⟩)
  · rintro (⟨rfl, rfl, rfl⟩ | ⟨marked, word, stands, rfl⟩ | ⟨word, stands, split⟩)
    · exact ⟨_, .wildcard, rfl⟩
    · exact ⟨_, .bounded marked stands, rfl⟩
    · exact ⟨word, .exact stands, split⟩

theorem reads_marked_cons {mark : Char} : Reads (Marked mark item) (c :: tail) rest found ↔
    c = mark ∧ Reads item tail rest found := by
  constructor
  · rintro ⟨word, ⟨stands⟩, split⟩
    obtain ⟨rfl, rfl⟩ := List.cons.inj split
    exact ⟨rfl, _, stands, rfl⟩
  · rintro ⟨rfl, word, stands, rfl⟩
    exact ⟨_, .mk stands, rfl⟩

/-- Words in a row are none at all, or a first one and the others. -/
theorem reads_many : Reads (Many item) input rest found ↔
    rest = input ∧ found = [] ∨
      ∃ mid names names', Reads item input mid names ∧ Reads (Many item) mid rest names' ∧
        found = names ++ names' := by
  constructor
  · rintro ⟨word, stands, rfl⟩
    cases stands with
    | none => exact .inl ⟨rfl, rfl⟩
    | more first others =>
      exact .inr ⟨_, _, _, ⟨_, first, List.append_assoc ..⟩, ⟨_, others, rfl⟩, rfl⟩
  · rintro (⟨rfl, rfl⟩ | ⟨mid, names, names', ⟨word, first, rfl⟩, ⟨words, others, rfl⟩, rfl⟩)
    · exact ⟨[], .none, rfl⟩
    · exact ⟨_, .more first others, (List.append_assoc ..).symm⟩

theorem readsUpTo_iff {stop : List Char → List Char → Prop} :
    ReadsUpTo item stop input rest found ↔ stop input rest ∧ found = [] ∨
      ∃ mid names names', Reads item input mid names ∧ ReadsUpTo item stop mid rest names' ∧
        found = names ++ names' := by
  constructor
  · rintro ⟨mid, reads, stops⟩
    rcases reads_many.mp reads with ⟨rfl, rfl⟩ | ⟨between, names, names', first, others, rfl⟩
    · exact .inl ⟨stops, rfl⟩
    · exact .inr ⟨between, names, names', first, ⟨mid, others, stops⟩, rfl⟩
  · rintro (⟨stops, rfl⟩ | ⟨between, names, names', first, ⟨mid, others, stops⟩, rfl⟩)
    · exact ⟨input, reads_many.mpr (.inl ⟨rfl, rfl⟩), stops⟩
    · exact ⟨mid, reads_many.mpr (.inr ⟨between, names, names', first, others, rfl⟩), stops⟩

theorem reads_return_cons : Reads ReturnType (c :: tail) rest found ↔
    c = 'V' ∧ rest = tail ∧ found = [] ∨ Reads AnyType (c :: tail) rest found := by
  constructor
  · rintro ⟨word, stands, split⟩
    cases stands with
    | void =>
      obtain ⟨rfl, rfl⟩ := List.cons.inj split
      exact .inl ⟨rfl, rfl, rfl⟩
    | type stands => exact .inr ⟨word, stands, split⟩
  · rintro (⟨rfl, rfl, rfl⟩ | ⟨word, stands, split⟩)
    · exact ⟨_, .void, rfl⟩
    · exact ⟨word, .type stands, split⟩

end

end ClasspathAudit.Signature
