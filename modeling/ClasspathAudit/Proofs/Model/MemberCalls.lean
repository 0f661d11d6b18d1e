import ClasspathAudit.Proofs.Bytecode.MethodDescriptors
import ClasspathAudit.Proofs.Graph.MemberSearch
import ClasspathAudit.Proofs.Model.ReleaseLayers

/-!
Classes built member by member. Members are found through an index of their names and descriptors run
together, and two different members can have such a key in common: a name may end with what begins the
other's descriptor. A lookup is exact where no such stray member was added behind the last one that was
asked for. Methods are safe from strays if no name has an opening parenthesis in it, fields if no class
type has a second `L`, or a bracket, in front of its first slash.
-/

namespace ClasspathAudit

open Text

/-- The two sorts of members, each with an index of its own. -/
inductive MemberSort where
  | method
  | field
deriving DecidableEq, Repr

/-- Members in the order in which they were added, and under each key the place of the last one. -/
structure MemberTable where
  members : List Member
  place? : String → Option Nat
  within : ∀ key place, place? key = some place → place < members.length

/-- A member is added to a class. -/
structure MemberCall where
  sort : MemberSort
  member : Member
deriving DecidableEq, Repr

namespace MemberTable

def empty : MemberTable where
  members := []
  place? _ := none
  within := nofun

def add (table : MemberTable) (member : Member) : MemberTable where
  members := table.members ++ [member]
  place? key := if member.signature = key then some table.members.length else table.place? key
  within key place found := by
    rw [List.length_append, List.length_singleton]
    split at found
    · cases found
      exact Nat.lt_succ_self _
    · exact Nat.lt_succ_of_lt (table.within key place found)

/-- The member at the place that the index gives. -/
def get? (table : MemberTable) (name descriptor : String) : Option Member :=
  (table.place? (name ++ descriptor)).bind fun place => table.members[place]?

theorem get?_add (table : MemberTable) (member : Member) (name descriptor : String) :
    (table.add member).get? name descriptor =
      (if member.signature = name ++ descriptor then some member else none).or
        (table.get? name descriptor) := by
  by_cases hit : member.signature = name ++ descriptor
  · simp [get?, add, hit]
  · cases found : table.place? (name ++ descriptor) with
    | none => simp [get?, add, hit, found]
    | some place =>
      have inside := table.within _ place found
      simp [get?, add, hit, found, List.getElem?_append_left inside]

theorem memberNamed?_add (table : MemberTable) (member : Member) (name descriptor : String) :
    JavaClass.memberNamed? (table.add member).members name descriptor =
      (if member.signature = name ++ descriptor then some member else none).or
        (JavaClass.memberNamed? table.members name descriptor) := by
  by_cases hit : member.signature = name ++ descriptor
  · simp [JavaClass.memberNamed?, add, hit]
  · simp [JavaClass.memberNamed?, add, hit]

end MemberTable

namespace MemberCall

def run (tables : MemberSort → MemberTable) (call : MemberCall) : MemberSort → MemberTable :=
  Function.update tables call.sort ((tables call.sort).add call.member)

/-- The members that calls add to a class without any. -/
def runAll (calls : List MemberCall) : MemberSort → MemberTable :=
  calls.foldl run fun _ => .empty

section

variable (sort : MemberSort) (name descriptor : String)

/-- The call adds the member of this name and descriptor. -/
def Adds (call : MemberCall) : Prop :=
  call.sort = sort ∧ call.member.name = name ∧ call.member.descriptor = descriptor

/-- The call adds another member, of the same key. -/
def Strays (call : MemberCall) : Prop :=
  call.sort = sort ∧ call.member.signature = name ++ descriptor ∧ ¬ call.Adds sort name descriptor

instance (call : MemberCall) : Decidable (call.Adds sort name descriptor) :=
  inferInstanceAs (Decidable (_ ∧ _ ∧ _))

instance (call : MemberCall) : Decidable (call.Strays sort name descriptor) :=
  inferInstanceAs (Decidable (_ ∧ _ ∧ ¬ _))

def named? (call : MemberCall) : Option Member :=
  if call.Adds sort name descriptor then some call.member else none

def keyed? (call : MemberCall) : Option Member :=
  if call.Adds sort name descriptor ∨ call.Strays sort name descriptor then some call.member else none

/-- The member of this name and descriptor that was added last. -/
def lastNamed? (calls : List MemberCall) : Option Member :=
  lastAnswer? (named? sort name descriptor) calls

/-- A stray member was added, and behind it none of this name and descriptor. -/
def Shadowed (calls : List MemberCall) : Prop :=
  ∃ before call behind, calls = before ++ call :: behind ∧ call.Strays sort name descriptor ∧
    ∀ later ∈ behind, ¬ later.Adds sort name descriptor

end

section

variable {sort : MemberSort} {name descriptor : String} {call : MemberCall} {calls : List MemberCall}

theorem named?_eq_some_iff {member : Member} : call.named? sort name descriptor = some member ↔
    call.Adds sort name descriptor ∧ call.member = member := by
  simp [named?]

theorem key_iff : call.Adds sort name descriptor ∨ call.Strays sort name descriptor ↔
    call.sort = sort ∧ call.member.signature = name ++ descriptor := by
  constructor
  · rintro (⟨same, rfl, rfl⟩ | ⟨same, key, -⟩)
    · exact ⟨same, rfl⟩
    · exact ⟨same, key⟩
  · rintro ⟨same, key⟩
    by_cases adds : call.Adds sort name descriptor
    · exact .inl adds
    · exact .inr ⟨same, key, adds⟩

theorem keyed?_eq_some_iff {member : Member} : call.keyed? sort name descriptor = some member ↔
    (call.sort = sort ∧ call.member.signature = name ++ descriptor) ∧ call.member = member := by
  rw [← key_iff]
  simp [keyed?]

/-- What answers for every member as it is added, by its key, answers in the end for the last of the key:
each call changes the table of its own sort only. -/
theorem read_runAll (read : MemberTable → Option Member) (fresh : read .empty = none)
    (adding : ∀ table member, read (table.add member) =
      (if member.signature = name ++ descriptor then some member else none).or (read table))
    (calls : List MemberCall) :
    read (runAll calls sort) = lastAnswer? (keyed? sort name descriptor) calls := by
  have step : ∀ (tables : MemberSort → MemberTable) (call : MemberCall),
      read (run tables call sort) = (call.keyed? sort name descriptor).or (read (tables sort)) := by
    intro tables call
    simp only [run, keyed?, key_iff]
    by_cases same : call.sort = sort
    · subst same
      simp [adding]
    · simp [same, Function.update_of_ne (Ne.symm same)]
  have all := read_foldl (fun tables : MemberSort → MemberTable => read (tables sort)) step calls
  rw [runAll, all, fresh]
  exact Option.or_none

/-- The index finds the last member of the key. -/
theorem get?_runAll (calls : List MemberCall) : (runAll calls sort).get? name descriptor =
    lastAnswer? (keyed? sort name descriptor) calls :=
  read_runAll (fun table => table.get? name descriptor) rfl
    (fun table member => table.get?_add member name descriptor) calls

theorem memberNamed?_runAll (calls : List MemberCall) :
    JavaClass.memberNamed? (runAll calls sort).members name descriptor =
      lastAnswer? (keyed? sort name descriptor) calls :=
  read_runAll (fun table => JavaClass.memberNamed? table.members name descriptor) rfl
    (fun table member => table.memberNamed?_add member name descriptor) calls

theorem lastNamed?_eq_none_iff : lastNamed? sort name descriptor calls = none ↔
    ∀ call ∈ calls, ¬ call.Adds sort name descriptor := by
  rw [lastNamed?, lastAnswer?_eq_none_iff]
  simp [named?]

theorem lastNamed?_eq_none_of_keyed
    (silent : lastAnswer? (keyed? sort name descriptor) calls = none) :
    lastNamed? sort name descriptor calls = none := by
  apply lastNamed?_eq_none_iff.mpr
  intro call inside adds
  have quiet := lastAnswer?_eq_none_iff.mp silent call inside
  rw [keyed?, if_pos (.inl adds)] at quiet
  cases quiet

theorem shadowed_cons : Shadowed sort name descriptor (call :: calls) ↔
    Shadowed sort name descriptor calls ∨
      (call.Strays sort name descriptor ∧ lastNamed? sort name descriptor calls = none) := by
  rw [lastNamed?_eq_none_iff]
  constructor
  · rintro ⟨before, stray, behind, cut, strays, last⟩
    cases before with
    | nil =>
      cases cut
      exact .inr ⟨strays, last⟩
    | cons first before =>
      cases cut
      exact .inl ⟨before, stray, behind, rfl, strays, last⟩
  · rintro (⟨before, stray, behind, rfl, strays, last⟩ | ⟨strays, last⟩)
    · exact ⟨call :: before, stray, behind, rfl, strays, last⟩
    · exact ⟨[], call, calls, rfl, strays, last⟩

/-- The last member of the key is the one asked for, unless a stray shadows it. -/
theorem lastKeyed?_eq_iff (calls : List MemberCall) :
    lastAnswer? (keyed? sort name descriptor) calls = lastNamed? sort name descriptor calls ↔
      ¬ Shadowed sort name descriptor calls := by
  induction calls with
  | nil => simp [lastAnswer?, lastNamed?, Shadowed]
  | cons call calls ih =>
    rw [shadowed_cons, lastAnswer?_cons, lastNamed?, lastAnswer?_cons, ← lastNamed?]
    cases named : lastNamed? sort name descriptor calls with
    | some m =>
      -- An earlier call makes no difference: its key has a last member behind it.
      obtain ⟨k, keyed⟩ : ∃ k, lastAnswer? (keyed? sort name descriptor) calls = some k := by
        apply Option.ne_none_iff_exists'.mp
        intro silent
        have missing := lastNamed?_eq_none_of_keyed silent
        rw [named] at missing
        cases missing
      rw [named, keyed] at ih
      simpa [keyed] using ih
    | none =>
      rw [named] at ih
      cases keyed : lastAnswer? (keyed? sort name descriptor) calls with
      | some k =>
        rw [keyed] at ih
        have shadowed : Shadowed sort name descriptor calls := by
          by_contra clear
          cases ih.mpr clear
        have apart : some k ≠ call.named? sort name descriptor := by
          intro same
          obtain ⟨adds, rfl⟩ := named?_eq_some_iff.mp same.symm
          obtain ⟨later, inside, answer⟩ := exists_of_lastAnswer? keyed
          obtain ⟨key, same⟩ := keyed?_eq_some_iff.mp answer
          exact lastNamed?_eq_none_iff.mp named later inside ⟨key.1, same ▸ adds.2⟩
        simp [shadowed, apart]
      | none =>
        have clear : ¬ Shadowed sort name descriptor calls := ih.mp keyed
        by_cases adds : call.Adds sort name descriptor
        · simp [keyed?, named?, adds, clear, Strays]
        · simp [keyed?, named?, adds, clear]

end

end MemberCall

/-- A name that the class-file format allows for members. -/
structure LegalName (name : String) : Prop where
  filled : name ≠ ""
  noDot : '.' ∉ name.toList
  noSemicolon : ';' ∉ name.toList
  noBracket : '[' ∉ name.toList
  noSlash : '/' ∉ name.toList

namespace MemberSort

/-- The descriptors of the sort. -/
def Describes : MemberSort → List Char → Prop
  | method, descriptor => ∃ parameters result, MethodDescriptor.Describes descriptor parameters result
  | field, descriptor => FieldType descriptor

/-- What keeps a member from sharing its key: a method's name without an opening parenthesis, a field's
descriptor other than a class type with a second `L` or a bracket in front of its first slash. -/
def Apart : MemberSort → String → String → Prop
  | method, name, _ => '(' ∉ name.toList
  | field, _, descriptor => ∀ type, descriptor.toList = 'L' :: type →
      ∀ c ∈ type.takeWhile (· ≠ '/'), c ≠ 'L' ∧ c ≠ '['

/-- A member that a class file can declare. -/
def Legal (sort : MemberSort) (name descriptor : String) : Prop :=
  LegalName name ∧ sort.Describes descriptor.toList

end MemberSort

section

variable {extra rest : List Char}

/-- A name that ends with the beginning of a method descriptor has its parenthesis. -/
theorem parenthesis_of_method (filled : extra ≠ [])
    (whole : MemberSort.method.Describes (extra ++ rest)) : '(' ∈ extra := by
  obtain ⟨parameters, result, -, -, chars⟩ := whole
  obtain ⟨c, extra, rfl⟩ := List.exists_cons_of_ne_nil filled
  obtain ⟨rfl, -⟩ := List.cons.inj chars
  exact List.mem_cons_self

theorem mem_firstSegment {c : Char} (free : '/' ∉ extra) (other : c ≠ '/') :
    c ∈ (extra ++ c :: rest).takeWhile (· ≠ '/') := by
  have all : ∀ d ∈ extra, decide (d ≠ '/') = true := by
    intro d member
    apply decide_eq_true
    rintro rfl
    exact free member
  rw [List.takeWhile_append_of_pos all]
  simp [other]

/-- A field type that ends with another one, and begins with neither a bracket nor a slash up to there, is
a class type with the other's mark in the first segment of its name. -/
theorem mark_of_fieldType (filled : extra ≠ []) (free : '/' ∉ extra) (plain : '[' ∉ extra)
    (whole : FieldType (extra ++ rest)) (last : FieldType rest) :
    ∃ type, extra ++ rest = 'L' :: type ∧ ∃ c ∈ type.takeWhile (· ≠ '/'), c = 'L' ∨ c = '[' := by
  obtain ⟨c, extra, rfl⟩ := List.exists_cons_of_ne_nil filled
  have free' : '/' ∉ extra := fun member => free (List.mem_cons_of_mem c member)
  obtain ⟨first, tail, shape, -⟩ := last.first
  generalize same : c :: extra ++ rest = text at whole
  cases whole with
  | primitive simple => simp [shape] at same
  | array inner =>
    obtain ⟨rfl, -⟩ := List.cons.inj same
    exact absurd List.mem_cons_self plain
  | @classType name named ended =>
    obtain ⟨rfl, tails⟩ := List.cons.inj same
    have cut : extra ++ rest = name ++ [';'] := tails
    refine ⟨name ++ [';'], rfl, ?_⟩
    rw [← cut]
    cases last with
    | @primitive p simple =>
      obtain ⟨-, ends⟩ := List.append_inj' cut rfl
      cases ends
      simp at simple
    | classType => exact ⟨'L', mem_firstSegment free' (by decide), .inl rfl⟩
    | array => exact ⟨'[', mem_firstSegment free' (by decide), .inr rfl⟩

end

namespace MemberSort

variable {sort : MemberSort} {name descriptor name' descriptor' : String}

/-- The name of one member cannot go on into the descriptor of another, if both keep apart. -/
theorem eq_nil_of_overlap {extra : List Char} (legal : sort.Legal name descriptor)
    (legal' : sort.Legal name' descriptor') (apart : sort.Apart name descriptor)
    (apart' : sort.Apart name' descriptor') (names : name'.toList = name.toList ++ extra)
    (descriptors : descriptor.toList = extra ++ descriptor'.toList) : extra = [] := by
  by_contra filled
  obtain ⟨named, last⟩ := legal'
  have whole := legal.2
  rw [descriptors] at whole
  cases sort with
  | method =>
    apply apart'
    rw [names]
    exact List.mem_append_right _ (parenthesis_of_method filled whole)
  | field =>
    have free : '/' ∉ extra := fun member => named.noSlash (names ▸ List.mem_append_right _ member)
    have plain : '[' ∉ extra := fun member => named.noBracket (names ▸ List.mem_append_right _ member)
    obtain ⟨type, shape, c, inside, mark⟩ := mark_of_fieldType filled free plain whole last
    obtain ⟨noClass, noArray⟩ := apart type (descriptors.trans shape) c inside
    exact mark.elim noClass noArray

/-- Members that keep apart have keys of their own. -/
theorem signature_injective (legal : sort.Legal name descriptor)
    (legal' : sort.Legal name' descriptor') (apart : sort.Apart name descriptor)
    (apart' : sort.Apart name' descriptor') (same : name ++ descriptor = name' ++ descriptor') :
    name = name' ∧ descriptor = descriptor' := by
  rw [← String.toList_inj, String.toList_append, String.toList_append, List.append_eq_append_iff] at same
  rw [← String.toList_inj, ← String.toList_inj]
  rcases same with ⟨extra, names, descriptors⟩ | ⟨extra, names, descriptors⟩
  · obtain rfl := eq_nil_of_overlap legal legal' apart apart' names descriptors
    simp [names, descriptors]
  · obtain rfl := eq_nil_of_overlap legal' legal apart' apart names descriptors
    simp [names, descriptors]

end MemberSort

namespace JavaClass

/-- The class with the members that calls add. -/
def built (c : JavaClass) (calls : List MemberCall) : JavaClass :=
  { c with methods := (MemberCall.runAll calls .method).members
           fields := (MemberCall.runAll calls .field).members }

/-- The member that the class gives for a name and a descriptor. -/
def memberOf? (c : JavaClass) : MemberSort → String → String → Option Member
  | .method => c.method?
  | .field => c.field?

theorem memberOf?_built (c : JavaClass) (calls : List MemberCall) (sort : MemberSort)
    (name descriptor : String) : (c.built calls).memberOf? sort name descriptor =
      lastAnswer? (MemberCall.keyed? sort name descriptor) calls := by
  cases sort with
  | method => exact MemberCall.memberNamed?_runAll calls
  | field => exact MemberCall.memberNamed?_runAll calls

/-- A lookup in a class, whatever calls built it, gives what its index gives. It never misses a member, and
it gives the one added last under the name and descriptor unless a stray of the same key was added
behind that; there are no strays among members that keep apart. -/
theorem built_lookups (c : JavaClass) (calls : List MemberCall)
    (legal : ∀ call ∈ calls, call.sort.Legal call.member.name call.member.descriptor)
    (sort : MemberSort) (name descriptor : String) (asked : sort.Legal name descriptor) :
    (c.built calls).memberOf? sort name descriptor =
      (MemberCall.runAll calls sort).get? name descriptor ∧
    ((c.built calls).memberOf? sort name descriptor = none →
      MemberCall.lastNamed? sort name descriptor calls = none) ∧
    ((c.built calls).memberOf? sort name descriptor = MemberCall.lastNamed? sort name descriptor calls ↔
      ¬ MemberCall.Shadowed sort name descriptor calls) ∧
    (sort.Apart name descriptor →
      (∀ call ∈ calls, call.sort = sort → sort.Apart call.member.name call.member.descriptor) →
      (c.built calls).memberOf? sort name descriptor =
        MemberCall.lastNamed? sort name descriptor calls) := by
  rw [memberOf?_built, MemberCall.get?_runAll]
  refine ⟨rfl, MemberCall.lastNamed?_eq_none_of_keyed, MemberCall.lastKeyed?_eq_iff calls, ?_⟩
  intro apart allApart
  apply (MemberCall.lastKeyed?_eq_iff calls).mpr
  rintro ⟨before, stray, behind, rfl, ⟨rfl, key, other⟩, -⟩
  have inside : stray ∈ before ++ stray :: behind := List.mem_append_right _ List.mem_cons_self
  exact other ⟨rfl, MemberSort.signature_injective (legal stray inside) asked (allApart stray inside rfl)
    apart key⟩

/-- A method in two overloads, one of them added twice, and a field of the same name. -/
def overloads : List MemberCall :=
  [⟨.method, ⟨"run", "(I)V", .isPrivate⟩⟩, ⟨.method, ⟨"run", "()V", .isPublic⟩⟩,
    ⟨.field, ⟨"run", "I", .isPublic⟩⟩, ⟨.method, ⟨"run", "(I)V", .isPublic⟩⟩]

theorem built_lookups_overloads :
    (∀ call ∈ overloads, call.sort.Legal call.member.name call.member.descriptor) ∧
    MemberSort.method.Legal "run" "(I)V" ∧ MemberSort.method.Apart "run" "(I)V" ∧
    (∀ call ∈ overloads, call.sort = .method →
      MemberSort.method.Apart call.member.name call.member.descriptor) ∧
    ((Graph.bareClass "app.Main" ClassName.object []).built overloads).memberOf? .method "run" "(I)V" =
      some ⟨"run", "(I)V", .isPublic⟩ := by
  have int : FieldType ['I'] := .primitive (by decide)
  have name : LegalName "run" := by constructor <;> decide
  have plain : MemberSort.method.Legal "run" "()V" := ⟨name, [], ['V'], by simp, .inl rfl, rfl⟩
  have counted : MemberSort.method.Legal "run" "(I)V" :=
    ⟨name, [['I']], ['V'], by simpa using int, .inl rfl, rfl⟩
  have number : MemberSort.field.Legal "run" "I" := ⟨name, int⟩
  have legal : ∀ call ∈ overloads, call.sort.Legal call.member.name call.member.descriptor := by
    simp [overloads, plain, counted, number]
  have apart : MemberSort.method.Apart "run" "(I)V" := by
    show '(' ∉ "run".toList
    decide
  have allApart : ∀ call ∈ overloads, call.sort = .method →
      MemberSort.method.Apart call.member.name call.member.descriptor := by
    show ∀ call ∈ overloads, call.sort = .method → '(' ∉ call.member.name.toList
    decide
  refine ⟨legal, counted, apart, allApart, ?_⟩
  obtain ⟨-, -, -, exactly⟩ := built_lookups (Graph.bareClass "app.Main" ClassName.object []) overloads
    legal .method "run" "(I)V" counted
  rw [exactly apart allApart]
  decide

/-- Lookups of a sort give the member added last under the name and descriptor. -/
def LookupsExact (sort : MemberSort) : Prop :=
  ∀ (c : JavaClass) (calls : List MemberCall),
    (∀ call ∈ calls, call.sort.Legal call.member.name call.member.descriptor) →
    ∀ name descriptor, sort.Legal name descriptor →
      (c.built calls).memberOf? sort name descriptor =
        MemberCall.lastNamed? sort name descriptor calls

/-- A method `m(La` is found when `m` is asked for, and a field `xLa` when `x` is. -/
theorem built_lookups_stray : ¬ LookupsExact .method ∧ ¬ LookupsExact .field := by
  have short : FieldType "Lb;".toList := @FieldType.classType ['b'] (by decide) (by decide)
  constructor
  · intro exactly
    have long : FieldType "La(Lb;".toList := @FieldType.classType "a(Lb".toList (by decide) (by decide)
    have name : LegalName "m(La" := by constructor <;> decide
    have name' : LegalName "m" := by constructor <;> decide
    have added : MemberSort.method.Legal "m(La" "(Lb;)V" :=
      ⟨name, ["Lb;".toList], ['V'], by simpa using short, .inl rfl, rfl⟩
    have asked : MemberSort.method.Legal "m" "(La(Lb;)V" :=
      ⟨name', ["La(Lb;".toList], ['V'], by simpa using long, .inl rfl, rfl⟩
    have answer := exactly (Graph.bareClass "lib.Base" ClassName.object [])
      [⟨.method, ⟨"m(La", "(Lb;)V", .isPublic⟩⟩] (by simpa using added) _ _ asked
    exact absurd answer (by decide)
  · intro exactly
    have long : FieldType "LaLb;".toList := @FieldType.classType "aLb".toList (by decide) (by decide)
    have name : LegalName "xLa" := by constructor <;> decide
    have name' : LegalName "x" := by constructor <;> decide
    have added : MemberSort.field.Legal "xLa" "Lb;" := ⟨name, short⟩
    have asked : MemberSort.field.Legal "x" "LaLb;" := ⟨name', long⟩
    have answer := exactly (Graph.bareClass "lib.Base" ClassName.object [])
      [⟨.field, ⟨"xLa", "Lb;", .isPublic⟩⟩] (by simpa using added) _ _ asked
    exact absurd answer (by decide)

end JavaClass

end ClasspathAudit
