import ClasspathAudit.Proofs.Bytecode.ClassNames
import ClasspathAudit.Proofs.Text.Split

/-!
Method descriptors: the strict reader accepts exactly the words of the grammar, and the lenient scan
cuts each of them at the same places. Field types are taken off the front one at a time (`FieldType`);
no other cut of a text into them is possible.
-/

namespace ClasspathAudit

open Text

/-- A primitive type, a class type, or an array of a field type. -/
inductive FieldType : List Char → Prop where
  | primitive {c} : c ∈ ['B', 'C', 'D', 'F', 'I', 'J', 'S', 'Z'] → FieldType [c]
  | classType {name} : name ≠ [] → ';' ∉ name → FieldType ('L' :: (name ++ [';']))
  | array {type} : FieldType type → FieldType ('[' :: type)

theorem FieldType.first {type : List Char} (stands : FieldType type) :
    ∃ c tail, type = c :: tail ∧ c ≠ ')' := by
  cases stands with
  | primitive simple =>
    refine ⟨_, [], rfl, ?_⟩
    rintro rfl
    simp at simple
  | classType => exact ⟨_, _, rfl, by decide⟩
  | array => exact ⟨_, _, rfl, by decide⟩

/-- What may stand behind the parameters: void or a field type. -/
def IsReturnType (type : List Char) : Prop := type = ['V'] ∨ FieldType type

/-- The class that a field type is made of, in external form. -/
def elementClass? (type : String) : Option String :=
  match type.toList.dropWhile (· = '[') with
  | 'L' :: name => some (ClassName.external (String.ofList name.dropLast))
  | _ => none

namespace Descriptor

theorem isPrimitive_iff {c : Char} :
    isPrimitive c = true ↔ c ∈ ['B', 'C', 'D', 'F', 'I', 'J', 'S', 'Z'] := by
  rw [isPrimitive, List.contains_iff_mem]

/-- The reader takes a field type exactly where one stands. -/
theorem takeFieldType_eq_ok_iff {cs type after : List Char} :
    takeFieldType cs = .ok (type, after) ↔ FieldType type ∧ cs = type ++ after := by
  constructor
  · intro taken
    refine ⟨?_, (takeFieldType_eq_append taken).1⟩
    induction cs generalizing type with
    | nil => cases taken
    | cons c rest ih =>
      rw [takeFieldType] at taken
      split at taken
      next mark =>
        subst mark
        split at taken
        next type' after' inner =>
          cases taken
          exact .array (ih inner)
        next => cases taken
      next =>
        split at taken
        next classMark =>
          split at taken
          next d name after' cut =>
            cases taken
            exact .classType (List.cons_ne_nil d name) (not_mem_of_splitFirst? cut)
          next => cases taken
        next =>
          split at taken
          next simple =>
            cases taken
            exact .primitive (isPrimitive_iff.mp simple)
          next => cases taken
  · rintro ⟨stands, rfl⟩
    induction stands with
    | @primitive c simple =>
      have noMark : c ≠ '[' ∧ c ≠ 'L' := by
        constructor <;> rintro rfl <;> simp at simple
      rw [List.singleton_append, takeFieldType, if_neg noMark.1, if_neg noMark.2,
        if_pos (isPrimitive_iff.mpr simple)]
    | @classType name filled free =>
      obtain ⟨d, name, rfl⟩ := List.exists_cons_of_ne_nil filled
      have cut := splitFirst?_append free after
      rw [List.cons_append, List.append_assoc, List.singleton_append, takeFieldType,
        if_neg (by decide), if_pos rfl, cut]
      rfl
    | array _ ih => rw [List.cons_append, takeFieldType, if_pos rfl, ih]

/-- The reader takes field types up to the first parenthesis that stands where one could begin. -/
theorem takeParameters_eq_ok_iff {cs last : List Char} {types : List (List Char)} :
    takeParameters cs = .ok (types, last) ↔
      (∀ type ∈ types, FieldType type) ∧ cs = types.flatten ++ ')' :: last := by
  constructor
  · intro taken
    fun_induction takeParameters cs generalizing types with
    | case1 => cases taken
    | case2 =>
      cases taken
      exact ⟨fun _ => (absurd · List.not_mem_nil), rfl⟩
    | case3 => cases taken
    | case4 c rest _ type after first _ types last _ ih =>
      cases taken
      obtain ⟨stands, split⟩ := takeFieldType_eq_ok_iff.mp first
      obtain ⟨stand, split'⟩ := ih ‹_›
      refine ⟨List.forall_mem_cons.mpr ⟨stands, stand⟩, ?_⟩
      rw [split, split', List.flatten_cons, List.append_assoc]
    | case5 => cases taken
  · rintro ⟨stand, rfl⟩
    induction types with
    | nil => rw [List.flatten_nil, List.nil_append, takeParameters, if_pos rfl]
    | cons type types ih =>
      obtain ⟨stands, others⟩ := List.forall_mem_cons.mp stand
      rw [List.flatten_cons, List.append_assoc]
      have first : takeFieldType (type ++ (types.flatten ++ ')' :: last)) =
          .ok (type, types.flatten ++ ')' :: last) := takeFieldType_eq_ok_iff.mpr ⟨stands, rfl⟩
      obtain ⟨c, tail, rfl, noEnd⟩ := stands.first
      rw [List.cons_append] at first ⊢
      rw [takeParameters, if_neg noEnd]
      split
      next failed =>
        rw [first] at failed
        cases failed
      next taken =>
        rw [first] at taken
        cases taken
        rw [ih others]

/-- The scan takes a field type as a whole and reports the class in it. -/
theorem scanFrom_fieldType {type : List Char} (stands : FieldType type) (rest : List Char) :
    scanFrom none (type ++ rest) =
      ((elementClass? (String.ofList type)).toList ++ (scanFrom none rest).1,
        (scanFrom none rest).2) := by
  induction stands with
  | @primitive c simple =>
    have plain : isPlain c = true := by
      rw [isPlain, isPrimitive_iff.mpr simple, Bool.or_true]
    have noMark : c ≠ '[' ∧ c ≠ 'L' := by
      constructor <;> rintro rfl <;> simp at simple
    rw [List.singleton_append, scanFrom, if_neg noMark.2, if_pos plain]
    simp [elementClass?, noMark]
  | @classType name filled free =>
    rw [List.cons_append, List.append_assoc, List.singleton_append, scanFrom, if_pos rfl,
      scanFrom_name name [] rest free (.inl filled)]
    simp [elementClass?]
  | array _ ih =>
    rw [List.cons_append, scanFrom, if_neg (by decide), if_pos (by decide), ih]
    simp [elementClass?]

theorem scanFrom_fieldTypes {types : List (List Char)} (stand : ∀ type ∈ types, FieldType type)
    (rest : List Char) :
    scanFrom none (types.flatten ++ rest) =
      ((types.map String.ofList).filterMap elementClass? ++ (scanFrom none rest).1,
        (scanFrom none rest).2) := by
  induction types with
  | nil => rfl
  | cons type types ih =>
    obtain ⟨stands, stand⟩ := List.forall_mem_cons.mp stand
    rw [List.flatten_cons, List.append_assoc, scanFrom_fieldType stands, ih stand]
    cases found : elementClass? (String.ofList type) <;> simp [found]

theorem scanFrom_returnType {type : List Char} (stands : IsReturnType type) :
    scanFrom none type = ((elementClass? (String.ofList type)).toList, none) := by
  rcases stands with rfl | stands
  · rfl
  · have scanned := scanFrom_fieldType stands []
    rwa [List.append_nil, scanFrom, List.append_nil] at scanned

end Descriptor

namespace MethodDescriptor

open Descriptor

theorem isReturnType_iff {cs : List Char} : isReturnType cs = true ↔ IsReturnType cs := by
  rw [isReturnType, Bool.or_eq_true, beq_iff_eq]
  refine or_congr_right ?_
  split
  next type after taken =>
    obtain ⟨stands, rfl⟩ := takeFieldType_eq_ok_iff.mp taken
    constructor
    · intro done
      rwa [List.isEmpty_iff.mp done, List.append_nil]
    · intro whole
      have all : takeFieldType (type ++ after) = .ok (type ++ after, []) :=
        takeFieldType_eq_ok_iff.mpr ⟨whole, (List.append_nil _).symm⟩
      rw [all] at taken
      have done : [] = after := congrArg Prod.snd (Except.ok.inj taken)
      rw [← done, List.isEmpty_nil]
  next failed =>
    refine iff_of_false Bool.false_ne_true fun whole => ?_
    rw [takeFieldType_eq_ok_iff.mpr ⟨whole, (List.append_nil cs).symm⟩] at failed
    cases failed

/-- A method descriptor with its parameter and return types. -/
def Describes (descriptor : List Char) (parameters : List (List Char)) (result : List Char) : Prop :=
  (∀ type ∈ parameters, FieldType type) ∧ IsReturnType result ∧
    descriptor = '(' :: (parameters.flatten ++ ')' :: result)

theorem Describes.long {descriptor : String} {parameters : List (List Char)} {result : List Char}
    (describes : Describes descriptor.toList parameters result) : 3 ≤ descriptor.utf8ByteSize := by
  obtain ⟨-, returned, chars⟩ := describes
  have parts : descriptor =
      "(" ++ String.ofList parameters.flatten ++ ")" ++ String.ofList result := by
    apply String.toList_inj.mp
    simp [chars]
  have filled : (String.ofList result).utf8ByteSize ≠ 0 := by
    rw [ne_eq, String.utf8ByteSize_eq_zero_iff, String.ofList_eq_empty_iff]
    rintro rfl
    rcases returned with impossible | stands
    · cases impossible
    · cases stands
  rw [parts]
  simp only [String.utf8ByteSize_append]
  have opening : "(".utf8ByteSize = 1 := rfl
  have closing : ")".utf8ByteSize = 1 := rfl
  omega

theorem parse_eq_ok_iff {descriptor : String} {m : MethodDescriptor} :
    parse descriptor = .ok m ↔ ∃ parameters result, Describes descriptor.toList parameters result ∧
      m = ⟨parameters.map String.ofList, String.ofList result⟩ := by
  constructor
  · intro parsed
    rw [parse] at parsed
    split at parsed
    next rest chars =>
      split at parsed
      · cases parsed
      · split at parsed
        · cases parsed
        · cases parsed
        next parameters result taken =>
          split at parsed
          next returned =>
            cases parsed
            obtain ⟨stand, rfl⟩ := takeParameters_eq_ok_iff.mp taken
            exact ⟨parameters, result, ⟨stand, isReturnType_iff.mp returned, chars⟩, rfl⟩
          next => cases parsed
    next => cases parsed
  · rintro ⟨parameters, result, describes, rfl⟩
    have long : ¬ descriptor.utf8ByteSize < 3 := Nat.not_lt.mpr describes.long
    obtain ⟨stand, returned, chars⟩ := describes
    simp only [parse, chars, if_neg long, takeParameters_eq_ok_iff.mpr ⟨stand, rfl⟩,
      if_pos (isReturnType_iff.mpr returned)]

/-- The strict reader accepts exactly the grammar, and what it returns are the parts of the descriptor;
the scan of that descriptor succeeds too and reports the classes of those parts. -/
theorem parse_exact (descriptor : String) :
    ((∃ m, parse descriptor = .ok m) ↔
      ∃ parameters result, Describes descriptor.toList parameters result) ∧
    ∀ m, parse descriptor = .ok m →
      descriptor = "(" ++ String.join m.parameters ++ ")" ++ m.returnType ∧
      (∀ type ∈ m.parameters, FieldType type.toList) ∧ IsReturnType m.returnType.toList ∧
      Descriptor.scan descriptor =
        ((m.parameters ++ [m.returnType]).filterMap elementClass?, none) := by
  constructor
  · constructor
    · rintro ⟨m, parsed⟩
      obtain ⟨parameters, result, describes, -⟩ := parse_eq_ok_iff.mp parsed
      exact ⟨parameters, result, describes⟩
    · rintro ⟨parameters, result, describes⟩
      exact ⟨_, parse_eq_ok_iff.mpr ⟨parameters, result, describes, rfl⟩⟩
  · intro m parsed
    obtain ⟨parameters, result, ⟨stand, returned, chars⟩, rfl⟩ := parse_eq_ok_iff.mp parsed
    refine ⟨?_, ?_, ?_, ?_⟩
    · apply String.toList_inj.mp
      rw [chars]
      simp [List.flatMap_map]
    · intro type member
      obtain ⟨cs, inside, rfl⟩ := List.mem_map.mp member
      rw [String.toList_ofList]
      exact stand cs inside
    · rwa [String.toList_ofList]
    · have scanned : scanFrom none descriptor.toList =
          ((parameters.map String.ofList).filterMap elementClass? ++
            (elementClass? (String.ofList result)).toList, none) := by
        rw [chars, scanFrom, if_neg (by decide), if_pos (by decide), scanFrom_fieldTypes stand,
          scanFrom, if_neg (by decide), if_pos (by decide), scanFrom_returnType returned]
      have last : [String.ofList result].filterMap elementClass? =
          (elementClass? (String.ofList result)).toList := by
        cases found : elementClass? (String.ofList result) <;> simp [found]
      simp only [Descriptor.scan, scanned, List.filterMap_append, last, Option.map_none]

end MethodDescriptor

end ClasspathAudit
