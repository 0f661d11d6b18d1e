import ClasspathAudit.Model.ClassName
import ClasspathAudit.Text.Quote
import ClasspathAudit.Text.Utf8

/-!
Type descriptors. A lenient scan collects the class types of any descriptor; a strict reader splits a
method descriptor into its parameter and return types.
-/

namespace ClasspathAudit

open Text

/-- A descriptor that is not understood, with the character at fault where there is one. -/
structure DescriptorFault where
  descriptor : String
  unexpected : Option Char
deriving DecidableEq, Repr

def DescriptorFault.message (fault : DescriptorFault) : String :=
  "invalid descriptor " ++ quote fault.descriptor ++
    match fault.unexpected with
    | some c => ": unexpected " ++ quoteByte (leadByte c)
    | none => ""

namespace Descriptor

def isPrimitive (c : Char) : Bool :=
  ['B', 'C', 'D', 'F', 'I', 'J', 'S', 'Z'].contains c

/-- What the scan passes over: array marks, parentheses, void and the primitive types. -/
def isPlain (c : Char) : Bool :=
  ['[', '(', ')', 'V'].contains c || isPrimitive c

/-- The class types met so far and, where the scan stopped early, the character in its way. Inside a
class type the first argument holds the name read so far, backwards. -/
def scanFrom : Option (List Char) → List Char → List String × Option (Option Char)
  | none, [] => ([], none)
  | some _, [] => ([], some none)
  | none, c :: rest =>
    if c = 'L' then scanFrom (some []) rest
    else if isPlain c then scanFrom none rest
    else ([], some (some c))
  | some name, c :: rest =>
    if c ≠ ';' then scanFrom (some (c :: name)) rest
    else if name.isEmpty then ([], some none)
    else
      let (names, stop) := scanFrom none rest
      (ClassName.external (String.ofList name.reverse) :: names, stop)

/-- The class types of a descriptor in order, and the fault that ended the scan. -/
def scan (descriptor : String) : List String × Option DescriptorFault :=
  let (names, stop) := scanFrom none descriptor.toList
  (names, stop.map fun unexpected => { descriptor, unexpected })

/-- Splits a field type off the front; an error names the character in its way. -/
def takeFieldType : List Char → Except (Option Char) (List Char × List Char)
  | [] => .error none
  | c :: rest =>
    if c = '[' then
      match takeFieldType rest with
      | .ok (type, after) => .ok ('[' :: type, after)
      | .error stop => .error stop
    else if c = 'L' then
      match splitFirst? ';' rest with
      | some (d :: name, after) => .ok ('L' :: d :: name ++ [';'], after)
      | _ => .error none
    else if isPrimitive c then .ok ([c], rest)
    else .error (some c)

theorem takeFieldType_eq_append {cs type after : List Char}
    (h : takeFieldType cs = .ok (type, after)) : cs = type ++ after ∧ type ≠ [] := by
  induction cs generalizing type with
  | nil => simp [takeFieldType] at h
  | cons c rest ih =>
    simp only [takeFieldType] at h
    split at h
    · next hc =>
      split at h
      · next t a ht => cases h; simp [hc, (ih ht).1]
      · simp at h
    · split at h
      · next hc =>
        split at h
        · next d n a hs => cases h; simp [hc, splitFirst?_eq_append hs]
        · simp at h
      · split at h
        · cases h; simp
        · simp at h

/-- The parameter types up to the closing parenthesis, and the text after it. -/
def takeParameters (cs : List Char) : Except (Option (Option Char)) (List (List Char) × List Char) :=
  match cs with
  | [] => .error none
  | c :: rest =>
    if c = ')' then .ok ([], rest)
    else match h : takeFieldType (c :: rest) with
      | .error stop => .error (some stop)
      | .ok (type, after) =>
        have shorter : after.length < (c :: rest).length := by
          obtain ⟨split, nonempty⟩ := takeFieldType_eq_append h
          have total := congrArg List.length split
          have positive : 0 < type.length := List.length_pos_iff.2 nonempty
          rw [List.length_append] at total
          omega
        match takeParameters after with
        | .ok (types, last) => .ok (type :: types, last)
        | .error stop => .error stop
termination_by cs.length
decreasing_by exact shorter

end Descriptor

/-- A method descriptor taken apart. -/
structure MethodDescriptor where
  parameters : List String
  returnType : String
deriving DecidableEq, Repr

namespace MethodDescriptor

/-- Why a text is no method descriptor. -/
inductive Fault where
  | shape (descriptor : String)
  | parameter (fault : DescriptorFault)
  | missingParenthesis (descriptor : String)
  | returnType (descriptor : String)
deriving DecidableEq, Repr

def Fault.message : Fault → String
  | shape d => "invalid method descriptor " ++ quote d
  | parameter fault => fault.message
  | missingParenthesis d => "invalid method descriptor " ++ quote d ++ ": missing " ++ quoteChar ')'
  | returnType d => "invalid method descriptor " ++ quote d ++ ": bad return type"

def isReturnType (cs : List Char) : Bool :=
  cs == ['V'] || match Descriptor.takeFieldType cs with
    | .ok (_, after) => after.isEmpty
    | .error _ => false

def parse (descriptor : String) : Except Fault MethodDescriptor :=
  match descriptor.toList with
  | '(' :: rest =>
    if descriptor.utf8ByteSize < 3 then .error (.shape descriptor)
    else match Descriptor.takeParameters rest with
      | .error none => .error (.missingParenthesis descriptor)
      | .error (some unexpected) => .error (.parameter { descriptor, unexpected })
      | .ok (types, last) =>
        if isReturnType last then .ok ⟨types.map String.ofList, String.ofList last⟩
        else .error (.returnType descriptor)
  | _ => .error (.shape descriptor)

end MethodDescriptor

namespace Descriptor

/-- The source form of a type without array marks. -/
def elementName : List Char → String
  | ['B'] => "byte"
  | ['C'] => "char"
  | ['D'] => "double"
  | ['F'] => "float"
  | ['I'] => "int"
  | ['J'] => "long"
  | ['S'] => "short"
  | ['Z'] => "boolean"
  | ['V'] => "void"
  | cs => ClassName.external (dropEnding ";" (dropStart "L" (String.ofList cs)))

/-- The source form of a field descriptor, with a pair of brackets for each array dimension. -/
def typeName (descriptor : String) : String :=
  let cs := descriptor.toList
  let marks := cs.takeWhile (· = '[')
  elementName (cs.dropWhile (· = '[')) ++ String.join (marks.map fun _ => "[]")

end Descriptor

end ClasspathAudit
