import ClasspathAudit.Bytecode.Descriptor

/-!
Generic signatures of classes, methods and fields. The scan reports every class type in reading
order, the type arguments of a class before the class itself, and stops at the first fault.
-/

namespace ClasspathAudit.Signature

open Text

/-- Why a signature is not understood; offsets count bytes. -/
inductive Problem where
  | expected (mark : Char) (offset : Nat)
  | missing (mark : Char)
  | unexpected (found : Option Char) (offset : Nat)
  | trailing (offset : Nat)
  | identifier (offset : Nat)
  /-- The bound on rounds and nesting is used up; no signature brings this about. -/
  | exhausted
deriving DecidableEq, Repr

def Problem.message : Problem → String
  | expected mark offset => s!"expected {quoteChar mark} at {offset}"
  | missing mark => s!"missing {quoteChar mark}"
  | unexpected found offset => s!"unexpected {quoteByte ((found.map leadByte).getD 0)} at {offset}"
  | trailing offset => s!"trailing data at {offset}"
  | identifier offset => s!"invalid identifier at {offset}"
  | exhausted => "too many rounds"

structure Fault where
  signature : String
  problem : Problem
deriving DecidableEq, Repr

def Fault.message (fault : Fault) : String :=
  "invalid signature " ++ quote fault.signature ++ ": " ++ fault.problem.message

/-- The place of the scan and the names reported so far, latest first. -/
structure State where
  offset : Nat
  rest : List Char
  names : List String

abbrev Scan := ExceptT Problem (StateM State)

/-- The characters that are left. -/
def remaining : Scan (List Char) := do return (← get).rest

def peek : Scan (Option Char) := do return (← remaining).head?

def fail {α : Type} (problem : Nat → Problem) : Scan α := do throw (problem (← get).offset)

def advance : Scan Unit :=
  modify fun s => match s.rest with
    | [] => s
    | c :: rest => { s with offset := s.offset + c.utf8Size, rest }

def expect (mark : Char) : Scan Unit := do
  if (← peek) = some mark then advance else fail (.expected mark)

def report (name : List Char) : Scan Unit :=
  modify fun s => { s with names := ClassName.external (String.ofList name) :: s.names }

/-- A non-empty run of characters before one of `stops`, which has to follow. -/
def identifier (stops : List Char) : Scan (List Char) := do
  let s ← get
  let name := s.rest.takeWhile (!stops.contains ·)
  let rest := s.rest.dropWhile (!stops.contains ·)
  if name.isEmpty || rest.isEmpty then fail .identifier
  else
    set { s with offset := s.offset + byteCount name, rest }
    return name

/-- Repeats a step while it asks for more; the fuel bounds the number of rounds. -/
def roundsUpTo : Nat → Scan Bool → Scan Unit
  | 0, _ => throw .exhausted
  | fuel + 1, step => do if ← step then roundsUpTo fuel step

/-- Repeats a step that consumes a character each time it asks for more. -/
def rounds (step : Scan Bool) : Scan Unit := do
  roundsUpTo ((← remaining).length + 1) step

/-- One more item of a list, or the mark that closes the list. -/
def itemOrEnd (mark : Char) (item : Char → Scan Unit) : Scan Bool := do
  match ← peek with
  | none => throw (.missing mark)
  | some c =>
    if c = mark then
      advance
      return false
    else
      item c
      return true

/-- A primitive type, or else a reference type. -/
def typeSignature (reference : Scan Unit) : Scan Unit := do
  match ← peek with
  | some c => if Descriptor.isPrimitive c then advance else reference
  | none => reference

/-- A wildcard, or a reference type that may have a mark in front of it. A zero byte is taken for the
end of the text. -/
def typeArgument (reference : Scan Unit) (first : Char) : Scan Unit := do
  if first.toNat = 0 then throw (.missing '>')
  else if first = '*' then advance
  else if first = '+' ∨ first = '-' then
    advance
    reference
  else reference

/-- Type arguments, where there are any. -/
def typeArguments (reference : Scan Unit) : Scan Unit := do
  if (← peek) = some '<' then
    advance
    rounds (itemOrEnd '>' (typeArgument reference))

/-- What follows the first segment of a class type: member classes up to the semicolon. -/
def classTail (reference : Scan Unit) : Nat → List Char → Scan Unit
  | 0, _ => throw .exhausted
  | fuel + 1, name => do
    if (← peek) = some '.' then
      report name
      advance
      let inner ← identifier ['<', '.', ';']
      typeArguments reference
      classTail reference fuel (name ++ '$' :: inner)
    else
      expect ';'
      report name

def classType (reference : Scan Unit) : Scan Unit := do
  let name ← identifier ['<', '.', ';']
  typeArguments reference
  classTail reference ((← remaining).length + 1) name

/-- A class type, a type variable or an array; the fuel bounds how deep types are nested. -/
def referenceUpTo : Nat → Scan Unit
  | 0 => throw .exhausted
  | fuel + 1 => do
    match ← peek with
    | some 'L' => advance; classType (referenceUpTo fuel)
    | some 'T' => advance; let _ ← identifier [';']; expect ';'
    | some '[' => advance; typeSignature (referenceUpTo fuel)
    | found => fail (.unexpected found)

/-- A reference type; each level of nesting consumes a character. -/
def reference : Scan Unit := do
  referenceUpTo ((← remaining).length + 1)

/-- A reference type behind a mark, where the mark stands. -/
def markedReference (mark : Char) : Scan Bool := do
  if (← peek) = some mark then
    advance
    reference
    return true
  else return false

/-- The bound of a type parameter that comes first, which may be left out. -/
def firstBound : Scan Unit := do
  let next ← peek
  if next ≠ some ':' ∧ next ≠ some '>' then reference

def typeParameter : Scan Unit := do
  let _ ← identifier [':']
  expect ':'
  firstBound
  rounds (markedReference ':')

/-- Type parameters, where there are any. -/
def typeParameters : Scan Unit := do
  if (← peek) = some '<' then
    advance
    rounds (itemOrEnd '>' fun _ => typeParameter)

def returnType : Scan Unit := do
  if (← peek) = some 'V' then advance else typeSignature reference

def referenceOrEnd : Scan Bool := do
  if (← remaining).isEmpty then return false
  else
    reference
    return true

/-- The types of a method, or else the reference types of a class or field. -/
def types : Scan Unit := do
  if (← peek) = some '(' then
    advance
    rounds (itemOrEnd ')' fun _ => typeSignature reference)
    returnType
    rounds (markedReference '^')
  else rounds referenceOrEnd

def ending : Scan Unit := do
  if !(← remaining).isEmpty then fail .trailing

def whole : Scan Unit := do
  typeParameters
  types
  ending

/-- The class types of a signature in order, and the fault that ended the scan. -/
def scan (signature : String) : List String × Option Fault :=
  let (result, s) := whole.run.run { offset := 0, rest := signature.toList, names := [] }
  (s.names.reverse, match result with
    | .ok _ => none
    | .error problem => some { signature, problem })

end ClasspathAudit.Signature
