import ClasspathAudit.Json.Value
import ClasspathAudit.Text.Hex
import ClasspathAudit.Text.Letter
import ClasspathAudit.Text.Utf8

/-!
Reading JSON text. The grammar is strict: no control characters in strings, no leading zeros, nothing
after the document but white space. A surrogate escape without partner reads as the replacement
character.
-/

namespace ClasspathAudit.Json

open Text

def isSpace (c : Char) : Bool := c = ' ' || c = '\t' || c = '\r' || c = '\n'

def skipSpace (cs : List Char) : List Char := cs.dropWhile isSpace

def hexFour? (a b c d : Char) : Option Nat := do
  return (((← hexValue? a) * 16 + (← hexValue? b)) * 16 + (← hexValue? c)) * 16 + (← hexValue? d)

def simpleEscape? : Char → Option Char
  | '\x22' => some '\x22'
  | '\\' => some '\\'
  | '/' => some '/'
  | 'b' => some '\x08'
  | 'f' => some '\x0c'
  | 'n' => some '\n'
  | 'r' => some '\r'
  | 't' => some '\t'
  | _ => none

/-- A code unit where the one before may have been a high surrogate. -/
def joinUnit (pending : Option Nat) (unit : Nat) : List Char × Option Nat :=
  let lone := match pending with
    | some _ => [replacement]
    | none => []
  if 0xD800 ≤ unit ∧ unit < 0xDC00 then (lone, some unit)
  else if 0xDC00 ≤ unit ∧ unit < 0xE000 then
    match pending with
    | some high => ([Char.ofNat (0x10000 + (high - 0xD800) * 0x400 + (unit - 0xDC00))], none)
    | none => ([replacement], none)
  else (lone ++ [Char.ofNat unit], none)

/-- The rest of a string literal after its opening quote: its characters, backwards, and what follows
it. A high surrogate waits for its partner. -/
def stringTail (done : List Char) (pending : Option Nat) : List Char → Option (List Char × List Char)
  | [] => none
  | '\\' :: 'u' :: a :: b :: c :: d :: rest =>
    match hexFour? a b c d with
    | some unit =>
      let (chars, pending) := joinUnit pending unit
      stringTail (chars.reverse ++ done) pending rest
    | none => none
  | '\\' :: e :: rest =>
    match simpleEscape? e with
    | some c => stringTail ((joinUnit pending c.toNat).1.reverse ++ done) none rest
    | none => none
  | c :: rest =>
    let done := match pending with
      | some _ => replacement :: done
      | none => done
    if c = '\x22' then some (done, rest)
    else if c.toNat < 0x20 ∨ c = '\\' then none
    else stringTail (c :: done) none rest

def digits (cs : List Char) : List Char × List Char :=
  (cs.takeWhile isDigit, cs.dropWhile isDigit)

/-- At least one digit. -/
def someDigits (cs : List Char) : Option (List Char × List Char) :=
  match digits cs with
  | ([], _) => none
  | found => some found

def fraction : List Char → Option (List Char × List Char)
  | '.' :: rest => (someDigits rest).map fun (ds, rest) => ('.' :: ds, rest)
  | cs => some ([], cs)

def exponent : List Char → Option (List Char × List Char)
  | e :: rest =>
    if e = 'e' ∨ e = 'E' then
      match rest with
      | s :: more =>
        if s = '+' ∨ s = '-' then (someDigits more).map fun (ds, rest) => (e :: s :: ds, rest)
        else (someDigits rest).map fun (ds, rest) => (e :: ds, rest)
      | [] => none
    else some ([], e :: rest)
  | [] => some ([], [])

/-- The sign in front of a number, if it has one. -/
def numberSign : List Char → List Char × List Char
  | '-' :: rest => (['-'], rest)
  | cs => ([], cs)

/-- The digits before the point: a single zero, or digits that start with another one. -/
def wholePart : List Char → Option (List Char × List Char)
  | '0' :: rest => some (['0'], rest)
  | cs => someDigits cs

def numberLiteral (cs : List Char) : Option (List Char × List Char) := do
  let (sign, body) := numberSign cs
  let (whole, rest) ← wholePart body
  let (part, rest) ← fraction rest
  let (power, rest) ← exponent rest
  return (sign ++ whole ++ part ++ power, rest)

def keyword? (word : String) (value : Json) (cs : List Char) : Option (Json × List Char) :=
  if word.toList.isPrefixOf cs then some (value, cs.drop word.length) else none

/-- The items of an array after its opening bracket or after a comma. -/
def itemsUpTo (value : List Char → Option (Json × List Char)) :
    Nat → List Char → Option (List Json × List Char)
  | 0, _ => none
  | fuel + 1, cs => do
    let (item, rest) ← value cs
    match skipSpace rest with
    | ',' :: rest =>
      let (items, rest) ← itemsUpTo value fuel rest
      return (item :: items, rest)
    | ']' :: rest => return ([item], rest)
    | _ => none

/-- The fields of an object after its opening brace or after a comma. -/
def fieldsUpTo (value : List Char → Option (Json × List Char)) :
    Nat → List Char → Option (List (String × Json) × List Char)
  | 0, _ => none
  | fuel + 1, cs => do
    let '\x22' :: rest := skipSpace cs | none
    let (name, rest) ← stringTail [] none rest
    let ':' :: rest := skipSpace rest | none
    let (item, rest) ← value rest
    let field := (String.ofList name.reverse, item)
    match skipSpace rest with
    | ',' :: rest =>
      let (fields, rest) ← fieldsUpTo value fuel rest
      return (field :: fields, rest)
    | '}' :: rest => return ([field], rest)
    | _ => none

/-- A value and what follows it; the fuel bounds how deep values are nested. -/
def valueUpTo : Nat → List Char → Option (Json × List Char)
  | 0, _ => none
  | fuel + 1, cs =>
    match skipSpace cs with
    | [] => none
    | '\x22' :: rest => (stringTail [] none rest).map fun (s, rest) =>
        (.string (String.ofList s.reverse), rest)
    | '[' :: rest =>
      match skipSpace rest with
      | ']' :: rest => some (.array [], rest)
      | _ => (itemsUpTo (valueUpTo fuel) rest.length rest).map fun (items, rest) =>
          (.array items, rest)
    | '{' :: rest =>
      match skipSpace rest with
      | '}' :: rest => some (.object [], rest)
      | _ => (fieldsUpTo (valueUpTo fuel) rest.length rest).map fun (fields, rest) =>
          (.object fields, rest)
    | 't' :: rest => keyword? "true" (.bool true) ('t' :: rest)
    | 'f' :: rest => keyword? "false" (.bool false) ('f' :: rest)
    | 'n' :: rest => keyword? "null" .null ('n' :: rest)
    | c :: rest => (numberLiteral (c :: rest)).map fun (ds, rest) => (.number (String.ofList ds), rest)

/-- How deep arrays and objects may be nested. -/
def maxDepth : Nat := 10000

/-- The first document of a text and what follows it. -/
def first? (text : String) : Option (Json × List Char) :=
  valueUpTo (maxDepth + 1) text.toList

def parse? (text : String) : Option Json := do
  let (value, rest) ← first? text
  if (skipSpace rest).isEmpty then return value else none

end ClasspathAudit.Json
