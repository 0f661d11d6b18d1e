import ClasspathAudit.Text.Decimal
import ClasspathAudit.Text.Quote

/-!
Integers of 64 bits as text, in a given base or in the base that their beginning tells.
-/

namespace ClasspathAudit.Text

inductive IntegerFault where
  | malformed
  | outOfRange
deriving DecidableEq, Repr

def IntegerFault.message (text : String) (fault : IntegerFault) : String :=
  "strconv.ParseInt: parsing " ++ quote text ++ ": " ++
    match fault with
    | malformed => "invalid syntax"
    | outOfRange => "value out of range"

namespace Integer

def digitValue? (c : Char) : Option Nat :=
  if isDigit c then some (c.toNat - 48)
  else if 'a' ≤ c ∧ c ≤ 'z' then some (c.toNat - 87)
  else if 'A' ≤ c ∧ c ≤ 'Z' then some (c.toNat - 55)
  else none

/-- The value of digits behind a value so far. What comes first decides, a wrong digit or a value
beyond 64 bits. -/
def digitsFrom (base : Nat) (separators : Bool) : Nat → List Char → Except IntegerFault Nat
  | n, [] => .ok n
  | n, c :: rest =>
    if separators && c = '_' then digitsFrom base separators n rest
    else
      match digitValue? c with
      | some d =>
        if base ≤ d then .error .malformed
        else if 0x10000000000000000 ≤ n * base + d then .error .outOfRange
        else digitsFrom base separators (n * base + d) rest
      | none => .error .malformed

/-- The base that the beginning of digits tells, and the digits behind that beginning: a zero begins
octal digits, a zero and a letter binary, octal or hexadecimal ones. -/
def baseOf (cs : List Char) : Nat × List Char :=
  match cs with
  | '0' :: letter :: digit :: rest =>
    match letter.toLower with
    | 'b' => (2, digit :: rest)
    | 'o' => (8, digit :: rest)
    | 'x' => (16, digit :: rest)
    | _ => (8, letter :: digit :: rest)
  | '0' :: rest => (8, rest)
  | _ => (10, cs)

/-- Whether every underscore stands between digits; a beginning that tells the base counts as digit. -/
def separatorsFit (hexadecimal : Bool) : Bool → List Char → Bool
  | _, [] => true
  | afterDigit, '_' :: rest => afterDigit && !rest.isEmpty && separatorsFit hexadecimal false rest
  | _, c :: rest =>
    (isDigit c || (hexadecimal && (digitValue? c).any fun d => decide (d < 16))) &&
      separatorsFit hexadecimal true rest

/-- Digits whose beginning tells their base, with underscores between them. -/
def unsignedAnyBase (cs : List Char) : Except IntegerFault Nat :=
  let (base, digits) := baseOf cs
  match digitsFrom base true 0 digits with
  | .error fault => .error fault
  | .ok n =>
    if digits.contains '_' && !separatorsFit (base = 16) (base ≠ 10) digits then
      .error .malformed
    else .ok n

def signOf (cs : List Char) : Bool × List Char :=
  match cs with
  | '-' :: rest => (true, rest)
  | '+' :: rest => (false, rest)
  | _ => (false, cs)

def signed (unsigned : List Char → Except IntegerFault Nat) (text : String) :
    Except IntegerFault Int :=
  let (negative, digits) := signOf text.toList
  if digits.isEmpty then .error .malformed
  else
    match unsigned digits with
    | .error fault => .error fault
    | .ok n =>
      let value : Int := if negative then -n else n
      if fitsWord value then .ok value else .error .outOfRange

def parseDecimal (text : String) : Except IntegerFault Int :=
  signed (digitsFrom 10 false 0) text

def parseAnyBase (text : String) : Except IntegerFault Int :=
  signed unsignedAnyBase text

end Integer

end ClasspathAudit.Text
