import ClasspathAudit.Text.Letter

/-!
Decimal numbers as text.
-/

namespace ClasspathAudit.Text

def digitsValue (cs : List Char) : Nat :=
  cs.foldl (fun n c => n * 10 + (c.toNat - '0'.toNat)) 0

/-- A non-empty run of digits as a number. -/
def digits? (cs : List Char) : Option Nat :=
  if cs.isEmpty || !cs.all isDigit then none else some (digitsValue cs)

/-- The least and the greatest number of a signed 64-bit word. -/
def wordMin : Int := -0x8000000000000000

def wordMax : Int := 0x7FFFFFFFFFFFFFFF

def fitsWord (n : Int) : Bool := decide (wordMin ≤ n) && decide (n ≤ wordMax)

/-- A decimal integer with an optional sign that fits in 64 bits. -/
def decimal? (s : String) : Option Int :=
  let (negative, digits) := match s.toList with
    | '-' :: rest => (true, rest)
    | '+' :: rest => (false, rest)
    | cs => (false, cs)
  match digits? digits with
  | some n =>
    let value : Int := if negative then -n else n
    if fitsWord value then some value else none
  | none => none

end ClasspathAudit.Text
