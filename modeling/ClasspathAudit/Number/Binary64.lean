import ClasspathAudit.Text.Decimal

/-!
Binary floating-point numbers of 64 bits, as exact values. A decimal literal rounds to the nearest of
them, and to the even one of two.
-/

namespace ClasspathAudit

open Text

/-- A decimal number: its digits times a power of ten. -/
structure DecimalNumber where
  negative : Bool
  digits : Nat
  exponent : Int
deriving DecidableEq, Repr

/-- A finite number is its mantissa times a power of two. -/
inductive Binary64 where
  | nan
  | infinite (negative : Bool)
  | finite (negative : Bool) (mantissa : Nat) (exponent : Int)
deriving DecidableEq, Repr

namespace DecimalNumber

/-- The digits at the front, and what follows them. -/
def takeDigits (cs : List Char) : List Char × List Char := (cs.takeWhile isDigit, cs.dropWhile isDigit)

/-- A power of ten behind a mark; a number without the mark has none. -/
def takeExponent (cs : List Char) : Option Int :=
  match cs with
  | [] => some 0
  | mark :: rest =>
    if mark = 'e' ∨ mark = 'E' then
      let (negative, digits) := match rest with
        | '-' :: digits => (true, digits)
        | '+' :: digits => (false, digits)
        | _ => (false, rest)
      (digits? digits).map fun n => if negative then -(n : Int) else n
    else none

/-- A sign, digits with a point among them, and a power of ten. -/
def parse? (cs : List Char) : Option DecimalNumber :=
  let (negative, cs) := match cs with
    | '-' :: rest => (true, rest)
    | '+' :: rest => (false, rest)
    | _ => (false, cs)
  let (whole, rest) := takeDigits cs
  let (fraction, rest) := match rest with
    | '.' :: rest => takeDigits rest
    | _ => ([], rest)
  if whole.isEmpty && fraction.isEmpty then none
  else
    (takeExponent rest).map fun power =>
      { negative
        digits := digitsValue (whole ++ fraction)
        exponent := power - fraction.length }

end DecimalNumber

namespace Binary64

/-- A power of two, one where the exponent is negative. -/
def twoTo (exponent : Int) : Nat := Nat.pow 2 exponent.toNat

/-- A power of ten, one where the exponent is negative. -/
def tenTo (exponent : Int) : Nat := Nat.pow 10 exponent.toNat

/-- The quotient to the nearest integer, to the even one of two. -/
def roundedQuotient (numerator denominator : Nat) : Nat :=
  let quotient := numerator / denominator
  let twice := 2 * (numerator % denominator)
  if twice < denominator then quotient
  else if denominator < twice then quotient + 1
  else quotient + quotient % 2

/-- The least exponent of a finite number. -/
def leastExponent : Int := -1074

def ofFraction (negative : Bool) (numerator denominator : Nat) : Binary64 :=
  let estimate : Int := (Nat.log2 numerator : Int) - Nat.log2 denominator
  let below := if estimate < 0 then numerator * twoTo (-estimate) < denominator
    else numerator < denominator * twoTo estimate
  let magnitude := if below then estimate - 1 else estimate
  let exponent := max (magnitude - 52) leastExponent
  let mantissa := if exponent < 0 then roundedQuotient (numerator * twoTo (-exponent)) denominator
    else roundedQuotient numerator (denominator * twoTo exponent)
  if 0 < exponent && decide (twoTo 1024 ≤ mantissa * twoTo exponent) then infinite negative
  else finite negative mantissa exponent

def ofDecimal (d : DecimalNumber) : Binary64 :=
  if d.digits = 0 then finite d.negative 0 0
  else if 400 < d.exponent then infinite d.negative
  else if d.exponent + Nat.log2 d.digits < -400 then finite d.negative 0 0
  else if d.exponent < 0 then ofFraction d.negative d.digits (tenTo (-d.exponent))
  else ofFraction d.negative (d.digits * tenTo d.exponent) 1

/-- The literal as a number, unless that is too large. -/
def parse? (cs : List Char) : Option Binary64 := do
  match ofDecimal (← DecimalNumber.parse? cs) with
  | infinite _ => none
  | value => some value

def truncated (negative : Bool) (mantissa : Nat) (exponent : Int) : Int :=
  let whole : Nat := if exponent < 0 then mantissa / twoTo (-exponent)
    else mantissa * twoTo exponent
  if negative then -whole else whole

/-- The integer part as a word of 64 bits. Numbers above the range have none, and the rest of what does
not fit counts as the least word. -/
def toWord? : Binary64 → Option Int
  | nan => none
  | infinite negative => if negative then some wordMin else none
  | finite negative mantissa exponent =>
    let whole := truncated negative mantissa exponent
    if wordMax + 1 < whole || (whole = wordMax + 1 && exponent < 0 && mantissa % twoTo (-exponent) ≠ 0) then
      none
    else if fitsWord whole then some whole
    else some wordMin

def sameMagnitude (m : Nat) (p : Int) (n : Nat) (q : Int) : Bool :=
  m * twoTo (p - leastExponent) == n * twoTo (q - leastExponent)

def readsBack (mantissa : Nat) (exponent : Int) (digits : Nat) (power : Int) : Bool :=
  match ofDecimal ⟨false, digits, power⟩ with
  | finite _ m p => sameMagnitude m p mantissa exponent
  | _ => false

/-- The decimal number with the fewest digits, from `count` on, that reads back as the given one;
`magnitude` is the power of ten of its first digit. Of two the nearer is taken. -/
def shortestFrom (mantissa : Nat) (exponent : Int) (magnitude : Int) : Nat → Nat → Nat × Int
  | 0, _ => (mantissa, 0)
  | fuel + 1, count =>
    let power := magnitude - count + 1
    let scaled := if exponent < 0 then mantissa else mantissa * twoTo exponent
    let divisor := if exponent < 0 then twoTo (-exponent) else 1
    let numerator := if power < 0 then scaled * tenTo (-power) else scaled
    let denominator := if power < 0 then divisor else divisor * tenTo power
    let nearest := roundedQuotient numerator denominator
    if readsBack mantissa exponent nearest power then (nearest, power)
    else shortestFrom mantissa exponent magnitude fuel (count + 1)

/-- The fewest digits that read back, and the power of ten of the last of them. -/
def shortest (mantissa : Nat) (exponent : Int) : Nat × Int :=
  let scaled := if exponent < 0 then mantissa * tenTo 400 / twoTo (-exponent)
    else mantissa * twoTo exponent * tenTo 400
  let magnitude : Int := ((toString scaled).length : Int) - 401
  shortestFrom mantissa exponent magnitude 18 1

/-- The fewest digits that read back, without power of ten. -/
def text : Binary64 → String
  | nan => "NaN"
  | infinite negative => if negative then "-Inf" else "+Inf"
  | finite negative mantissa exponent =>
    let sign := if negative then "-" else ""
    if mantissa = 0 then sign ++ "0"
    else
      let (digits, power) := shortest mantissa exponent
      let digits := ((toString digits).toList)
      let body :=
        if 0 ≤ power then String.ofList (digits ++ List.replicate power.toNat '0')
        else
          let places := (-power).toNat
          let padded := List.replicate (places + 1 - digits.length) '0' ++ digits
          let whole := padded.take (padded.length - places)
          String.ofList (whole ++ '.' :: padded.drop (padded.length - places))
      sign ++ body

end Binary64

end ClasspathAudit
