/-!
Hexadecimal text: digits, fixed-width numbers and dumps of bytes.
-/

namespace ClasspathAudit.Text

def hexDigit (n : Nat) : Char :=
  if n < 10 then Char.ofNat (48 + n) else Char.ofNat (87 + n)

/-- The lowest `width` hexadecimal digits of `n`, most significant first. -/
def hexFixed : Nat → Nat → List Char
  | 0, _ => []
  | width + 1, n => hexFixed width (n / 16) ++ [hexDigit (n % 16)]

def hexUpper (width n : Nat) : List Char :=
  (hexFixed width n).map Char.toUpper

def hexByte (b : UInt8) : List Char :=
  hexFixed 2 b.toNat

def hexValue? (c : Char) : Option Nat :=
  if '0' ≤ c ∧ c ≤ '9' then some (c.toNat - 48)
  else if 'a' ≤ c ∧ c ≤ 'f' then some (c.toNat - 87)
  else if 'A' ≤ c ∧ c ≤ 'F' then some (c.toNat - 55)
  else none

/-- The bytes of a dump, behind those read so far, backwards. -/
def hexPairs? (done : List UInt8) : List Char → Option (List UInt8)
  | [] => some done.reverse
  | a :: b :: rest => do
    let byte := (← hexValue? a) * 16 + (← hexValue? b)
    hexPairs? (UInt8.ofNat byte :: done) rest
  | [_] => none

def hexDecode? (s : String) : Option (List UInt8) := hexPairs? [] s.toList

def hexBytes (bytes : List UInt8) : String :=
  String.ofList (bytes.flatMap hexByte)

end ClasspathAudit.Text
