import ClasspathAudit.Number.Binary64
import ClasspathAudit.Report.Timestamp
import ClasspathAudit.Text.Integer
import ClasspathAudit.Yaml.Node

/-!
What the scalars of YAML stand for. A plain scalar is what it looks like; a tag can ask for something
else, and fails where the scalar does not fit it.
-/

namespace ClasspathAudit.Yaml

open Text

inductive ScalarValue where
  | null
  | bool (value : Bool)
  | int (value : Int)
  | float (value : Binary64)
  | time (value : Timestamp)
  | text (value : String)
deriving DecidableEq, Repr

namespace ScalarValue

def tag : ScalarValue → String
  | null => "!!null"
  | bool _ => "!!bool"
  | int _ => "!!int"
  | float _ => "!!float"
  | time _ => "!!timestamp"
  | text _ => "!!str"

/-- Words with a meaning. -/
def word? (s : String) : Option ScalarValue :=
  if ["true", "True", "TRUE"].contains s then some (bool true)
  else if ["false", "False", "FALSE"].contains s then some (bool false)
  else if ["", "~", "null", "Null", "NULL"].contains s then some null
  else if [".nan", ".NaN", ".NAN"].contains s then some (float .nan)
  else if [".inf", ".Inf", ".INF", "+.inf", "+.Inf", "+.INF"].contains s then
    some (float (.infinite false))
  else if ["-.inf", "-.Inf", "-.INF"].contains s then some (float (.infinite true))
  else none

/-- Dates are read with one or two digits, and a comma may begin the fraction of a second. -/
def dateWidths : Timestamp.FieldWidths := ⟨1, 1, ['.', ','], 24, 60⟩

/-- A date and a time of day without offset. -/
def localTime? (s : String) : Option Timestamp := do
  let (date, rest) ← Timestamp.date? dateWidths s.toList
  let rest ← Timestamp.expect? ' ' rest
  let ((hour, minute, second, nanos), rest) ← Timestamp.clock? dateWidths rest
  if rest.isEmpty then some (Timestamp.ofClock date hour minute second nanos 0) else none

def date? (s : String) : Option Timestamp := do
  let (date, rest) ← Timestamp.date? dateWidths s.toList
  if rest.isEmpty then some (Timestamp.ofClock date 0 0 0 0 0) else none

def time? (s : String) : Option Timestamp :=
  Timestamp.parseWith? dateWidths 'T' s <|> Timestamp.parseWith? dateWidths 't' s <|> localTime? s <|>
    date? s

def markedInteger? (mark : String) (base : Nat) (s : String) : Option Int :=
  let read (digits : String) : Option Int :=
    match Integer.signed (Integer.digitsFrom base false 0) digits with
    | .ok n => some n
    | .error _ =>
      if digits.isEmpty then none
      else (Integer.digitsFrom base false 0 digits.toList).toOption.map Int.ofNat
  if s.startsWith mark then read (s.drop mark.length).toString
  else if s.startsWith ("-" ++ mark) then read ("-" ++ (s.drop (mark.length + 1)).toString)
  else none

/-- An integer of 64 bits with or without sign; a zero or a letter behind it tells the base. -/
def int? (s : String) : Option Int :=
  match Integer.parseAnyBase s with
  | .ok n => some n
  | .error _ =>
    if s.isEmpty then none else (Integer.unsignedAnyBase s.toList).toOption.map Int.ofNat

/-- A number that begins with a digit or a sign. Underscores do not count. -/
def number? (s : String) : Option ScalarValue :=
  let plain := String.ofList (s.toList.filter (· ≠ '_'))
  (int? plain).map int <|> (Binary64.parse? plain.toList).map float <|>
    (markedInteger? "0b" 2 plain).map int <|> (markedInteger? "0o" 8 plain).map int

/-- A number that begins with its point. Underscores stand between digits only. -/
def pointNumber? (s : String) : Option ScalarValue :=
  let rec fits : Bool → List Char → Bool
    | _, [] => true
    | afterDigit, '_' :: rest => afterDigit && rest.head?.any isDigit && fits false rest
    | _, c :: rest => fits (isDigit c) rest
  if fits false s.toList then
    (Binary64.parse? (s.toList.filter (· ≠ '_'))).map float
  else none

/-- What a plain scalar looks like; dates count only where `dates`. -/
def ofPlain (dates : Bool) (s : String) : ScalarValue :=
  let found := match s.toList.head? with
    | none => word? s
    | some c =>
      if "yYnNtTfFoO~".toList.contains c then word? s
      else if c = '.' then word? s <|> pointNumber? s
      else if isDigit c || c = '+' || c = '-' then
        word? s <|> (if dates then (time? s).map time else none) <|> number? s
      else none
  found.getD (text s)

end ScalarValue

def resolvableTags : List String := ["!!bool", "!!int", "!!float", "!!null", "!!timestamp"]

def tagged (tag s : String) : Option ScalarValue :=
  if resolvableTags.contains tag then
    match ScalarValue.ofPlain (tag = "!!timestamp") s with
    | .int n =>
      if tag = "!!int" then some (.int n)
      else if tag = "!!float" ∧ fitsWord n then
        some (.float (Binary64.ofDecimal ⟨n < 0, n.natAbs, 0⟩))
      else none
    | value => if value.tag = tag then some value else none
  else some (.text s)

/-- The value of a scalar, none if its tag does not fit. -/
def scalarValue (tag : Option String) (s : String) (style : ScalarStyle) : Option ScalarValue :=
  match tag, style with
  | none, .plain => some (if s = "<<" then .text s else .ofPlain true s)
  | none, _ => some (.text s)
  | some tag, _ => tagged tag s

def base64Value? (c : Char) : Option Nat :=
  if 'A' ≤ c ∧ c ≤ 'Z' then some (c.toNat - 65)
  else if 'a' ≤ c ∧ c ≤ 'z' then some (c.toNat - 71)
  else if isDigit c then some (c.toNat + 4)
  else if c = '+' then some 62
  else if c = '/' then some 63
  else none

/-- The bytes of groups of four digits; the last group may be padded. -/
def base64Bytes : List Char → Option (List UInt8)
  | [] => some []
  | [a, b, '=', '='] => do
    return [UInt8.ofNat ((← base64Value? a) * 4 + (← base64Value? b) / 16)]
  | [a, b, c, '='] => do
    let n := (← base64Value? a) * 4096 + (← base64Value? b) * 64 + (← base64Value? c)
    return [UInt8.ofNat (n / 1024), UInt8.ofNat (n / 4 % 256)]
  | a :: b :: c :: d :: rest => do
    let n := (((← base64Value? a) * 64 + (← base64Value? b)) * 64 + (← base64Value? c)) * 64 +
      (← base64Value? d)
    let bytes ← base64Bytes rest
    return UInt8.ofNat (n / 65536) :: UInt8.ofNat (n / 256 % 256) :: UInt8.ofNat (n % 256) :: bytes
  | _ => none

/-- The words of a scalar: those of a binary one are encoded in base 64. -/
def scalarText (tag : Option String) (s : String) : Option String :=
  if tag = some "!!binary" then
    (base64Bytes (s.toList.filter fun c => c ≠ '\n' && c ≠ '\r')).map decodeUtf8
  else some s

end ClasspathAudit.Yaml
