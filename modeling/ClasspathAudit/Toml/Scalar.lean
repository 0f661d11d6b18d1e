import ClasspathAudit.Json.Reader
import ClasspathAudit.Number.Binary64
import ClasspathAudit.Report.Timestamp
import ClasspathAudit.Text.Integer
import ClasspathAudit.Text.Split

/-!
The values of TOML, and its strings, numbers, words and times as they are written. A reader takes a
scalar from the front of the text and gives what follows it.
-/

namespace ClasspathAudit.Toml

open Text

inductive Value where
  | text (value : String)
  | int (value : Int)
  | float (value : Binary64)
  | bool (value : Bool)
  /-- A date, a time of day or both; which one does not matter here. -/
  | time
  | array (items : List Value)
  | table (fields : List (String × Value))
deriving Repr

/-- The revision of the format that a document is read by. The second adds escapes, lines in inline
tables and times without seconds. -/
inductive Revision where
  | first
  | second
deriving DecidableEq, Repr

/-- Characters that only an escape can stand for. -/
def isControl (c : Char) : Bool := (c.toNat < 0x20 && c ≠ '\t') || c.toNat = 0x7F

def lineEnd? : List Char → Option (List Char)
  | '\n' :: rest => some rest
  | '\r' :: '\n' :: rest => some rest
  | _ => none

def skipBlanks (cs : List Char) : List Char := cs.dropWhile fun c => c = ' ' || c = '\t'

def hexNumber? (cs : List Char) : Option Nat :=
  cs.foldlM (fun n c => (Text.hexValue? c).map (n * 16 + ·)) 0

/-- The character of an escape by its number: `width` digits behind the letter. -/
def numbered? (width : Nat) (cs : List Char) : Option (Char × List Char) := do
  let digits := cs.take width
  let n ← hexNumber? digits
  if digits.length = width ∧ n.isValidChar then some (Char.ofNat n, cs.drop width) else none

def escape? (revision : Revision) : List Char → Option (Char × List Char)
  | 'b' :: rest => some ('\x08', rest)
  | 't' :: rest => some ('\t', rest)
  | 'n' :: rest => some ('\n', rest)
  | 'f' :: rest => some ('\x0c', rest)
  | 'r' :: rest => some ('\r', rest)
  | '\x22' :: rest => some ('\x22', rest)
  | '\\' :: rest => some ('\\', rest)
  | 'u' :: rest => numbered? 4 rest
  | 'U' :: rest => numbered? 8 rest
  | 'e' :: rest => if revision = .second then some ('\x1b', rest) else none
  | 'x' :: rest => if revision = .second then numbered? 2 rest else none
  | _ => none

/-- The rest of a string on one line, `done` being its characters so far, backwards. -/
def stringTail (revision : Revision) (quote : Char) :
    Nat → List Char → List Char → Option (String × List Char)
  | 0, _, _ => none
  | fuel + 1, done, cs =>
    match cs with
    | [] => none
    | c :: rest =>
      if c = quote then some (String.ofList done.reverse, rest)
      else if isControl c then none
      else if c = '\\' ∧ quote = '\x22' then do
        let (escaped, rest) ← escape? revision rest
        stringTail revision quote fuel (escaped :: done) rest
      else stringTail revision quote fuel (c :: done) rest

/-- What follows a backslash at the end of a line: the next text, behind any blanks and lines. -/
def continued? (cs : List Char) : Option (List Char) := do
  let rest ← lineEnd? (skipBlanks cs)
  return rest.dropWhile fun c => c = ' ' || c = '\t' || c = '\n' || c = '\r'

/-- The rest of a string over several lines, which three quotes end. Two more quotes before them belong
to the string. -/
def linesTail (revision : Revision) (quote : Char) :
    Nat → List Char → List Char → Option (String × List Char)
  | 0, _, _ => none
  | fuel + 1, done, cs =>
    match cs with
    | [] => none
    | c :: rest =>
      if c = quote then
        let count := (cs.take 5).takeWhile (· = quote) |>.length
        if count < 3 then linesTail revision quote fuel (c :: done) rest
        else some (String.ofList (done.reverse ++ List.replicate (count - 3) quote), cs.drop count)
      else if c = '\\' ∧ quote = '\x22' then
        match continued? rest with
        | some rest => linesTail revision quote fuel done rest
        | none => do
          let (escaped, rest) ← escape? revision rest
          linesTail revision quote fuel (escaped :: done) rest
      else
        match lineEnd? cs with
        | some rest => linesTail revision quote fuel ('\n' :: done) rest
        | none => if isControl c then none else linesTail revision quote fuel (c :: done) rest

/-- A string of any of the four kinds. A line end right behind three opening quotes does not count. -/
def string? (revision : Revision) (cs : List Char) : Option (String × List Char) :=
  match cs with
  | a :: b :: c :: rest =>
    if a ≠ '\x22' ∧ a ≠ '\'' then none
    else if b = a ∧ c = a then linesTail revision a (rest.length + 1) [] ((lineEnd? rest).getD rest)
    else stringTail revision a (cs.length + 1) [] (b :: c :: rest)
  | a :: rest =>
    if a ≠ '\x22' ∧ a ≠ '\'' then none else stringTail revision a (cs.length + 1) [] rest
  | [] => none

/-- Digits with single underscores between them, without the underscores. -/
def groupedDigits? (isDigitOf : Char → Bool) (cs : List Char) : Option (List Char) :=
  let groups := splitAll '_' cs
  if groups.all fun group => !group.isEmpty && group.all isDigitOf then some groups.flatten else none

def basedInt? (base : Nat) (cs : List Char) : Option Int := do
  let digits ← groupedDigits? (fun c => (Integer.digitValue? c).any fun d => decide (d < base)) cs
  let n := digits.foldl (fun n c => n * base + (Integer.digitValue? c).getD 0) 0
  if fitsWord n then some n else none

/-- Decimal digits without a zero in front. -/
def wholeDigits? (cs : List Char) : Option (List Char) := do
  let digits ← groupedDigits? isDigit cs
  if digits.head? = some '0' ∧ digits.length > 1 then none else some digits

def decimalInt? (negative : Bool) (cs : List Char) : Option Int := do
  let n := digitsValue (← wholeDigits? cs)
  let value : Int := if negative then -n else n
  if fitsWord value then some value else none

def decimalFloat? (negative : Bool) (cs : List Char) : Option Binary64 := do
  let isMark (c : Char) : Bool := c = 'e' || c = 'E'
  let mantissa := cs.takeWhile fun c => !isMark c
  let power ← match cs.dropWhile fun c => !isMark c with
    | [] => some []
    | _ :: sign :: digits =>
      if sign = '+' ∨ sign = '-' then (groupedDigits? isDigit digits).map (sign :: ·)
      else groupedDigits? isDigit (sign :: digits)
    | _ => none
  let (whole, fraction) ← match splitFirst? '.' mantissa with
    | some (whole, fraction) => (groupedDigits? isDigit fraction).map (whole, ·)
    | none => some (mantissa, [])
  let whole ← wholeDigits? whole
  Binary64.parse? ((if negative then ['-'] else []) ++ whole ++
    (if fraction.isEmpty then [] else '.' :: fraction) ++ (if power.isEmpty then [] else 'e' :: power))

def number? (signed negative : Bool) (cs : List Char) : Option Value :=
  match cs with
  | '0' :: 'x' :: digits => if signed then none else (basedInt? 16 digits).map .int
  | '0' :: 'o' :: digits => if signed then none else (basedInt? 8 digits).map .int
  | '0' :: 'b' :: digits => if signed then none else (basedInt? 2 digits).map .int
  | ['i', 'n', 'f'] => some (.float (.infinite negative))
  | ['n', 'a', 'n'] => some (.float .nan)
  | _ =>
    if cs.any fun c => c = '.' || c = 'e' || c = 'E' then (decimalFloat? negative cs).map .float
    else (decimalInt? negative cs).map .int

def clock? (revision : Revision) (cs : List Char) : Option (List Char) := do
  let (_, rest) ← Timestamp.takeWithin? 2 2 0 23 cs
  let (_, rest) ← Timestamp.takeWithin? 2 2 0 59 (← Timestamp.expect? ':' rest)
  match rest with
  | ':' :: rest =>
    let (_, rest) ← Timestamp.takeWithin? 2 2 0 59 rest
    match rest with
    | '.' :: fraction =>
      let digits := fraction.takeWhile isDigit
      if digits.isEmpty then none else some (fraction.drop digits.length)
    | _ => some rest
  | _ => if revision = .second then some rest else none

def date? (cs : List Char) : Option (List Char) := do
  let (year, rest) ← Timestamp.takeNumber? 4 4 cs
  let (month, rest) ← Timestamp.takeWithin? 2 2 1 12 (← Timestamp.expect? '-' rest)
  let (day, rest) ← Timestamp.takeWithin? 2 2 1 31 (← Timestamp.expect? '-' rest)
  if day ≤ Date.daysInMonth year month then some rest else none

/-- An offset from universal time, which may be missing. -/
def offset? : List Char → Option (List Char)
  | [] => some []
  | [c] => if c = 'Z' ∨ c = 'z' then some [] else none
  | sign :: rest => do
    if sign = '+' ∨ sign = '-' then
      let (_, rest) ← Timestamp.takeWithin? 2 2 0 23 rest
      let (_, rest) ← Timestamp.takeWithin? 2 2 0 59 (← Timestamp.expect? ':' rest)
      if rest.isEmpty then some [] else none
    else none

/-- Whether a whole text is a date, a time of day or both. -/
def isTime (revision : Revision) (cs : List Char) : Bool :=
  match date? cs with
  | some [] => true
  | some (mark :: rest) =>
    (mark = 'T' || mark = 't' || mark = ' ') && ((clock? revision rest).bind offset?).isSome
  | none => clock? revision cs = some []

/-- Whether a character belongs to a number, a word or a time. -/
def isLiteral (c : Char) : Bool :=
  c.isAlphanum || c = '+' || c = '-' || c = '_' || c = '.' || c = ':'

/-- The text of a literal and what follows it. A blank between a date and a time belongs to it. -/
def literal (cs : List Char) : List Char × List Char :=
  let word := cs.takeWhile isLiteral
  let rest := cs.dropWhile isLiteral
  match date? word, rest with
  | some [], ' ' :: digit :: _ =>
    if isDigit digit then
      let clock := (rest.drop 1).takeWhile isLiteral
      (word ++ ' ' :: clock, rest.drop (clock.length + 1))
    else (word, rest)
  | _, _ => (word, rest)

/-- A number, a word or a time. -/
def literalValue? (revision : Revision) (cs : List Char) : Option (Value × List Char) := do
  let (word, rest) := literal cs
  let value ← if word = "true".toList then some (.bool true)
    else if word = "false".toList then some (.bool false)
    else if isTime revision word then some .time
    else match word with
      | '+' :: digits => number? true false digits
      | '-' :: digits => number? true true digits
      | digits => number? false false digits
  return (value, rest)

end ClasspathAudit.Toml
