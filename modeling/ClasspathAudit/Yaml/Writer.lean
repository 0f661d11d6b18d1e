import ClasspathAudit.Document.Basic
import ClasspathAudit.Text.Hex
import ClasspathAudit.Yaml.Value

/-!
Documents as YAML text in block style. Text is written plain where that reads back as the same text,
in a literal block where it has several lines, and in quotes otherwise.
-/

namespace ClasspathAudit.Yaml

open Text

/-- Words that stood for truth values in older versions. -/
def oldBooleans : List String :=
  ["y", "Y", "yes", "Yes", "YES", "on", "On", "ON", "n", "N", "no", "No", "NO", "off", "Off", "OFF"]

/-- Groups of one or two digits behind colons, each below sixty, and perhaps a fraction. -/
def isSexagesimalTail : Bool → List Char → Bool
  | found, [] => found
  | found, '.' :: rest => found && rest.all fun c => isDigit c || c = '_'
  | _, ':' :: a :: b :: rest =>
    if isDigit b then decide ('0' ≤ a) && decide (a ≤ '5') && isSexagesimalTail true rest
    else isDigit a && isSexagesimalTail true (b :: rest)
  | _, [':', a] => isDigit a
  | _, _ => false

/-- Whether a text was a number of base sixty in older versions. -/
def isSexagesimal (cs : List Char) : Bool :=
  let body := match cs with
    | '+' :: rest => rest
    | '-' :: rest => rest
    | _ => cs
  match body with
  | c :: rest => isDigit c && isSexagesimalTail false (rest.dropWhile fun c => isDigit c || c = '_')
  | [] => false

def readsAsText (s : String) : Bool :=
  (ScalarValue.ofPlain true s).tag = "!!str" && !isSexagesimal s.toList && !oldBooleans.contains s

/-- Which styles can hold a text. -/
structure Styles where
  plain : Bool
  single : Bool
  block : Bool
deriving DecidableEq, Repr

/-- What the characters of a text are like. -/
structure Features where
  indicators : Bool := false
  lineBreaks : Bool := false
  special : Bool := false
  tabs : Bool := false
  breakSpace : Bool := false
  spaceBreak : Bool := false
deriving DecidableEq, Repr

/-- Whether a character at the front of a text is an indicator in a block. -/
def leadsBlock (c : Char) (rest : List Char) : Bool :=
  let blankNext := rest.isEmpty || rest.head?.any isBlank
  "#,[]\x7b\x7d&*!|>'\"%@`".toList.contains c || ((c = '?' || c = ':' || c = '-') && blankNext)

/-- Looks at the characters behind `previous`. -/
def featuresFrom (previous : Option Char) : List Char → Features → Features
  | [], f => f
  | c :: rest, f =>
    let blankNext := rest.isEmpty || rest.head?.any isBlank
    let indicator := match previous with
      | none => leadsBlock c rest
      | some before => (c = ':' && blankNext) || (c = '#' && isGap before)
    featuresFrom (some c) rest {
      indicators := f.indicators || indicator
      lineBreaks := f.lineBreaks || isBreak c
      special := f.special || (c ≠ '\t' && !isPrintable c)
      tabs := f.tabs || c = '\t'
      breakSpace := f.breakSpace || (c = ' ' && previous.any isBreak)
      spaceBreak := f.spaceBreak || (isBreak c && previous = some ' ') }

def stylesOf (s : String) : Styles :=
  let cs := s.toList
  match cs.head?, cs.getLast? with
  | some first, some last =>
    let f := featuresFrom none cs {}
    let marked := "---".toList.isPrefixOf cs || "...".toList.isPrefixOf cs
    let edge := first = ' ' || isBreak first || last = ' ' || isBreak last
    let loose := f.breakSpace || f.spaceBreak || f.tabs || f.special
    { plain := !(marked || edge || loose || f.lineBreaks || f.indicators)
      single := !loose
      block := !(last = ' ' || f.spaceBreak || f.special) }
  | _, _ => { plain := true, single := true, block := false }

def escape (c : Char) : List Char :=
  let letter? : Option Char := match c.toNat with
    | 0x00 => some '0'
    | 0x07 => some 'a'
    | 0x08 => some 'b'
    | 0x09 => some 't'
    | 0x0A => some 'n'
    | 0x0B => some 'v'
    | 0x0C => some 'f'
    | 0x0D => some 'r'
    | 0x1B => some 'e'
    | 0x22 => some '\x22'
    | 0x5C => some '\\'
    | 0x85 => some 'N'
    | 0xA0 => some '_'
    | 0x2028 => some 'L'
    | 0x2029 => some 'P'
    | _ => none
  match letter? with
  | some letter => ['\\', letter]
  | none =>
    if c.toNat ≤ 0xFF then '\\' :: 'x' :: hexUpper 2 c.toNat
    else if c.toNat ≤ 0xFFFF then '\\' :: 'u' :: hexUpper 4 c.toNat
    else '\\' :: 'U' :: hexUpper 8 c.toNat

/-- A text in double quotes. Behind a byte order mark at its front every character is escaped. -/
def doubleQuoted (s : String) : String :=
  let all := s.toList.head? = some byteOrderMark
  let one (c : Char) : List Char :=
    if all || !isPrintable c || isBreak c || c = '\x22' || c = '\\' then escape c else [c]
  String.ofList ('\x22' :: s.toList.flatMap one ++ ['\x22'])

def padding (indent : Nat) : List Char := List.replicate indent ' '

/-- A text in single quotes; lines behind a separator are indented. -/
def singleQuoted (indent : Nat) (s : String) : String :=
  let rec chars : Bool → List Char → List Char
    | _, [] => ['\x27']
    | broken, c :: rest =>
      if isBreak c then c :: chars true rest
      else
        (if broken then padding indent else []) ++
          (if c = '\x27' then [c, c] else [c]) ++ chars false rest
  String.ofList ('\x27' :: chars false s.toList)

/-- The lines of a literal block; each line that is not empty is indented. -/
def literalLines (indent : Nat) : Bool → List Char → List Char
  | _, [] => []
  | broken, c :: rest =>
    if isBreak c then c :: literalLines indent true rest
    else (if broken then padding indent else []) ++ c :: literalLines indent false rest

/-- How the breaks at the end of a literal block are to be kept. -/
def chompingMark (cs : List Char) : List Char :=
  match cs.reverse with
  | [] => ['-']
  | [last] => if isBreak last then ['+'] else ['-']
  | last :: before :: _ => if !isBreak last then ['-'] else if isBreak before then ['+'] else []

/-- A text as literal block. A text that starts with a blank or a break tells its indentation. -/
def literal (step indent : Nat) (s : String) : String :=
  let cs := s.toList
  let hint := if cs.head?.any fun c => c = ' ' || isBreak c then (toString step).toList else []
  let lead := if cs.head?.any isBreak then [] else ['\n']
  String.ofList ('|' :: hint ++ chompingMark cs ++ lead ++ literalLines indent true cs)

/-- A text in the style that suits it; the further lines of a scalar stand at `indent`. Answers whether
its last line is ended. -/
def textScalar (step indent : Nat) (s : String) : String × Bool :=
  let styles := stylesOf s
  if s.toList.contains '\n' then
    if styles.block then (literal step indent s, s.toList.getLast?.any isBreak)
    else (doubleQuoted s, false)
  else if readsAsText s then
    if styles.plain then (s, false)
    else if styles.single then (singleQuoted indent s, false)
    else (doubleQuoted s, false)
  else (doubleQuoted s, false)

def aligned (step indent : Nat) : Nat := step * ((indent + step) / step)

def endLine : String × Bool → String
  | (s, true) => s
  | (s, false) => s ++ "\n"

mutual

/-- What follows a key or a dash on its line, and the lines behind that. A collection under a key stands
on lines of its own; under a dash it begins on the same line. -/
def after (step : Nat) (dash : Bool) (indent : Nat) : Document → String
  | .null => " null\n"
  | .absentList => " []\n"
  | .bool value => if value then " true\n" else " false\n"
  | .int value => " " ++ toString value ++ "\n"
  | .time value => " " ++ value.text ++ "\n"
  | .text value => " " ++ endLine (textScalar step (inner dash) value)
  | .list items =>
    if items.isEmpty then " []\n"
    else (if dash then " " else "\n" ++ margin (inner dash)) ++
      String.intercalate (margin (inner dash)) (itemLines step (inner dash) items)
  | .record fields =>
    if fields.isEmpty then " \x7b\x7d\n"
    else (if dash then " " else "\n" ++ margin (inner dash)) ++
      String.intercalate (margin (inner dash)) (fieldLines step (inner dash) fields)
where
  inner (dash : Bool) : Nat := if dash then indent + 2 else aligned step indent
  margin (n : Nat) : String := String.ofList (padding n)

/-- The items of a list that stands at `indent`, without their margins. -/
def itemLines (step indent : Nat) : List Document → List String
  | [] => []
  | item :: rest => ("-" ++ after step true indent item) :: itemLines step indent rest

/-- The fields of a record that stands at `indent`, without their margins. -/
def fieldLines (step indent : Nat) : List (String × Document) → List String
  | [] => []
  | (name, value) :: rest => (name ++ ":" ++ after step false indent value) :: fieldLines step indent rest

end

/-- A document as a file with `step` blanks for a level. -/
def file (step : Nat) : Document → String
  | .list items => if items.isEmpty then "[]\n" else String.join (itemLines step 0 items)
  | .record fields => if fields.isEmpty then "\x7b\x7d\n" else String.join (fieldLines step 0 fields)
  | .absentList => "[]\n"
  | other => ((after step false 0 other).drop 1).toString

end ClasspathAudit.Yaml
