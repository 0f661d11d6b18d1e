import ClasspathAudit.Text.Letter
import ClasspathAudit.Text.Utf8

/-!
Files of environment variables: a line assigns a value to a name. Values may refer to the variables
before them.
-/

namespace ClasspathAudit.Dotenv

open Text

/-- Blanks that do not end a line. -/
def isSpace (c : Char) : Bool :=
  c = ' ' || c = '\t' || c = '\r' || [0x0B, 0x0C, 0x85, 0xA0].contains c.toNat

/-- Whether a byte is a letter or a digit, read as a character of the first 256. -/
def isNameByte (b : UInt8) : Bool :=
  let n := b.toNat
  (Char.ofNat n).isAlphanum || [0xAA, 0xB2, 0xB3, 0xB5, 0xB9, 0xBA, 0xBC, 0xBD, 0xBE].contains n ||
    (decide (0xC0 ≤ n) && n ≠ 0xD7 && n ≠ 0xF7)

def isNameChar (c : Char) : Bool :=
  isSpace c || c = '_' || c = '.' ||
    (encodeUtf8 (String.singleton c)).all fun b => isNameByte b || b = 0x85 || b = 0xA0

def trimSpaces (cs : List Char) : List Char :=
  ((cs.dropWhile isSpace).reverse.dropWhile isSpace).reverse

/-- The first statement of a text, behind blanks and comments. -/
def statementStart : Nat → List Char → List Char
  | 0, cs => cs
  | fuel + 1, cs =>
    match cs.dropWhile isBlank with
    | '#' :: rest => statementStart fuel (rest.dropWhile (· ≠ '\n'))
    | rest => rest

/-- The name that is assigned to, and what follows the sign of assignment. A text that ends before such
a sign has no name; there has to be some text, though. -/
def name? (cs : List Char) : Option (String × List Char) :=
  let exported := "export".toList
  let cs := if exported.isPrefixOf cs && (cs.drop exported.length).head?.any isSpace then
      (cs.drop exported.length).dropWhile isSpace
    else cs
  let name := cs.takeWhile isNameChar
  match cs.drop name.length with
  | [] => if cs.isEmpty then none else some ("", cs)
  | c :: rest =>
    if c = '=' ∨ c = ':' then
      some (String.ofList (name.reverse.dropWhile isBlank).reverse, rest.dropWhile isSpace)
    else none

/-- The name of a variable at the front, with the bracket or brace before it and the brace behind. -/
def reference (cs : List Char) : List Char × List Char × List Char :=
  let (bracket, cs) := match cs with
    | '(' :: rest => (['('], rest)
    | _ => ([], cs)
  let (brace, cs) := match cs with
    | '\x7b' :: rest => (['\x7b'], rest)
    | _ => ([], cs)
  let name := cs.takeWhile fun c => c.isUpper || isDigit c || c = '_'
  let cs := cs.drop name.length
  match cs with
  | '\x7d' :: rest => (name, bracket ++ brace ++ name ++ ['\x7d'], rest)
  | _ => (name, bracket ++ brace ++ name, cs)

/-- Puts the values of variables in the places that refer to them; a backslash keeps a reference. -/
def expand (known : List (String × String)) : Nat → List Char → List Char
  | 0, cs => cs
  | fuel + 1, cs =>
    match cs with
    | [] => []
    | '\\' :: '$' :: rest =>
      let (_, written, rest) := reference rest
      '$' :: written ++ expand known fuel rest
    | '$' :: rest =>
      let (name, written, rest) := reference rest
      let value := if name.isEmpty then '$' :: written
        else ((known.find? (·.1 = String.ofList name)).map (·.2.toList)).getD []
      value ++ expand known fuel rest
    | c :: rest => c :: expand known fuel rest

/-- The value with its references replaced; the last assignment of a variable counts. -/
def expanded (known : List (String × String)) (cs : List Char) : String :=
  String.ofList (expand known.reverse (cs.length + 1) cs)

def lineEscapes : List Char → List Char
  | '\\' :: c :: rest =>
    if c = '\n' then '\\' :: lineEscapes (c :: rest)
    else if c = 'n' then '\n' :: lineEscapes rest
    else if c = 'r' then '\r' :: lineEscapes rest
    else '\\' :: c :: lineEscapes rest
  | c :: rest => c :: lineEscapes rest
  | [] => []

/-- Drops the backslashes of all escapes but those of references. -/
def plainEscapes : List Char → List Char
  | '\\' :: c :: rest =>
    if c = '$' then '\\' :: plainEscapes (c :: rest) else c :: plainEscapes rest
  | c :: rest => c :: plainEscapes rest
  | [] => []

/-- The text up to the closing quote, which is not behind a backslash, and what follows it. -/
def quoted? (quote previous : Char) : List Char → Option (List Char × List Char)
  | [] => none
  | c :: rest =>
    if c = quote ∧ previous ≠ '\\' then some ([], rest)
    else (quoted? quote c rest).map fun (text, rest) => (c :: text, rest)

/-- The part of a line before a comment, which stands behind a blank; the last one counts. -/
def beforeComment (line : List Char) : List Char :=
  let rec lastComment : Nat → Char → List Char → Option Nat
    | _, _, [] => none
    | index, previous, c :: rest =>
      (lastComment (index + 1) c rest).or (if c = '#' ∧ isSpace previous then some index else none)
  match line with
  | [] => []
  | c :: rest =>
    match lastComment 1 c rest with
    | some index => line.take index
    | none => line

def value? (known : List (String × String)) (cs : List Char) : Option (String × List Char) :=
  match cs with
  | '\x22' :: rest => do
    let (body, rest) ← quoted? '\x22' '\x22' rest
    let body := (body.reverse.dropWhile (· = '\x22')).reverse.dropWhile (· = '\x22')
    return (expanded known (plainEscapes (lineEscapes body)), rest)
  | '\'' :: rest => do
    let (body, rest) ← quoted? '\'' '\'' rest
    return (String.ofList ((body.reverse.dropWhile (· = '\'')).reverse.dropWhile (· = '\'')), rest)
  | _ =>
    let line := cs.takeWhile fun c => c ≠ '\n' && c ≠ '\r'
    some (expanded known (trimSpaces (beforeComment line)), cs.drop line.length)

def assignments (done : List (String × String)) : Nat → List Char → Option (List (String × String))
  | 0, _ => some done
  | fuel + 1, cs => do
    match statementStart (cs.length + 1) cs with
    | [] => return done
    | start =>
      let (name, rest) ← name? start
      let (value, rest) ← value? done rest
      assignments (done ++ [(name, value)]) fuel rest

/-- Line ends of two characters count as one. -/
def joinLineEnds : List Char → List Char
  | '\r' :: '\n' :: rest => '\n' :: joinLineEnds rest
  | c :: rest => c :: joinLineEnds rest
  | [] => []

/-- The variables of a file in order, none if a line of it cannot be read. -/
def parse? (text : String) : Option (List (String × String)) :=
  let cs := joinLineEnds text.toList
  assignments [] (cs.length + 1) cs

/-- The value of a variable, by its last assignment. -/
def lookup? (name : String) (known : List (String × String)) : Option String :=
  (known.reverse.find? (·.1 = name)).map Prod.snd

/-- The environment with the variables of a file that it does not have itself. -/
def extend (environment known : List (String × String)) : List (String × String) :=
  known.filter (fun v => v.1 ≠ "" && !environment.any (·.1 = v.1)) ++ environment

end ClasspathAudit.Dotenv
