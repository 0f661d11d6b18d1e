import ClasspathAudit.Configuration.Setting
import ClasspathAudit.Text.Quote
import ClasspathAudit.Text.Utf8

/-!
Flags of a command line. A flag has a long name and perhaps a letter; letters can stand together behind
one dash, and the last of them may be followed by its value.
-/

namespace ClasspathAudit.CommandLine

open Text

inductive FlagKind where
  | text
  | int
  /-- Counts how often it is given. -/
  | count
  | switch
  /-- A list, cut at commas; each time it is given it grows. -/
  | list
deriving DecidableEq, Repr

structure Flag where
  name : String
  letter : Option Char := none
  kind : FlagKind
  usage : String
deriving DecidableEq, Repr

/-- What a flag without value means, for those that need none. -/
def FlagKind.implied? : FlagKind → Option String
  | count => some "+1"
  | switch => some "true"
  | _ => none

def FlagKind.placeholder : FlagKind → String
  | text => "string"
  | int => "int"
  | count => "count"
  | switch => ""
  | list => "strings"

inductive FlagFault where
  | unknown (name : String)
  | unknownLetter (letter : Char) (word : String)
  | missingValue (word : String)
  | missingLetterValue (letter : Char) (word : String)
  | malformed (word : String)
  | invalid (flag : Flag) (value cause : String)
deriving DecidableEq, Repr

def FlagFault.message : FlagFault → String
  | unknown name => "unknown flag: --" ++ name
  | unknownLetter letter word =>
    "unknown shorthand flag: " ++ quoteChar letter ++ " in -" ++ word
  | missingValue word => "flag needs an argument: " ++ word
  | missingLetterValue letter word =>
    "flag needs an argument: " ++ quoteChar letter ++ " in -" ++ word
  | malformed word => "bad flag syntax: " ++ word
  | invalid flag value cause =>
    let name := match flag.letter with
      | some letter => "-" ++ String.singleton letter ++ ", --" ++ flag.name
      | none => "--" ++ flag.name
    "invalid argument " ++ quote value ++ " for " ++ quote name ++ " flag: " ++ cause
where
  quoteChar (c : Char) : String :=
    "'" ++ (if c = '\'' then "\\'" else if c = '\x22' then "\"" else
      String.ofList ((quote (String.singleton c)).toList.drop 1 |>.dropLast)) ++ "'"

/-- A field in quotes behind its opening quote, at a column: the field, backwards before it, and what
follows the closing quote with its column. Two quotes stand for one. -/
def quotedField (column : Nat) (done : List Char) :
    List Char → Except Nat (List Char × List Char × Nat)
  | [] => .error column
  | '\x22' :: '\x22' :: rest => quotedField (column + 2) ('\x22' :: done) rest
  | '\x22' :: rest => .ok (done.reverse, rest, column + 1)
  | c :: rest => quotedField (column + c.utf8Size) (c :: done) rest

def bareQuote (column : Nat) : String :=
  s!"parse error on line 1, column {column}: bare \" in non-quoted field"

def strayQuote (column : Nat) : String :=
  s!"parse error on line 1, column {column}: extraneous or missing \" in quoted-field"

/-- The fields of a line between commas, from a column on. -/
def fieldsFrom : Nat → Nat → List Char → Except String (List String)
  | 0, _, _ => .ok []
  | fuel + 1, column, cs =>
    match cs with
    | '\x22' :: rest =>
      match quotedField (column + 1) [] rest with
      | .error column => .error (strayQuote column)
      | .ok (field, rest, column) =>
        match rest with
        | [] => .ok [String.ofList field]
        | c :: rest =>
          if c = ',' then (fieldsFrom fuel (column + 1) rest).map (String.ofList field :: ·)
          else .error (strayQuote (column - 1))
    | _ =>
      let field := cs.takeWhile (· ≠ ',')
      if field.contains '\x22' then
        .error (bareQuote (column + byteCount (field.takeWhile (· ≠ '\x22'))))
      else
        match cs.drop field.length with
        | [] => .ok [String.ofList field]
        | _ :: rest => (fieldsFrom fuel (column + byteCount field + 1) rest).map (String.ofList field :: ·)

def listItems (value : String) : Except String (List String) :=
  if value.isEmpty then .ok [] else fieldsFrom (value.length + 1) 1 value.toList

/-- Why a value does not fit a flag. -/
def FlagKind.objection? (kind : FlagKind) (value : String) : Option String :=
  let number : Option String := match Integer.parseAnyBase value with
    | .ok _ => none
    | .error fault => some (fault.message value)
  match kind with
  | .text => none
  | .int => number
  | .count => if value = "+1" then none else number
  | .switch =>
    if (Setting.truth? value).isSome then none
    else some ("strconv.ParseBool: parsing " ++ quote value ++ ": invalid syntax")
  | .list =>
    match listItems value with
    | .ok _ => none
    | .error cause => some cause

/-- A flag with its value. -/
structure Given where
  flag : Flag
  value : String
deriving DecidableEq, Repr

def give (flag : Flag) (value : String) : Except FlagFault Given :=
  match flag.kind.objection? value with
  | some cause => .error (.invalid flag value cause)
  | none => .ok ⟨flag, value⟩

def named? (flags : List Flag) (name : String) : Option Flag := flags.find? (·.name = name)

def lettered? (flags : List Flag) (letter : Char) : Option Flag :=
  flags.find? (·.letter = some letter)

/-- A flag by its long name. The result tells whether the next word was its value. -/
def longFlag (flags : List Flag) (word : String) (next : Option String) :
    Except FlagFault (List Given × Bool) := do
  let body := word.toList.drop 2
  let (name, value?) := match splitFirst? '=' body with
    | some (name, value) => (String.ofList name, some (String.ofList value))
    | none => (String.ofList body, none)
  if body.head? = some '-' ∨ body.head? = some '=' then throw (.malformed word)
  match named? flags name with
  | none => throw (.unknown name)
  | some flag =>
    match value? <|> flag.kind.implied?, next with
    | some value, _ => return ([← give flag value], false)
    | none, some value => return ([← give flag value], true)
    | none, none => throw (.missingValue word)

/-- Letters behind one dash. -/
def letterFlags (flags : List Flag) (next : Option String) :
    List Char → Except FlagFault (List Given × Bool)
  | [] => .ok ([], false)
  | letter :: rest => do
    let word := String.ofList (letter :: rest)
    match lettered? flags letter with
    | none => throw (.unknownLetter letter word)
    | some flag =>
      match rest, flag.kind.implied?, next with
      | '=' :: c :: value, _, _ => return ([← give flag (String.ofList (c :: value))], false)
      | _, some value, _ =>
        let first ← give flag value
        let (more, taken) ← letterFlags flags next rest
        return (first :: more, taken)
      | c :: value, none, _ => return ([← give flag (String.ofList (c :: value))], false)
      | [], none, some value => return ([← give flag value], true)
      | [], none, none => throw (.missingLetterValue letter word)

/-- Whether a word is a flag or a group of letters; a single dash is none. -/
def isFlagWord (word : String) : Bool := hasStart "-" word && word ≠ "-"

/-- The flags of a command line and its other words. Behind two dashes there are no flags. -/
def parseFlags (flags : List Flag) : List String → Except FlagFault (List Given × List String)
  | [] => .ok ([], [])
  | word :: rest => do
    if word = "--" then return ([], rest)
    else if isFlagWord word then
      let (given, taken) ← if hasStart "--" word then longFlag flags word rest.head?
        else letterFlags flags rest.head? (word.toList.drop 1)
      let (more, words) ← parseFlags flags (rest.drop (if taken then 1 else 0))
      return (given ++ more, words)
    else
      let (given, words) ← parseFlags flags rest
      return (given, word :: words)
termination_by words => words.length
decreasing_by
  · rw [List.length_drop, List.length_cons]; omega
  · exact Nat.lt_succ_self _

/-- The values that were given to a flag, in order. -/
def valuesOf (name : String) (given : List Given) : List String :=
  (given.filter (·.flag.name = name)).map Given.value

def textOf (name : String) (given : List Given) : String := (valuesOf name given).getLast?.getD ""

def intOf (name : String) (given : List Given) : Int :=
  (((valuesOf name given).getLast?).bind fun v => (Integer.parseAnyBase v).toOption).getD 0

def switchOf (name : String) (given : List Given) : Bool :=
  (((valuesOf name given).getLast?).bind Setting.truth?).getD false

def countOf (name : String) (given : List Given) : Int :=
  (valuesOf name given).foldl (fun n v =>
    if v = "+1" then n + 1 else (Integer.parseAnyBase v).toOption.getD n) 0

def listOf (name : String) (given : List Given) : List String :=
  (valuesOf name given).flatMap fun v => (listItems v).toOption.getD []

end ClasspathAudit.CommandLine
