import ClasspathAudit.Configuration.Dotenv
import ClasspathAudit.Text.Split

/-!
Configuration files that hold one variable a line. Here a line that does not fit spoils the file.
-/

namespace ClasspathAudit.VariableFile

open Text

def isNameChar (c : Char) : Bool := c.isAlphanum || c = '_' || c = '.'

/-- Behind the sign of assignment: an equals sign with blanks around it, or a colon and a blank. -/
def assigned? (cs : List Char) : Option (List Char) :=
  match cs.dropWhile isBlank with
  | '=' :: rest => some (rest.dropWhile isBlank)
  | _ =>
    match cs with
    | ':' :: c :: rest => if isBlank c then some (rest.dropWhile isBlank) else none
    | _ => none

def assignment? (cs : List Char) : Option (String × List Char) := do
  let name := cs.takeWhile isNameChar
  if name.isEmpty then none
  else return (String.ofList name, ← assigned? (cs.drop name.length))

def isEnd (cs : List Char) : Bool :=
  match cs.dropWhile isBlank with
  | [] => true
  | c :: _ => c = '#'

/-- The longest text in quotes that nothing but a comment follows. -/
def quoted? (quote : Char) : List Char → Option (List Char)
  | [] => none
  | c :: rest =>
    match quoted? quote rest with
    | some found => some (c :: found)
    | none => if c = quote && isEnd rest then some [] else none

def value? (known : List (String × String)) (cs : List Char) : Option String :=
  let plain : Option String :=
    let body := cs.takeWhile (· ≠ '#')
    some (Dotenv.expanded known (trimBlankList body))
  match cs with
  | '\x22' :: rest =>
    match quoted? '\x22' rest with
    | some body =>
      some (Dotenv.expanded known (Dotenv.plainEscapes (Dotenv.lineEscapes body)))
    | none => plain
  | '\'' :: rest => (quoted? '\'' rest).map String.ofList <|> plain
  | _ => plain

/-- One line; it adds a variable, or nothing where it is a comment. -/
def line? (environment done : List (String × String)) (line : List Char) :
    Option (List (String × String)) := do
  let cs := trimBlankList line
  let exported := "export".toList
  if isEnd cs then return done
  else
    let behind := cs.drop exported.length
    let marked := exported.isPrefixOf cs && behind.head?.any isBlank
    let (name, text) ← (if marked then assignment? (behind.dropWhile isBlank) else none) <|>
      assignment? cs
    return done ++ [(name, ← value? (environment ++ done) text)]

/-- The variables of a file; they may refer to those of the environment. -/
def parse? (environment : List (String × String)) (text : String) : Option (List (String × String)) :=
  (splitAll '\n' (Dotenv.joinLineEnds text.toList)).foldlM (line? environment) []

end ClasspathAudit.VariableFile
