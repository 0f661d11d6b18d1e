import ClasspathAudit.Json.Value
import ClasspathAudit.Text.Hex

/-!
The text of a JSON document. Characters that could end a script element or a line of a script are
escaped, so that the text can stand inside either.
-/

namespace ClasspathAudit.Json

open Text

def unicodeEscape (n : Nat) : List Char := '\\' :: 'u' :: hexFixed 4 n

def escapeChar (c : Char) : List Char :=
  match c.toNat with
  | 0x22 => ['\\', c]
  | 0x5C => ['\\', c]
  | 8 => ['\\', 'b']
  | 12 => ['\\', 'f']
  | 10 => ['\\', 'n']
  | 13 => ['\\', 'r']
  | 9 => ['\\', 't']
  | n =>
    if n < 0x20 ∨ n = 0x3C ∨ n = 0x3E ∨ n = 0x26 ∨ n = 0x2028 ∨ n = 0x2029 then unicodeEscape n
    else [c]

def quoted (s : String) : String :=
  String.ofList ('\x22' :: s.toList.flatMap escapeChar ++ ['\x22'])

mutual

/-- The document without white space. -/
def compact : Json → String
  | null => "null"
  | bool value => if value then "true" else "false"
  | number literal => literal
  | string value => quoted value
  | array items => "[" ++ String.intercalate "," (compactItems items) ++ "]"
  | object fields => "\x7b" ++ String.intercalate "," (compactFields fields) ++ "\x7d"

def compactItems : List Json → List String
  | [] => []
  | item :: rest => compact item :: compactItems rest

def compactFields : List (String × Json) → List String
  | [] => []
  | (name, value) :: rest => (quoted name ++ ":" ++ compact value) :: compactFields rest

end

def block (opening closing margin : String) (lines : List String) : String :=
  if lines.isEmpty then opening ++ closing
  else
    opening ++ "\n" ++ String.intercalate ",\n" (lines.map fun l => margin ++ "  " ++ l) ++ "\n" ++
      margin ++ closing

mutual

/-- The document with two blanks for each level, the first line of it standing after `margin`. -/
def indented (margin : String) : Json → String
  | array items => block "[" "]" margin (indentedItems (margin ++ "  ") items)
  | object fields => block "\x7b" "\x7d" margin (indentedFields (margin ++ "  ") fields)
  | other => compact other

def indentedItems (margin : String) : List Json → List String
  | [] => []
  | item :: rest => indented margin item :: indentedItems margin rest

def indentedFields (margin : String) : List (String × Json) → List String
  | [] => []
  | (name, value) :: rest =>
    (quoted name ++ ": " ++ indented margin value) :: indentedFields margin rest

end

/-- The document as a text file: indented and ended by a newline. -/
def file (document : Json) : String := indented "" document ++ "\n"

end ClasspathAudit.Json
