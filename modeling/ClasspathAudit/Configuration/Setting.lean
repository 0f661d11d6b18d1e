import ClasspathAudit.Number.Binary64
import ClasspathAudit.Text.Integer
import ClasspathAudit.Text.Split

/-!
Settings as files and variables bring them, and what they count as where another type is wanted. The
conversions are generous: numbers may be words and a single value may be a list.
-/

namespace ClasspathAudit

inductive Setting where
  | null
  | bool (value : Bool)
  | int (value : Int)
  | real (value : Binary64)
  | text (value : String)
  /-- A date or a time; it fits nowhere but in the place of a group, where it says nothing. -/
  | time
  | list (items : List Setting)
  | group (fields : List (String × Setting))
deriving Repr

namespace Setting

open Text

def truth? (word : String) : Option Bool :=
  if ["1", "t", "T", "TRUE", "true", "True"].contains word then some true
  else if ["0", "f", "F", "FALSE", "false", "False"].contains word then some false
  else none

/-- A number of 64 bits without sign as one with sign. -/
def wrapped (n : Int) : Int := if wordMax < n then n - 0x10000000000000000 else n

def asInt : Setting → Option Int
  | null => some 0
  | bool value => some (if value then 1 else 0)
  | int value => some (wrapped value)
  | real value => some (value.toWord?.getD wordMin)
  | text word => if word = "" then some 0 else (Integer.parseAnyBase word).toOption
  | _ => none

def asText : Setting → Option String
  | null => some ""
  | bool value => some (if value then "1" else "0")
  | int value => some (toString value)
  | real value => some value.text
  | text word => some word
  | _ => none

def asBool : Setting → Option Bool
  | null => some false
  | bool value => some value
  | int value => some (value ≠ 0)
  | real (.finite _ mantissa _) => some (mantissa ≠ 0)
  | real _ => some true
  | text word => if word = "" then some false else truth? word
  | _ => none

/-- A list of texts; a text is cut at its commas. -/
def asTexts : Setting → Option (List String)
  | null => some []
  | text word => some (if word = "" then [] else splitOnChar ',' word)
  | list items => items.mapM asText
  | group fields => if fields.isEmpty then some [] else none
  | value => (asText value).map ([·])

def asGroup : Setting → Option (List (String × Setting))
  | null => some []
  | time => some []
  | group fields => some fields
  | _ => none

/-- The last field of a name, unless it is null. -/
def field? (name : String) (fields : List (String × Setting)) : Option Setting :=
  match (fields.reverse.find? (·.1 = name)).map Prod.snd with
  | some null => none
  | found => found

def lowerNames : Setting → Setting
  | list items => list (lowerItems items)
  | group fields => group (lowerFields fields)
  | value => value
where
  lowerItems : List Setting → List Setting
    | [] => []
    | item :: rest => lowerNames item :: lowerItems rest
  lowerFields : List (String × Setting) → List (String × Setting)
    | [] => []
    | (name, value) :: rest => (lower name, lowerNames value) :: lowerFields rest

end Setting

end ClasspathAudit
