/-!
JSON documents. A number keeps its literal, so that no digit is lost between reading and writing, and
an object keeps its fields in order, repeats included.
-/

namespace ClasspathAudit

inductive Json where
  | null
  | bool (value : Bool)
  | number (literal : String)
  | string (value : String)
  | array (items : List Json)
  | object (fields : List (String × Json))
deriving Repr

namespace Json

def int (value : Int) : Json := number (toString value)

def nat (value : Nat) : Json := number (toString value)

def strings (values : List String) : Json := array (values.map string)

/-- The array of a list, `null` when the list is absent. -/
def arrayOrNull {α : Type} (item : α → Json) : Option (List α) → Json
  | some items => array (items.map item)
  | none => null

/-- The last field of an object under `name`. -/
def field? (name : String) : Json → Option Json
  | object fields => (fields.reverse.find? (·.1 == name)).map Prod.snd
  | _ => none

end Json

end ClasspathAudit
