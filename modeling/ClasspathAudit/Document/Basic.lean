import ClasspathAudit.Json.Value
import ClasspathAudit.Report.Timestamp

/-!
What is to be written of a record before a format is chosen. Formats write a list that is absent in
ways of their own, so it is kept apart from the null value and from the empty list.
-/

namespace ClasspathAudit

inductive Document where
  | null
  | absentList
  | bool (value : Bool)
  | int (value : Int)
  | text (value : String)
  | time (value : Timestamp)
  | list (items : List Document)
  | record (fields : List (String × Document))
deriving Repr

namespace Document

def ofList {α : Type} (item : α → Document) : Option (List α) → Document
  | some items => list (items.map item)
  | none => absentList

def ofOption {α : Type} (item : α → Document) : Option α → Document
  | some value => item value
  | none => null

def textField (name value : String) : List (String × Document) :=
  if value.isEmpty then [] else [(name, text value)]

mutual

/-- The document in JSON, where an absent list is null. -/
def toJson : Document → Json
  | null => .null
  | absentList => .null
  | bool value => .bool value
  | int value => .int value
  | text value => .string value
  | time value => .string value.text
  | list items => .array (itemsToJson items)
  | record fields => .object (fieldsToJson fields)

def itemsToJson : List Document → List Json
  | [] => []
  | item :: rest => toJson item :: itemsToJson rest

def fieldsToJson : List (String × Document) → List (String × Json)
  | [] => []
  | (name, value) :: rest => (name, toJson value) :: fieldsToJson rest

end

mutual

/-- Why a document has no text in JSON: the first of its times that has none. -/
def timeFault? : Document → Option String
  | time value => value.fault?
  | list items => itemsTimeFault? items
  | record fields => fieldsTimeFault? fields
  | _ => none

def itemsTimeFault? : List Document → Option String
  | [] => none
  | item :: rest => item.timeFault?.or (itemsTimeFault? rest)

def fieldsTimeFault? : List (String × Document) → Option String
  | [] => none
  | (_, value) :: rest => value.timeFault?.or (fieldsTimeFault? rest)

end

end Document

end ClasspathAudit
