import ClasspathAudit.Document.Filling
import ClasspathAudit.Json.Reader
import ClasspathAudit.Text.Integer

/-!
Filling records from JSON. Names of fields are compared without regard to case, and a null leaves a
plain value as it is.
-/

namespace ClasspathAudit.Json

open Text

def fillText : Json → String → Option String
  | null, old => some old
  | string value, _ => some value
  | _, _ => none

/-- Only the literals of integers of 64 bits are integers. -/
def fillInt : Json → Int → Option Int
  | null, old => some old
  | number literal, _ => (Integer.parseDecimal literal).toOption
  | _, _ => none

def fillBool : Json → Bool → Option Bool
  | null, old => some old
  | bool value, _ => some value
  | _, _ => none

def fillTime : Json → Timestamp → Option Timestamp
  | null, old => some old
  | string value, _ => Timestamp.parse? value
  | _, _ => none

/-- The items of a list of texts; null is the empty text. -/
def texts? (items : List Json) : Option (List String) :=
  items.mapM fun item => fillText item ""

def fillCell : Json → Cell → Option Cell
  | null, _ => some (.string "")
  | string value, _ => some (.string value)
  | bool value, _ => some (.bool value)
  | array items, _ => (texts? items).map .list
  | number literal, _ => (Integer.parseDecimal literal).toOption.map .int
  | object _, _ => none

/-- Fills the places of a list one after another; places that there were not start as `start`. -/
def fillItems {Item : Type} (start : Item) (fill : Json → Item → Option Item) :
    List Json → List Item → Option (List Item)
  | [], _ => some []
  | item :: rest, old => do
    let value ← fill item (old.headD start)
    return value :: (← fillItems start fill rest old.tail)

def fillList {Item : Type} (start : Item) (fill : Json → Item → Option Item) :
    Json → Option (List Item) → Option (Option (List Item))
  | null, _ => some none
  | array items, old => (fillItems start fill items (old.getD [])).map some
  | _, _ => none

def fillOptional {Item : Type} (start : Item) (fill : Json → Item → Option Item) :
    Json → Option Item → Option (Option Item)
  | null, _ => some none
  | tree, old => (fill tree (old.getD start)).map some

/-- The step for a field: that of its very name, or else one of a name that differs in case. -/
def fieldStep? {Step : Type} (steps : List (String × Step)) (name : String) : Option Step :=
  match steps.find? (·.1 = name) with
  | some (_, step) => some step
  | none => (steps.find? fun (known, _) => equalFold name known).map Prod.snd

/-- Fills the part of a record that a field is for. -/
def fillField {Record : Type} (steps : List (String × (Json → Record → Option Record))) (record : Record)
    (field : String × Json) : Option Record :=
  match fieldStep? steps field.1 with
  | some step => step field.2 record
  | none => some record

def fillRecord {Record : Type} (steps : List (String × (Json → Record → Option Record))) :
    Json → Record → Option Record
  | null, old => some old
  | object fields, old => fields.foldlM (fillField steps) old
  | _, _ => none

instance : TableFilling Json where
  text := fillText
  int := fillInt
  bool := fillBool
  time := fillTime
  cell := fillCell
  list := fillList
  sparseList start fill := fillList none (fillOptional start fill)
  optional := fillOptional
  record := fillRecord

/-- Why a text is no cell. -/
inductive CellFault where
  | malformed
  | unsupported (text : String) (fault : IntegerFault)
deriving DecidableEq, Repr

def CellFault.message : CellFault → String
  | malformed => "malformed cell"
  | unsupported text fault => "unsupported cell value " ++ text ++ ": " ++ fault.message text

/-- The cell that a text of its own stands for. Where no other value begins, a sign or leading zeros
are allowed before the digits of a number. -/
def cellOfText (text : String) : Except CellFault Cell :=
  let trimmed := trimBlank text
  if trimmed = "" ∨ trimmed = "null" then .ok (.string "")
  else if ['\x22', '[', 't', 'f'].contains trimmed.front then
    match (parse? trimmed).bind (fillCell · (.string "")) with
    | some cell => .ok cell
    | none => .error .malformed
  else
    match Integer.parseDecimal trimmed with
    | .ok value => .ok (.int value)
    | .error fault => .error (.unsupported trimmed fault)

end ClasspathAudit.Json
