import ClasspathAudit.Document.Filling
import ClasspathAudit.Text.Letter
import ClasspathAudit.Toml.Reader

/-!
Filling records from TOML. Every value has exactly the type that is wanted; names of fields are
compared without regard to case.
-/

namespace ClasspathAudit.Toml

namespace Value

def fillList {Item : Type} (start : Item) (fill : Value → Item → Option Item) (v : Value)
    (_ : Option (List Item)) : Option (Option (List Item)) :=
  match v with
  | .array items => (items.mapM (fill · start)).map some
  | _ => none

def fillRecord {Record : Type} (steps : List (String × (Value → Record → Option Record))) (v : Value)
    (old : Record) : Option Record :=
  match v with
  | .table fields => fields.foldlM (fun record (name, value) =>
      match steps.find? fun step => Text.equalFold name step.1 with
      | some (_, step) => step value record
      | none => some record) old
  | _ => none

instance : Filling Value where
  text v _ := match v with
    | .text s => some s
    | _ => none
  int v _ := match v with
    | .int n => some n
    | _ => none
  bool v _ := match v with
    | .bool b => some b
    | _ => none
  list := fillList
  sparseList start fill v _ := do
    let items ← fillList start fill v none
    return items.map (·.map some)
  optional start fill v old := (fill v (old.getD start)).map some
  record := fillRecord

end Value

end ClasspathAudit.Toml
