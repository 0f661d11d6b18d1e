import ClasspathAudit.Text.Split

/-!
Cells of a report table.
-/

namespace ClasspathAudit

/-- A typed cell. A cell of a kind that is not known holds text. -/
inductive Cell where
  | string (value : String)
  | int (value : Int)
  | bool (value : Bool)
  | list (items : List String)
  | other (kind text : String)
deriving DecidableEq, Repr

namespace Cell

def kind : Cell → String
  | string _ => "string"
  | int _ => "int"
  | bool _ => "bool"
  | list _ => "list"
  | other kind _ => kind

/-- The text of a cell, the items of a list on lines of their own. -/
def text : Cell → String
  | string value => value
  | int value => toString value
  | bool value => if value then "true" else "false"
  | list items => String.intercalate "\n" items
  | other _ text => text

/-- The kind that a cell is compared under: a cell without kind is a string. -/
def effectiveKind (c : Cell) : String := if c.kind.isEmpty then "string" else c.kind

/-- Cells are equal when kind and content are; words and lines are not looked into. -/
def equal (a b : Cell) : Bool :=
  match a, b with
  | int m, int n => m == n
  | bool p, bool q => p == q
  | list xs, list ys => xs == ys
  | a, b => a.effectiveKind == b.effectiveKind && a.text == b.text

/-- The words of a cell that is read as one of the kind `kind`: what it holds of that kind, and nothing
where it holds something else. -/
def retag (c : Cell) (kind : String) : Cell :=
  let words := match c with
    | string value => value
    | other _ text => text
    | _ => ""
  match kind, c with
  | "int", int n => .int n
  | "int", _ => .int 0
  | "bool", bool b => .bool b
  | "bool", _ => .bool false
  | "list", list items => .list items
  | "list", _ => .list []
  | "string", _ => .string words
  | kind, _ => .other kind words

end Cell

end ClasspathAudit
