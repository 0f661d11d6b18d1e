import ClasspathAudit.Report.Cell
import ClasspathAudit.Report.Timestamp

/-!
Filling records from the trees of a format. A tree can mention a part of a record twice, so each step
starts from what the record holds by then; `none` stands for a tree that does not fit.
-/

namespace ClasspathAudit

/-- A format whose trees fill records. -/
class Filling (Tree : Type) where
  text : Tree → String → Option String
  int : Tree → Int → Option Int
  bool : Tree → Bool → Option Bool
  /-- A list whose items start as the first argument. -/
  list {Item : Type} : Item → (Tree → Item → Option Item) → Tree → Option (List Item) →
    Option (Option (List Item))
  /-- A list in which places may be empty. -/
  sparseList {Item : Type} : Item → (Tree → Item → Option Item) → Tree →
    Option (List (Option Item)) → Option (Option (List (Option Item)))
  /-- A part that may be missing. -/
  optional {Item : Type} : Item → (Tree → Item → Option Item) → Tree → Option Item →
    Option (Option Item)
  /-- A record with fields of the given names; others are passed over. -/
  record {Record : Type} : List (String × (Tree → Record → Option Record)) → Tree → Record →
    Option Record

/-- A format that has times and the cells of tables as well. -/
class TableFilling (Tree : Type) extends Filling Tree where
  time : Tree → Timestamp → Option Timestamp
  cell : Tree → Cell → Option Cell

namespace Filling

def part {Tree Record Part : Type} (fill : Tree → Part → Option Part) (get : Record → Part)
    (set : Record → Part → Record) (tree : Tree) (r : Record) : Option Record :=
  (fill tree (get r)).map (set r)

end Filling

end ClasspathAudit
