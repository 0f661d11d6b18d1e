import ClasspathAudit.Document.Filling
import ClasspathAudit.Yaml.Value

/-!
Filling records from YAML. Null leaves a plain value as it is and is left out of lists. A mapping has
each key once; a merge key brings the entries of other mappings that it does not have itself.
-/

namespace ClasspathAudit.Yaml

/-- A node of a document. -/
structure Tree where
  node : Node
  document : NodeTree
  /-- The anchored nodes that an alias led into on the way here. -/
  entered : List Nat := []

namespace Tree

def child (t : Tree) (node : Node) : Tree := { t with node }

/-- The node that is meant, which is not an alias; none if it would stand in itself. -/
def target (t : Tree) : Option Tree :=
  match t.node with
  | .alias number =>
    if t.entered.contains number then none
    else (t.document.anchored[number]?).map fun node =>
      { t with node, entered := number :: t.entered }
  | _ => some t

def isNull (t : Tree) : Option Bool :=
  match t.node with
  | .scalar _ tag s style => (scalarValue tag s style).map (· = .null)
  | _ => some false

/-- A value of a scalar that is not null: `old` is for null. -/
def fillScalar {α : Type} (read : Option String → String → ScalarValue → Option α) (t : Tree) (old : α) :
    Option α := do
  match (← t.target).node with
  | .scalar _ tag s style =>
    match ← scalarValue tag s style with
    | .null => some old
    | value => read tag s value
  | _ => none

/-- Every scalar is text. -/
def fillText : Tree → String → Option String := fillScalar fun tag s _ => scalarText tag s

/-- Numbers with a fraction lose it. -/
def fillInt : Tree → Int → Option Int := fillScalar fun _ _ value =>
  match value with
  | .int n => if Text.fitsWord n then some n else none
  | .float x => x.toWord?
  | _ => none

def fillBool : Tree → Bool → Option Bool := fillScalar fun tag s value =>
  match value with
  | .bool b => some b
  | .text _ => do
    let word ← scalarText tag s
    if ["y", "Y", "yes", "Yes", "YES", "on", "On", "ON"].contains word then some true
    else if ["n", "N", "no", "No", "NO", "off", "Off", "OFF"].contains word then some false
    else none
  | _ => none

def fillTime : Tree → Timestamp → Option Timestamp := fillScalar fun tag s value =>
  match value with
  | .time t => some t
  | _ => (scalarText tag s).bind Timestamp.parse?

def presentItems (t : Tree) (items : List Node) : Option (List Tree) :=
  items.foldrM (fun item rest => do
    let tree ← (t.child item).target
    return if ← tree.isNull then rest else tree :: rest) []

/-- Why a node is no cell. -/
inductive CellFault where
  /-- The node is a mapping. -/
  | unsupported (line : Nat)
  /-- The node has a tag that does not fit; nothing more is read. -/
  | badTag
  /-- The node does not have the type that is wanted. -/
  | mismatch
deriving DecidableEq, Repr

/-- The texts of a list; a tag that does not fit comes first, then a node that is no scalar. -/
def texts (t : Tree) (items : List Node) : Except CellFault (List String) :=
  match presentItems t items with
  | none => .error .badTag
  | some trees =>
    let read (tree : Tree) : Option String := fillText tree ""
    let isScalar (tree : Tree) : Bool := match tree.node with
      | .scalar _ _ _ _ => true
      | _ => false
    if trees.any fun tree => isScalar tree && (read tree).isNone then .error .badTag
    else match trees.mapM read with
      | some found => .ok found
      | none => .error .mismatch

/-- The cell of a node that is not null. The kind of a scalar is what it looks like. -/
def cell (t : Tree) : Except CellFault Cell :=
  match t.node with
  | .mapping line _ _ => .error (.unsupported (line + 1))
  | .sequence _ _ items => (texts { t with entered := [] } items).map .list
  | .alias _ => .error .badTag
  | .scalar _ tag s style =>
    match scalarValue tag s style with
    | none => if tag = some "!!timestamp" ∨ tag = some "!!float" then .ok (.string s) else .error .badTag
    | some (.int n) => if Text.fitsWord n then .ok (.int n) else .error .mismatch
    | some (.bool b) => .ok (.bool b)
    | some _ => .ok (.string s)

def fillCell (t : Tree) (_ : Cell) : Option Cell := do
  (cell (← t.target)).toOption

def fillList {Item : Type} (start : Item) (fill : Tree → Item → Option Item) (t : Tree)
    (_ : Option (List Item)) : Option (Option (List Item)) := do
  let t ← t.target
  match t.node with
  | .sequence _ _ items => (← presentItems t items).mapM (fill · start) |>.map some
  | .mapping _ _ _ => none
  | _ => if ← t.isNull then some none else none

def fillOptional {Item : Type} (start : Item) (fill : Tree → Item → Option Item) (t : Tree)
    (old : Option Item) : Option (Option Item) := do
  let t ← t.target
  if ← t.isNull then some none else (fill t (old.getD start)).map some

def fillSparseList {Item : Type} (start : Item) (fill : Tree → Item → Option Item) (t : Tree)
    (_ : Option (List (Option Item))) : Option (Option (List (Option Item))) := do
  let t ← t.target
  match t.node with
  | .sequence _ _ items => items.mapM (fun item => fillOptional start fill (t.child item) none) |>.map some
  | .mapping _ _ _ => none
  | _ => if ← t.isNull then some none else none

def isMergeKey : Node → Bool
  | .scalar _ tag "<<" style => (tag = none && style = .plain) || tag = some "!!merge"
  | _ => false

/-- What keys are compared by: their kind, and the words of scalars. -/
def keyIdentity : Node → String
  | .scalar _ _ s _ => "s" ++ s
  | .sequence _ _ _ => "l"
  | .mapping _ _ _ => "m"
  | .alias number => "a" ++ toString number

/-- The name of a field: none for null, a fault for a key that is no scalar. -/
def keyName (t : Tree) (key : Node) : Option (Option String) := do
  let tree ← (t.child key).target
  if ← tree.isNull then some none else (fillText tree "").map some

/-- The entries of a mapping in order, then those it merges. `taken` are the names that must not be
merged again; at the outermost mapping there are none. -/
def entries : Nat → Tree → (taken : Option (List String)) →
    Option (List (String × Tree) × Option (List String))
  | 0, _, _ => none
  | fuel + 1, t, taken => do
    let t ← t.target
    let .mapping _ _ content := t.node | none
    let identities := content.map fun (key, _) => keyIdentity key
    if identities.eraseDups.length ≠ identities.length then none
    else
      let own ← (content.filter fun (key, _) => !isMergeKey key).filterMapM fun (key, value) => do
        return (← keyName t key).map fun name => (name, t.child value)
      let fresh := own.filter fun (name, _) => !(taken.getD []).contains name
      let taken := taken.map (fresh.map Prod.fst ++ ·)
      match content.find? fun (key, _) => isMergeKey key with
      | none => return (fresh, taken)
      | some (_, merged) =>
        let sources ← (match merged with
          | .sequence _ _ items => some items
          | node => some [node])
        let (found, inner) ← sources.foldlM (fun (found, inner) source => do
          let (more, inner) ← entries fuel (t.child source) inner
          return (found ++ more, inner)) (fresh, some (taken.getD (own.map Prod.fst)))
        return (found, taken.bind fun _ => inner)

def fillRecord {Record : Type} (steps : List (String × (Tree → Record → Option Record))) (t : Tree)
    (old : Record) : Option Record := do
  let t ← t.target
  match t.node with
  | .mapping _ _ _ =>
    let (found, _) ← entries (t.document.size + 1) t none
    found.foldlM (fun record (name, value) =>
      match steps.find? (·.1 = name) with
      | some (_, step) => step value record
      | none => some record) old
  | .sequence _ _ _ => none
  | _ => if ← t.isNull then some old else none

instance : TableFilling Tree where
  text := fillText
  int := fillInt
  bool := fillBool
  time := fillTime
  cell := fillCell
  list := fillList
  sparseList := fillSparseList
  optional := fillOptional
  record := fillRecord

/-- The cells of a list of nodes. What stops the reading is told in preference to what does not fit. -/
def cellsOf (trees : List Tree) : Except CellFault (List Cell) :=
  let results := trees.map cell
  let stop := results.findSome? fun
    | .error .mismatch => none
    | .error fault => some fault
    | .ok _ => none
  match stop with
  | some fault => .error fault
  | none => results.mapM id

end Tree

/-- The document of a text as a tree; none if the text has no document. -/
def tree? (text : String) : Option (Option Tree) := do
  return (← firstDocument text).map fun document => { node := document.root, document }

/-- Why a text is no list of cells. -/
def Tree.CellFault.message : Tree.CellFault → String
  | .unsupported line => "unsupported cell node at line " ++ toString line
  | _ => "malformed cells"

/-- The cells of the list that a text is; no document and null are the empty list. -/
def cells (text : String) : Except Tree.CellFault (List Cell) :=
  match tree? text with
  | none => .error .badTag
  | some none => .ok []
  | some (some t) =>
    match t.node with
    | .sequence _ _ items =>
      match t.presentItems items with
      | some trees => Tree.cellsOf trees
      | none => .error .badTag
    | .mapping _ _ _ => .error .mismatch
    | _ => if t.isNull = some true then .ok [] else .error .mismatch

end ClasspathAudit.Yaml
