import ClasspathAudit.Yaml.Token

/-!
The nodes of a YAML document. An alias is kept as the number of the anchored node it stands for, because
a node can stand inside itself.
-/

namespace ClasspathAudit.Yaml

/-- A node with the line it begins on and its tag, if it has a specific one. -/
inductive Node where
  | scalar (line : Nat) (tag : Option String) (text : String) (style : ScalarStyle)
  | sequence (line : Nat) (tag : Option String) (items : List Node)
  | mapping (line : Nat) (tag : Option String) (entries : List (Node × Node))
  | alias (number : Nat)
deriving Repr

namespace Node

/-- The node where the text has none. -/
def empty (line : Nat) : Node := scalar line none "" .plain

end Node

/-- A document: its node, and the nodes that its aliases stand for. -/
structure NodeTree where
  root : Node
  anchored : Array Node
  /-- A bound for the number of nodes. -/
  size : Nat

/-- The tokens of a text and whether they are all. -/
structure TokenSource where
  tokens : Array PlacedToken
  complete : Bool

namespace TokenSource

/-- The token at a place. Tokens are cut two ahead, so a fault shows two places early. -/
def token? (source : TokenSource) (place : Nat) : Option PlacedToken :=
  if !source.complete && decide (source.tokens.size ≤ place + 2) then none else source.tokens[place]?

end TokenSource

/-- The start of the tags that the standard defines, and how it is abbreviated. -/
def standardTags : String := "tag:yaml.org,2002:"

def shortTag (tag : String) : String :=
  if tag.startsWith standardTags then "!!" ++ (tag.drop standardTags.length).toString else tag

/-- How far the nodes of a document are read. -/
structure Reading where
  place : Nat
  /-- The names of anchors and the numbers of their nodes, the latest first. -/
  names : List (String × Nat) := []
  anchored : Array Node := #[]

namespace Reading

def skip (r : Reading) : Reading := { r with place := r.place + 1 }

/-- Gives a number to the node of an anchor. -/
def announce (name : Option String) (r : Reading) : Option Nat × Reading :=
  match name with
  | some name =>
    let number := r.anchored.size
    (some number, { r with
      names := (name, number) :: r.names
      anchored := r.anchored.push (.alias number) })
  | none => (none, r)

/-- Keeps the node of an anchor. -/
def keep (number : Option Nat) (node : Node) (r : Reading) : Reading :=
  match number with
  | some number => { r with anchored := r.anchored.setIfInBounds number node }
  | none => r

end Reading

/-- What stands before the content of a node. -/
structure Properties where
  anchor : Option String := none
  tag : Option (String × String) := none

section

variable (source : TokenSource) (handles : List (String × String))

/-- The anchor and the tag at a place, in either order. -/
def properties (r : Reading) : Option (Properties × Reading) := do
  match (← source.token? r.place).token with
  | .anchor name =>
    match (← source.token? (r.place + 1)).token with
    | .tag handle suffix => return ({ anchor := name, tag := (handle, suffix) }, r.skip.skip)
    | _ => return ({ anchor := name }, r.skip)
  | .tag handle suffix =>
    match (← source.token? (r.place + 1)).token with
    | .anchor name => return ({ anchor := name, tag := (handle, suffix) }, r.skip.skip)
    | _ => return ({ tag := (handle, suffix) }, r.skip)
  | _ => return ({}, r)

/-- The whole tag. The tag of a single mark is no specific one. -/
def Properties.fullTag (p : Properties) : Option (Option String) :=
  match p.tag with
  | none => some none
  | some ("", "!") => some none
  | some ("", tag) => some (some (shortTag tag))
  | some (handle, suffix) =>
    (handles.find? (·.1 = handle)).map fun (_, start) => some (shortTag (start ++ suffix))

mutual

/-- The node at a place. A list without indentation of its own may stand where `indentless`. -/
def nodeAt : Nat → (inBlock indentless : Bool) → Reading → Option (Node × Reading)
  | 0, _, _, _ => none
  | fuel + 1, inBlock, indentless, r => do
    let first ← source.token? r.place
    match first.token with
    | .alias name =>
      let (_, number) ← r.names.find? (·.1 = name)
      return (.alias number, r.skip)
    | _ =>
      let (p, r) ← properties source r
      let tag ← p.fullTag handles
      let (number, r) := r.announce p.anchor
      let here ← source.token? r.place
      let finish (node : Node) (r : Reading) : Option (Node × Reading) := some (node, r.keep number node)
      match here.token with
      | .entry =>
        if indentless then
          let (items, r) ← indentlessItems fuel r
          finish (.sequence first.line tag items) r
        else if p.anchor.isSome || p.tag.isSome then finish (.scalar first.line tag "" .plain) r
        else none
      | .scalar text style =>
        finish (.scalar first.line tag text style) r.skip
      | .openBracket =>
        let (items, r) ← flowItems fuel true r.skip
        finish (.sequence first.line tag items) r
      | .openBrace =>
        let (entries, r) ← flowEntries fuel true r.skip
        finish (.mapping first.line tag entries) r
      | .sequenceStart =>
        if inBlock then
          let (items, r) ← blockItems fuel r.skip
          finish (.sequence first.line tag items) r
        else if p.anchor.isSome || p.tag.isSome then finish (.scalar first.line tag "" .plain) r
        else none
      | .mappingStart =>
        if inBlock then
          let (entries, r) ← blockEntries fuel r.skip
          finish (.mapping first.line tag entries) r
        else if p.anchor.isSome || p.tag.isSome then finish (.scalar first.line tag "" .plain) r
        else none
      | _ =>
        if p.anchor.isSome || p.tag.isSome then finish (.scalar first.line tag "" .plain) r
        else none

/-- The node of an item or of a key or value, empty before the tokens that `stops` tells. -/
def nodeOrEmpty : Nat → (stops : Token → Bool) → (inBlock indentless : Bool) → Reading →
    Option (Node × Reading)
  | 0, _, _, _, _ => none
  | fuel + 1, stops, inBlock, indentless, r => do
    let here ← source.token? r.place
    if stops here.token then return (.empty here.line, r) else nodeAt fuel inBlock indentless r

def blockItems : Nat → Reading → Option (List Node × Reading)
  | 0, _ => none
  | fuel + 1, r => do
    match (← source.token? r.place).token with
    | .entry =>
      let (item, r) ← nodeOrEmpty fuel (fun t => t = .entry || t = .blockEnd) true false r.skip
      let (items, r) ← blockItems fuel r
      return (item :: items, r)
    | .blockEnd => return ([], r.skip)
    | _ => none

/-- The items of a list that stands at the column of its key. -/
def indentlessItems : Nat → Reading → Option (List Node × Reading)
  | 0, _ => none
  | fuel + 1, r => do
    match (← source.token? r.place).token with
    | .entry =>
      let (item, r) ← nodeOrEmpty fuel
        (fun t => t = .entry || t = .key || t = .value || t = .blockEnd) true false r.skip
      let (items, r) ← indentlessItems fuel r
      return (item :: items, r)
    | _ => return ([], r)

def blockEntries : Nat → Reading → Option (List (Node × Node) × Reading)
  | 0, _ => none
  | fuel + 1, r => do
    match (← source.token? r.place).token with
    | .key =>
      let stops (t : Token) : Bool := t = .key || t = .value || t = .blockEnd
      let (key, r) ← nodeOrEmpty fuel stops true true r.skip
      let next ← source.token? r.place
      let (value, r) ← (if next.token = .value then nodeOrEmpty fuel stops true true r.skip
        else some (.empty next.line, r))
      let (entries, r) ← blockEntries fuel r
      return ((key, value) :: entries, r)
    | .blockEnd => return ([], r.skip)
    | _ => none

/-- The items of a list in brackets; `first` where no comma is needed. A key in a list makes a mapping of
one entry. -/
def flowItems : Nat → (first : Bool) → Reading → Option (List Node × Reading)
  | 0, _, _ => none
  | fuel + 1, first, r => do
    let here ← source.token? r.place
    if here.token = .closeBracket then return ([], r.skip)
    else
      let r ← (if first then some r else if here.token = .comma then some r.skip else none)
      let here ← source.token? r.place
      match here.token with
      | .closeBracket => return ([], r.skip)
      | .key =>
        let r := r.skip
        let next ← source.token? r.place
        let (key, r) ← (
          if next.token = .value || next.token = .comma || next.token = .closeBracket then
            some (.empty next.line, r.skip)
          else nodeAt fuel false false r)
        let next ← source.token? r.place
        let (value, r) ← (if next.token = .value then
            nodeOrEmpty fuel (fun t => t = .comma || t = .closeBracket) false false r.skip
          else some (.empty next.line, r))
        let (items, r) ← flowItems fuel false r
        return (.mapping here.line none [(key, value)] :: items, r)
      | _ =>
        let (item, r) ← nodeAt fuel false false r
        let (items, r) ← flowItems fuel false r
        return (item :: items, r)

def flowEntries : Nat → (first : Bool) → Reading → Option (List (Node × Node) × Reading)
  | 0, _, _ => none
  | fuel + 1, first, r => do
    let here ← source.token? r.place
    if here.token = .closeBrace then return ([], r.skip)
    else
      let r ← (if first then some r else if here.token = .comma then some r.skip else none)
      let here ← source.token? r.place
      match here.token with
      | .closeBrace => return ([], r.skip)
      | .key =>
        let (key, r) ← nodeOrEmpty fuel (fun t => t = .value || t = .comma || t = .closeBrace)
          false false r.skip
        let next ← source.token? r.place
        let (value, r) ← (if next.token = .value then
            nodeOrEmpty fuel (fun t => t = .comma || t = .closeBrace) false false r.skip
          else some (.empty next.line, r))
        let (entries, r) ← flowEntries fuel false r
        return ((key, value) :: entries, r)
      | _ =>
        let (key, r) ← nodeAt fuel false false r
        let next ← source.token? r.place
        let (entries, r) ← flowEntries fuel false r
        return ((key, .empty next.line) :: entries, r)

end

end

def commonHandles : List (String × String) := [("!", "!"), ("!!", standardTags)]

/-- Reads the directives before a document: one version, 1.1, and handles of tags, each once. -/
def directives (source : TokenSource) :
    Nat → Reading → (versioned : Bool) → List (String × String) → Option (List (String × String) × Reading)
  | 0, _, _, _ => none
  | fuel + 1, r, versioned, handles => do
    match (← source.token? r.place).token with
    | .version major minor =>
      if versioned || major ≠ 1 || minor ≠ 1 then none
      else directives source fuel r.skip true handles
    | .tagHandle handle start =>
      if handles.any (·.1 = handle) then none
      else directives source fuel r.skip versioned ((handle, start) :: handles)
    | _ => return (handles ++ commonHandles, r)

/-- The first document of a text: none if it has no document at all. The outer `none` is a fault. -/
def firstDocument (text : String) : Option (Option NodeTree) := do
  let (found, complete) := tokens text.toList
  let source : TokenSource := ⟨found.toArray, complete⟩
  let fuel := 4 * source.tokens.size + 8
  let start : Reading := { place := 0 }
  let finish (node : Node) (r : Reading) : Option (Option NodeTree) := do
    let _ ← source.token? r.place
    return some ⟨node, r.anchored, fuel⟩
  match (← source.token? 0).token with
  | .streamEnd => return none
  | .version _ _ | .tagHandle _ _ | .documentStart =>
    let (handles, r) ← directives source fuel start false []
    match (← source.token? r.place).token with
    | .documentStart =>
      let r := r.skip
      let here ← source.token? r.place
      match here.token with
      | .version _ _ | .tagHandle _ _ | .documentStart | .documentEnd | .streamEnd =>
        finish (.empty here.line) r
      | _ =>
        let (node, r) ← nodeAt source handles fuel true false r
        finish node r
    | _ => none
  | _ =>
    let (node, r) ← nodeAt source commonHandles fuel true false start
    finish node r

end ClasspathAudit.Yaml
