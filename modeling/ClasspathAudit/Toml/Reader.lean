import ClasspathAudit.Toml.Scalar

/-!
Reading TOML. A document is a list of statements, headings and assignments, which build its tables; no
key is defined twice, and what one statement has closed no other may open.
-/

namespace ClasspathAudit.Toml

/-- How a table came about, which decides who may add to it. -/
inductive TableOrigin where
  /-- On the way to a table below. -/
  | passed
  | heading
  /-- By a key with dots. -/
  | dotted
deriving DecidableEq, Repr

/-- A document under construction. -/
inductive Draft where
  | value (value : Value)
  | table (origin : TableOrigin) (fields : List (String × Draft))
  /-- Tables under one heading in double brackets. -/
  | tables (items : List (List (String × Draft)))

namespace Draft

def get? (name : String) (fields : List (String × Draft)) : Option Draft :=
  (fields.find? (·.1 = name)).map Prod.snd

def set (name : String) (draft : Draft) (fields : List (String × Draft)) : List (String × Draft) :=
  if fields.any (·.1 = name) then fields.map fun f => if f.1 = name then (name, draft) else f
  else fields ++ [(name, draft)]

/-- Changes the table that a heading leads to. -/
def within (change : List (String × Draft) → Option (List (String × Draft))) :
    List String → List (String × Draft) → Option (List (String × Draft))
  | [], fields => change fields
  | name :: path, fields => do
    match get? name fields with
    | none => return set name (.table .passed (← within change path [])) fields
    | some (.table origin inner) => return set name (.table origin (← within change path inner)) fields
    | some (.tables items) =>
      let last ← items.getLast?
      return set name (.tables (items.dropLast ++ [← within change path last])) fields
    | some (.value _) => none

/-- Opens a table by its heading. -/
def openTable (name : String) (fields : List (String × Draft)) : Option (List (String × Draft)) :=
  match get? name fields with
  | none => some (set name (.table .heading []) fields)
  | some (.table .passed inner) => some (set name (.table .heading inner) fields)
  | _ => none

def addTable (name : String) (fields : List (String × Draft)) : Option (List (String × Draft)) :=
  match get? name fields with
  | none => some (set name (.tables [[]]) fields)
  | some (.tables items) => some (set name (.tables (items ++ [[]])) fields)
  | _ => none

/-- Assigns a value to a key of the table at hand. -/
def assign (value : Value) : List String → List (String × Draft) → Option (List (String × Draft))
  | [], _ => none
  | [name], fields =>
    match get? name fields with
    | none => some (set name (.value value) fields)
    | some _ => none
  | name :: path, fields => do
    match get? name fields with
    | none => return set name (.table .dotted (← assign value path [])) fields
    | some (.table .heading _) => none
    | some (.table origin inner) => return set name (.table origin (← assign value path inner)) fields
    | _ => none

def finish : Draft → Value
  | .value v => v
  | .table _ fields => .table (finishFields fields)
  | .tables items => .array (finishTables items)
where
  finishFields : List (String × Draft) → List (String × Value)
    | [] => []
    | (name, draft) :: rest => (name, finish draft) :: finishFields rest
  finishTables : List (List (String × Draft)) → List Value
    | [] => []
    | fields :: rest => .table (finishFields fields) :: finishTables rest

end Draft

/-- The rest of a line behind a comment, none if the comment holds what it may not. -/
def comment? (cs : List Char) : Option (List Char) :=
  match cs with
  | '#' :: rest =>
    let body := rest.takeWhile fun c => !isControl c
    let rest := rest.drop body.length
    if rest.isEmpty ∨ (lineEnd? rest).isSome then some rest else none
  | _ => some cs

/-- Skips blanks, line ends and comments. -/
def skipLines : Nat → List Char → Option (List Char)
  | 0, _ => none
  | fuel + 1, cs => do
    let rest ← comment? (skipBlanks cs)
    match lineEnd? rest with
    | some rest => skipLines fuel rest
    | none => return rest

def skipGap (cs : List Char) : Option (List Char) := skipLines (cs.length + 1) cs

def isBareKey (c : Char) : Bool := c.isAlphanum || c = '-' || c = '_'

def keyPart? (revision : Revision) (cs : List Char) : Option (String × List Char) :=
  match cs with
  | c :: d :: e :: _ =>
    if (c = '\x22' ∨ c = '\'') ∧ d = c ∧ e = c then none
    else part cs
  | _ => part cs
where
  part (cs : List Char) : Option (String × List Char) :=
    match string? revision cs with
    | some found => some found
    | none =>
      let bare := cs.takeWhile isBareKey
      if bare.isEmpty then none else some (String.ofList bare, cs.drop bare.length)

/-- A key, its parts between dots. -/
def key? (revision : Revision) : Nat → List Char → Option (List String × List Char)
  | 0, _ => none
  | fuel + 1, cs => do
    let (part, rest) ← keyPart? revision (skipBlanks cs)
    match skipBlanks rest with
    | '.' :: rest =>
      let (parts, rest) ← key? revision fuel rest
      return (part :: parts, rest)
    | rest => return ([part], rest)

/-- A key, an equals sign and a value. -/
def assignment? (revision : Revision) (value : List Char → Option (Value × List Char))
    (cs : List Char) : Option ((List String × Value) × List Char) := do
  let (key, rest) ← key? revision (cs.length + 1) cs
  let '=' :: rest := rest | none
  let (v, rest) ← value (skipBlanks rest)
  return ((key, v), rest)

def items? (value : List Char → Option (Value × List Char)) :
    Nat → List Char → Option (List Value × List Char)
  | 0, _ => none
  | fuel + 1, cs => do
    match ← skipGap cs with
    | ']' :: rest => return ([], rest)
    | rest =>
      let (item, rest) ← value rest
      match ← skipGap rest with
      | ',' :: rest =>
        let (items, rest) ← items? value fuel rest
        return (item :: items, rest)
      | ']' :: rest => return ([item], rest)
      | _ => none

/-- What separates the parts of an inline table: the first revision keeps it on one line. -/
def inlineGap (revision : Revision) (cs : List Char) : Option (List Char) :=
  if revision = .second then skipGap cs else some (skipBlanks cs)

/-- The fields of an inline table behind its brace or a comma; `closable` tells whether it may end here. -/
def inlineFields? (revision : Revision) (value : List Char → Option (Value × List Char)) :
    Nat → Bool → List (String × Draft) → List Char → Option (List (String × Draft) × List Char)
  | 0, _, _, _ => none
  | fuel + 1, closable, fields, cs => do
    match ← inlineGap revision cs with
    | '}' :: rest => if closable then return (fields, rest) else none
    | rest =>
      let ((key, v), rest) ← assignment? revision value rest
      let fields ← Draft.assign v key fields
      match ← inlineGap revision rest with
      | ',' :: rest => inlineFields? revision value fuel (revision = .second) fields rest
      | '}' :: rest => return (fields, rest)
      | _ => none

/-- A value and what follows it; the fuel bounds how deep values are nested. -/
def value? (revision : Revision) : Nat → List Char → Option (Value × List Char)
  | 0, _ => none
  | fuel + 1, cs =>
    match cs with
    | [] => none
    | c :: rest =>
      if c = '\x22' ∨ c = '\'' then (string? revision cs).map fun (s, rest) => (.text s, rest)
      else if c = '[' then
        (items? (value? revision fuel) (rest.length + 1) rest).map fun (items, rest) =>
          (.array items, rest)
      else if c = '\x7b' then
        (inlineFields? revision (value? revision fuel) (rest.length + 1) true [] rest).map
          fun (fields, rest) => (.table (Draft.finish.finishFields fields), rest)
      else literalValue? revision cs

/-- The end of a statement: a comment at most, and the end of the line or of the text. -/
def statementEnd? (cs : List Char) : Option (List Char) := do
  let rest ← comment? (skipBlanks cs)
  if rest.isEmpty then some [] else lineEnd? rest

/-- A heading behind its bracket: its key, whether it has double brackets, and what follows. -/
def heading? (revision : Revision) (cs : List Char) : Option ((List String × Bool) × List Char) :=
  match cs with
  | '[' :: rest => do
    let (key, rest) ← key? revision (rest.length + 1) rest
    let ']' :: ']' :: rest := rest | none
    return ((key, true), rest)
  | _ => do
    let (key, rest) ← key? revision (cs.length + 1) cs
    let ']' :: rest := rest | none
    return ((key, false), rest)

/-- Reads the statements of a text into the tables at hand; `current` is the key of the last heading. -/
def statements (revision : Revision) :
    Nat → (current : List String) → List (String × Draft) → List Char → Option (List (String × Draft))
  | 0, _, _, _ => none
  | fuel + 1, current, fields, cs => do
    match ← skipGap cs with
    | [] => return fields
    | '[' :: rest =>
      let ((key, double), rest) ← heading? revision rest
      let name ← key.getLast?
      let fields ← Draft.within (if double then Draft.addTable name else Draft.openTable name)
        key.dropLast fields
      statements revision fuel key fields (← statementEnd? rest)
    | rest =>
      let ((key, v), rest) ← assignment? revision (value? revision (rest.length + 1)) rest
      let fields ← Draft.within (Draft.assign v key) current fields
      statements revision fuel current fields (← statementEnd? rest)

/-- The table that a text is. The second revision passes over a mark of the byte order in front. -/
def parse? (revision : Revision) (text : String) : Option Value := do
  let cs := match revision, text.toList with
    | .second, '\uFEFF' :: cs => cs
    | _, cs => cs
  return .table (Draft.finish.finishFields (← statements revision (cs.length + 1) [] [] cs))

end ClasspathAudit.Toml
