import ClasspathAudit.Text.Letter
import ClasspathAudit.Text.Split
import ClasspathAudit.Text.Utf8
import ClasspathAudit.Xml.Name

/-!
XML documents as trees of elements and character data. Reading ends with the root element; attributes,
comments, instructions and declarations are checked and dropped.
-/

namespace ClasspathAudit.Xml

/-- A piece of character data, or an element under the local part of its name. -/
inductive Node where
  | text (data : String)
  | element (name : String) (children : List Node)
deriving Repr

/-- A name with the part before its colon, if it has both parts. -/
structure QName where
  space : String
  name : String
deriving DecidableEq, Repr

inductive Token where
  /-- A start tag, which may close its element at once. -/
  | start (name : QName) (closed : Bool)
  | finish (name : QName)
  | text (data : String)
  | skipped
deriving Repr

abbrev Bytes := List UInt8

def byte (c : Char) : UInt8 := UInt8.ofNat c.toNat

def ascii (s : String) : Bytes := s.toList.map byte

/-- Text after a fixed beginning. -/
def after? (start : String) (bytes : Bytes) : Option Bytes :=
  if (ascii start).isPrefixOf bytes then some (bytes.drop start.length) else none

def skipSpace (bytes : Bytes) : Bytes := bytes.dropWhile (ascii " \r\n\t").contains

/-- Whether a byte can be part of a name: ASCII by its kind, any other byte for now. -/
def isNameByte (b : UInt8) : Bool :=
  0x80 ≤ b || (byte 'A' ≤ b && b ≤ byte 'Z') || (byte 'a' ≤ b && b ≤ byte 'z') ||
    (byte '0' ≤ b && b ≤ byte '9') || (ascii "_:.-").contains b

def name? (bytes : Bytes) : Option (String × Bytes) :=
  let raw := bytes.takeWhile isNameByte
  let rest := bytes.drop raw.length
  let name := Text.decodeUtf8 raw
  if rest.isEmpty || !Text.validUtf8 0 raw || !isName name.toList then none else some (name, rest)

/-- A name with at most one colon. -/
def qname? (bytes : Bytes) : Option (QName × Bytes) := do
  let (name, rest) ← name? bytes
  match Text.splitOnChar ':' name with
  | [_] => some (⟨"", name⟩, rest)
  | [space, tail] =>
    if space.isEmpty || tail.isEmpty then some (⟨"", name⟩, rest) else some (⟨space, tail⟩, rest)
  | _ => none

def namedEntity? (name : String) : Option Char :=
  match name with
  | "lt" => some '<'
  | "gt" => some '>'
  | "amp" => some '&'
  | "apos" => some '\''
  | "quot" => some '"'
  | _ => none

def digitIn? (base : Nat) (b : UInt8) : Option Nat :=
  if byte '0' ≤ b && b ≤ byte '9' then some (b - byte '0').toNat
  else if base = 16 && byte 'a' ≤ b && b ≤ byte 'f' then some ((b - byte 'a').toNat + 10)
  else if base = 16 && byte 'A' ≤ b && b ≤ byte 'F' then some ((b - byte 'A').toNat + 10)
  else none

/-- The character of a number; a surrogate has none and is replaced. -/
def charOf? (code : Nat) : Option Char :=
  if 0x10FFFF < code then none
  else if 0xD800 ≤ code ∧ code ≤ 0xDFFF then some Text.replacement
  else some (Char.ofNat code)

def numericEntity? (base : Nat) (bytes : Bytes) : Option (Char × Bytes) :=
  let digits := bytes.takeWhile fun b => (digitIn? base b).isSome
  match bytes.drop digits.length with
  | semicolon :: rest =>
    if semicolon = byte ';' ∧ !digits.isEmpty then
      let code := digits.foldl (fun n b => n * base + (digitIn? base b).getD 0) 0
      if 0x10000000000000000 ≤ code then none else (charOf? code).map fun c => (c, rest)
    else none
  | [] => none

/-- The character that a reference after its ampersand stands for. -/
def entity? (bytes : Bytes) : Option (Char × Bytes) :=
  match after? "#x" bytes, after? "#" bytes with
  | some rest, _ => numericEntity? 16 rest
  | none, some rest => numericEntity? 10 rest
  | none, none => do
    let (name, rest) ← name? bytes
    let c ← namedEntity? name
    let rest ← after? ";" rest
    return (c, rest)

/-- Characters that a document may hold. -/
def isDocumentChar (c : Char) : Bool :=
  let n := c.toNat
  n = 9 || n = 10 || n = 13 || (0x20 ≤ n && n ≤ 0xD7FF) || (0xE000 ≤ n && n ≤ 0xFFFD) || 0x10000 ≤ n

/-- How a piece of character data ends: a quoted one at its quote, a raw one after two closing brackets
and an angle, a plain one before the next tag. -/
inductive DataKind where
  | quoted (quote : UInt8)
  | raw
  | plain
deriving DecidableEq, Repr

/-- Collects character data, backwards. `before` and `last` are the two bytes read last; a line end of
two characters becomes one. -/
def collect (kind : DataKind) : Nat → (before last : UInt8) → (done : Bytes) → Bytes →
    Option (Bytes × Bytes)
  | 0, _, _, _, _ => none
  | _ + 1, _, _, done, [] => if kind = .raw then none else some (done, [])
  | fuel + 1, before, last, done, b :: rest =>
    let bracket := byte ']'
    if (kind = .raw ∨ kind = .plain) ∧ before = bracket ∧ last = bracket ∧ b = byte '>' then
      if kind = .raw then some (done.drop 2, rest) else none
    else if b = byte '<' ∧ kind ≠ .raw then
      if kind = .plain then some (done, b :: rest) else none
    else if kind = .quoted b then some (done, rest)
    else if b = byte '&' ∧ kind ≠ .raw then
      match entity? rest with
      | some (c, rest) =>
        collect kind fuel 0 0 ((Text.encodeUtf8 (String.singleton c)).reverse ++ done) rest
      | none => none
    else
      let done :=
        if b = 13 then 10 :: done
        else if last = 13 ∧ b = 10 then done
        else b :: done
      collect kind fuel last b done rest

/-- Character data of a kind, and what follows it. -/
def data? (kind : DataKind) (bytes : Bytes) : Option (String × Bytes) := do
  let (backwards, rest) ← collect kind (bytes.length + 1) 0 0 [] bytes
  let raw := backwards.reverse
  let text := Text.decodeUtf8 raw
  if Text.validUtf8 0 raw && text.toList.all isDocumentChar then some (text, rest) else none

/-- The rest after the first occurrence of `mark`, and what stands before it. -/
def until? (mark : Bytes) : Bytes → Option (Bytes × Bytes)
  | [] => none
  | b :: rest =>
    if mark.isPrefixOf (b :: rest) then some ([], (b :: rest).drop mark.length)
    else (until? mark rest).map fun (found, rest) => (b :: found, rest)

/-- A value in an instruction: what stands between quotes after the first `key=` that a quote follows. -/
def instructionValue (key : String) : Nat → Bytes → Bytes
  | 0, _ => []
  | fuel + 1, bytes =>
    match until? (ascii (key ++ "=")) bytes with
    | some (_, quote :: rest) =>
      if quote = byte '\'' ∨ quote = byte '"' then ((until? [quote] rest).map Prod.fst).getD []
      else instructionValue key fuel rest
    | _ => []

/-- The rest after an instruction; a document declares version 1.0 and UTF-8, if anything. -/
def instruction? (bytes : Bytes) : Option Bytes := do
  let (target, rest) ← name? bytes
  let (body, rest) ← until? (ascii "?>") (skipSpace rest)
  let version := instructionValue "version" body.length body
  let encoding := Text.decodeUtf8 (instructionValue "encoding" body.length body)
  if target = "xml" ∧ ((version ≠ [] ∧ version ≠ ascii "1.0") ∨
      (encoding ≠ "" ∧ !Text.equalFold encoding "utf-8")) then none
  else some rest

/-- The rest after a comment, in which no two hyphens may stand before its end. -/
def comment? (bytes : Bytes) : Option Bytes := do
  let (_, rest) ← until? (ascii "--") bytes
  after? ">" rest

/-- The rest after a declaration. Angles nest outside quotes, and comments count as blanks; `fresh` says
that the next byte can end the declaration. -/
def declaration? : Nat → (quote : UInt8) → (depth : Nat) → (fresh : Bool) → Bytes → Option Bytes
  | 0, _, _, _, _ => none
  | _, _, _, _, [] => none
  | fuel + 1, quote, depth, fresh, b :: rest =>
    let angle := byte '>'
    if fresh ∧ quote = 0 ∧ b = angle ∧ depth = 0 then some rest
    else if b = quote then declaration? fuel 0 depth true rest
    else if quote ≠ 0 then declaration? fuel quote depth true rest
    else if b = byte '\'' ∨ b = byte '"' then declaration? fuel b depth true rest
    else if b = angle then declaration? fuel 0 (depth - 1) true rest
    else if b = byte '<' then
      match after? "!--" rest with
      | some inner => do
        let (_, rest) ← until? (ascii "-->") inner
        declaration? fuel 0 depth true rest
      | none =>
        let opening := if (ascii "!-").isPrefixOf rest then 2 else if (ascii "!").isPrefixOf rest then 1 else 0
        declaration? fuel 0 (depth + 1) false (rest.drop opening)
    else declaration? fuel 0 depth true rest

/-- The rest after the attributes of a start tag, and whether the tag closes its element. -/
def attributes? : Nat → Bytes → Option (Bool × Bytes)
  | 0, _ => none
  | fuel + 1, bytes =>
    let bytes := skipSpace bytes
    match after? "/" bytes, after? ">" bytes with
    | some rest, _ => (after? ">" rest).map fun rest => (true, rest)
    | none, some rest => some (false, rest)
    | none, none => do
      let (_, rest) ← qname? bytes
      let rest ← after? "=" (skipSpace rest)
      match skipSpace rest with
      | quote :: rest =>
        if quote = byte '\'' ∨ quote = byte '"' then
          let (_, rest) ← data? (.quoted quote) rest
          attributes? fuel rest
        else none
      | [] => none

def token? (bytes : Bytes) : Option (Token × Bytes) :=
  match after? "<" bytes with
  | none => if bytes.isEmpty then none else (data? .plain bytes).map fun (t, rest) => (.text t, rest)
  | some tag =>
    match after? "/" tag, after? "?" tag, after? "!" tag with
    | some rest, _, _ => do
      let (name, rest) ← qname? rest
      let rest ← after? ">" (skipSpace rest)
      return (.finish name, rest)
    | none, some rest, _ => (instruction? rest).map fun rest => (.skipped, rest)
    | none, none, some rest =>
      match after? "-" rest, after? "[" rest, rest with
      | some rest, _, _ => do
        let rest ← after? "-" rest
        let rest ← comment? rest
        return (.skipped, rest)
      | none, some rest, _ => do
        let rest ← after? "CDATA[" rest
        let (text, rest) ← data? .raw rest
        return (.text text, rest)
      | none, none, _ :: rest =>
        (declaration? (rest.length + 1) 0 0 true rest).map fun rest => (.skipped, rest)
      | none, none, [] => none
    | none, none, none => do
      let (name, rest) ← qname? tag
      let (closed, rest) ← attributes? (rest.length + 1) rest
      return (.start name closed, rest)

/-- An element whose end has not been met, with its children backwards. -/
structure OpenElement where
  name : QName
  children : List Node

def OpenElement.close (e : OpenElement) : Node := .element e.name.name e.children.reverse

def addChild (node : Node) : List OpenElement → List OpenElement
  | [] => []
  | e :: outer => { e with children := node :: e.children } :: outer

def readTokens : Nat → List OpenElement → Bytes → Option Node
  | 0, _, _ => none
  | fuel + 1, stack, bytes => do
    let (token, rest) ← token? bytes
    match token, stack with
    | .skipped, _ => readTokens fuel stack rest
    | .text data, _ => readTokens fuel (addChild (.text data) stack) rest
    | .start name false, _ => readTokens fuel (⟨name, []⟩ :: stack) rest
    | .start name true, [] => some (.element name.name [])
    | .start name true, _ => readTokens fuel (addChild (.element name.name []) stack) rest
    | .finish _, [] => none
    | .finish name, e :: outer =>
      if e.name ≠ name then none
      else if outer.isEmpty then some e.close
      else readTokens fuel (addChild e.close outer) rest

def parse? (bytes : Bytes) : Option Node := readTokens (bytes.length + 1) [] bytes

namespace Node

def ownText : List Node → String
  | [] => ""
  | .text data :: rest => data ++ ownText rest
  | .element _ _ :: rest => ownText rest

/-- The children of the elements of a name, in order. -/
def childrenNamed (name : String) (nodes : List Node) : List (List Node) :=
  nodes.filterMap fun
    | .element found children => if found = name then some children else none
    | .text _ => none

/-- The text of the last element of a name, empty without one. -/
def lastText (name : String) (nodes : List Node) : String :=
  (((childrenNamed name nodes).getLast?).map ownText).getD ""

end Node

end ClasspathAudit.Xml
