import ClasspathAudit.Text.Utf8
import ClasspathAudit.Yaml.Scalar

/-!
The tokens of YAML. Beside the marks in the text there are tokens for the blocks that indentation
makes, and a token in front of every key; that a key was one shows only at its colon, so its token and
perhaps the start of a block are then put in front of it.
-/

namespace ClasspathAudit.Yaml

inductive ScalarStyle where
  | plain
  | quoted
  | block
deriving DecidableEq, Repr

inductive Token where
  | streamEnd
  | version (major minor : Nat)
  | tagHandle (handle start : String)
  | documentStart
  | documentEnd
  | sequenceStart
  | mappingStart
  | blockEnd
  | openBracket
  | closeBracket
  | openBrace
  | closeBrace
  | entry
  | comma
  | key
  | value
  | alias (name : String)
  | anchor (name : String)
  | tag (handle suffix : String)
  | scalar (text : String) (style : ScalarStyle)
deriving DecidableEq, Repr

/-- A token and the line it begins on. -/
structure PlacedToken where
  line : Nat
  token : Token
deriving DecidableEq, Repr

/-- A place where a key may have begun. -/
structure PossibleKey where
  /-- Nothing but a key can stand here. -/
  required : Bool
  /-- How many tokens stand before it. -/
  position : Nat
  index : Nat
  line : Nat
  column : Nat

/-- A text that is being cut into tokens. -/
structure Scan where
  cursor : Cursor
  /-- The tokens so far, in reverse, and how many they are. -/
  tokens : List PlacedToken := []
  count : Nat := 0
  /-- The column of the innermost block, and of those around it. -/
  indent : Int := -1
  outer : List Int := []
  /-- The possible keys of the open flow collections, innermost first, and of the block around them. -/
  possible : List (Option PossibleKey) := [none]
  /-- Whether a key may begin here. -/
  keyAllowed : Bool := true

namespace Scan

def inFlow (s : Scan) : Bool := decide (1 < s.possible.length)

def push (token : Token) (line : Nat) (s : Scan) : Scan :=
  { s with tokens := ⟨line, token⟩ :: s.tokens, count := s.count + 1 }

def insertAt (position line : Nat) (inserted : List Token) (s : Scan) : Scan :=
  let later := s.tokens.take (s.count - position)
  let earlier := s.tokens.drop (s.count - position)
  { s with
    tokens := later ++ ((inserted.map (PlacedToken.mk line)).reverse ++ earlier)
    count := s.count + inserted.length }

def currentKey (s : Scan) : Option PossibleKey := s.possible.head?.join

def setKey (k : Option PossibleKey) (s : Scan) : Scan :=
  { s with possible := k :: s.possible.tail }

/-- Gives up the possible key of this level, unless it is required. -/
def dropKey (s : Scan) : Option Scan :=
  match s.currentKey with
  | some k => if k.required then none else some (s.setKey none)
  | none => some s

/-- Notes that a key may begin here. -/
def noteKey (s : Scan) : Option Scan :=
  if s.keyAllowed then do
    let s ← s.dropKey
    let c := s.cursor
    return s.setKey (some {
      required := !s.inFlow && s.indent = c.column
      position := s.count
      index := c.index
      line := c.line
      column := c.column })
  else some s

/-- The possible key of this level if a colon here would end it: keys keep to one line and to 1024
characters. -/
def liveKey (s : Scan) : Option (Option PossibleKey) :=
  match s.currentKey with
  | some k =>
    if k.line < s.cursor.line ∨ k.index + 1024 < s.cursor.index then
      if k.required then none else some none
    else some (some k)
  | none => some none

def opensBlock (column : Nat) (s : Scan) : Bool := !s.inFlow && decide (s.indent < column)

def openBlock (column : Nat) (s : Scan) : Scan :=
  { s with indent := column, outer := s.indent :: s.outer }

/-- Begins a block at the column of the cursor if that lies further in. -/
def rollHere (token : Token) (s : Scan) : Scan :=
  if s.opensBlock s.cursor.column then
    (s.push token s.cursor.line).openBlock s.cursor.column
  else s

/-- Ends the blocks that lie further in than a column. -/
def unroll (column : Int) : List Int → Scan → Scan
  | [], s => s
  | next :: outer, s =>
    if column < s.indent then
      unroll column outer { s.push .blockEnd s.cursor.line with indent := next, outer }
    else s

/-- Ends the blocks that lie further in than a column; none ends inside a flow collection. -/
def unrollTo (column : Int) (s : Scan) : Scan :=
  if s.inFlow then s else unroll column s.outer s

/-- To the next token, past blanks, comments and line breaks. -/
def skipGaps : Nat → Scan → Scan
  | 0, s => s
  | fuel + 1, s =>
    let c := s.cursor.skipWhile fun ch => ch = ' ' || ((s.inFlow || !s.keyAllowed) && ch = '\t')
    let c := if c.next? = some '#' then c.skipComments (c.rest.length + 1) else c
    if c.rest.head?.any isBreak then
      skipGaps fuel { s with cursor := c.skipBreak, keyAllowed := s.keyAllowed || !s.inFlow }
    else { s with cursor := c }

def mark (token : Token) (s : Scan) : Scan :=
  { s.push token s.cursor.line with cursor := s.cursor.skip }

def name (c : Cursor) : Option (String × Cursor) :=
  let chars := c.rest.takeWhile isWord
  let c := c.skipMany chars.length
  if chars.isEmpty || !(atGap c.rest || c.rest.head?.any "?:,]\x7d%@`".toList.contains) then none
  else some (String.ofList chars, c)

def isTagChar (c : Char) : Bool := isWord c || ";/?:@&=+$,.!~*'()[]%".toList.contains c

def escapedBytes : List Char → List UInt8 × List Char
  | '%' :: a :: b :: rest =>
    match Text.hexValue? a, Text.hexValue? b with
    | some high, some low =>
      let (bytes, rest) := escapedBytes rest
      (UInt8.ofNat (high * 16 + low) :: bytes, rest)
    | _, _ => ([], '%' :: a :: b :: rest)
  | cs => ([], cs)

def unescapeTag : Nat → List Char → Option (List Char)
  | 0, _ => none
  | _ + 1, [] => some []
  | fuel + 1, '%' :: rest =>
    let (bytes, rest) := escapedBytes ('%' :: rest)
    if bytes.isEmpty || !Text.validUtf8 (bytes.length + 1) bytes then none
    else (unescapeTag fuel rest).map ((Text.decodeUtf8 bytes).toList ++ ·)
  | fuel + 1, c :: rest => (unescapeTag fuel rest).map (c :: ·)

def tagText (c : Cursor) : Option (String × Cursor) := do
  let chars := c.rest.takeWhile isTagChar
  let text ← unescapeTag (chars.length + 1) chars
  return (String.ofList text, c.skipMany chars.length)

/-- A handle of tags: a mark, a word and perhaps a second mark. -/
def handle (c : Cursor) : String × Cursor :=
  let word := c.skip.rest.takeWhile isWord
  let c := c.skip.skipMany word.length
  if c.next? = some '!' then (String.ofList ('!' :: word ++ ['!']), c.skip)
  else (String.ofList ('!' :: word), c)

/-- A tag, as its handle and what follows that. -/
def tagAt (c : Cursor) : Option (Token × Cursor) := do
  let (token, c) ← (match c.rest with
    | _ :: '<' :: _ => do
      let (text, c) ← tagText c.skip.skip
      if text.isEmpty || c.next? ≠ some '>' then none else some (Token.tag "" text, c.skip)
    | _ =>
      let (found, after) := handle c
      if found.length > 1 && found.endsWith "!" then do
        let (text, after) ← tagText after
        if text.isEmpty then none else some (Token.tag found text, after)
      else do
        let (text, after) ← tagText c.skip
        some (if text.isEmpty then (Token.tag "" "!", after) else (Token.tag "!" text, after)))
  if atGap c.rest then some (token, c) else none

/-- A number of at most two digits. -/
def directiveNumber (c : Cursor) : Option (Nat × Cursor) :=
  let digits := c.rest.takeWhile Char.isDigit
  if digits.isEmpty || digits.length > 2 then none
  else some (digits.foldl (fun n d => n * 10 + (d.toNat - 48)) 0, c.skipMany digits.length)

/-- A directive, from behind its mark to the end of its line. -/
def directiveAt (c : Cursor) : Option (Token × Cursor) := do
  let word := c.rest.takeWhile isWord
  let c := c.skipMany word.length
  if !atGap c.rest then none
  else
    let c := c.skipWhile isBlank
    let (token, c) ← (if word = "YAML".toList then do
        let (major, c) ← directiveNumber c
        if c.next? ≠ some '.' then none
        else
          let (minor, c) ← directiveNumber c.skip
          some (Token.version major minor, c)
      else if word = "TAG".toList then do
        if c.next? ≠ some '!' then none
        else
          let (found, c) := handle c
          if (found ≠ "!" && !(found.length > 1 && found.endsWith "!")) || !c.rest.head?.any isBlank then
            none
          else
            let (text, c) ← tagText (c.skipWhile isBlank)
            if text.isEmpty || !atGap c.rest then none else some (Token.tagHandle found text, c)
      else none)
    let c := c.skipWhile isBlank
    let c := if c.next? = some '#' then c.skipLine else c
    if atLineEnd c.rest then some (token, c.skipBreak) else none

def pushScalar (text : List Char) (style : ScalarStyle) (c : Cursor) (s : Scan) : Scan :=
  { s.push (.scalar (String.ofList text.reverse) style) s.cursor.line with cursor := c }

/-- An opening bracket: a flow collection may be a key itself, and keys may begin in it. -/
def openFlow (token : Token) (s : Scan) : Option Scan := do
  let s ← s.noteKey
  return { s.mark token with possible := none :: s.possible, keyAllowed := true }

def closeFlow (token : Token) (s : Scan) : Option Scan := do
  let s ← s.dropKey
  let possible := if s.inFlow then s.possible.tail else s.possible
  return { s.mark token with possible, keyAllowed := false }

def itemMark (s : Scan) : Option Scan := do
  if !s.inFlow && !s.keyAllowed then none
  else
    let s ← (s.rollHere .sequenceStart).dropKey
    return { s.mark .entry with keyAllowed := true }

def keyMark (s : Scan) : Option Scan := do
  if !s.inFlow && !s.keyAllowed then none
  else
    let s ← (s.rollHere .mappingStart).dropKey
    return { s.mark .key with keyAllowed := !s.inFlow }

def valueMark (s : Scan) : Option Scan := do
  match ← s.liveKey with
  | some k =>
    let opened := s.opensBlock k.column
    let s := s.insertAt k.position k.line (if opened then [.mappingStart, .key] else [.key])
    let s := if opened then s.openBlock k.column else s
    return { (s.setKey none).mark .value with keyAllowed := false }
  | none =>
    if s.inFlow then return { s.mark .value with keyAllowed := false }
    else if !s.keyAllowed then none
    else return { (s.rollHere .mappingStart).mark .value with keyAllowed := true }

/-- Ends the blocks and the possible key before a directive, a mark of a document or the end. -/
def endContent (s : Scan) : Option Scan := do
  let s ← (s.unrollTo (-1)).dropKey
  return { s with keyAllowed := false }

def startsPlain (s : Scan) : Bool :=
  match s.cursor.rest with
  | [] => false
  | c :: rest =>
    !(isGap c || isIndicator c) || (c = '-' && !rest.head?.any isBlank) ||
      (!s.inFlow && (c = '?' || c = ':') && !atGap rest)

def content (c : Char) (rest : List Char) (s : Scan) : Option Scan :=
  match c with
  | '[' => s.openFlow .openBracket
  | '{' => s.openFlow .openBrace
  | ']' => s.closeFlow .closeBracket
  | '}' => s.closeFlow .closeBrace
  | ',' => do
    let s ← s.dropKey
    return { s.mark .comma with keyAllowed := true }
  | '*' => do
    let s ← s.noteKey
    let (found, after) ← name s.cursor.skip
    return { s.push (.alias found) s.cursor.line with cursor := after, keyAllowed := false }
  | '&' => do
    let s ← s.noteKey
    let (found, after) ← name s.cursor.skip
    return { s.push (.anchor found) s.cursor.line with cursor := after, keyAllowed := false }
  | '!' => do
    let s ← s.noteKey
    let (token, after) ← tagAt s.cursor
    return { s.push token s.cursor.line with cursor := after, keyAllowed := false }
  | '\x27' => quoted '\x27'
  | '\x22' => quoted '\x22'
  | c =>
    if c = '-' ∧ atGap rest then s.itemMark
    else if c = '?' ∧ (s.inFlow ∨ atGap rest) then s.keyMark
    else if c = ':' ∧ (s.inFlow ∨ atGap rest) then s.valueMark
    else if (c = '|' ∨ c = '>') ∧ ¬s.inFlow then do
      let s ← s.dropKey
      let (after, text) ← block (c = '|') s.indent s.cursor.skip
      return { s.pushScalar text .block after with keyAllowed := true }
    else if s.startsPlain then do
      let s ← s.noteKey
      let (after, text, broken) ← plainFrom s.inFlow (s.indent + 1).toNat (s.cursor.rest.length + 1)
        s.cursor {} []
      return { s.pushScalar text .plain after with keyAllowed := broken }
    else none
where
  quoted (quote : Char) : Option Scan := do
    let s ← s.noteKey
    let (after, text) ← quotedFrom quote (s.cursor.rest.length + 1) s.cursor.skip []
    return { s.pushScalar text .quoted after with keyAllowed := false }

/-- Whether the last token is the dash of an item. -/
def afterItemMark (s : Scan) : Bool :=
  match s.tokens with
  | ⟨_, .entry⟩ :: _ => true
  | _ => false

def step (s : Scan) : Option Scan :=
  let s := s.skipGaps (s.cursor.rest.length + 1)
  let s := s.unrollTo s.cursor.column
  match s.cursor.rest with
  | [] => do
    let s ← s.endContent
    return s.push .streamEnd s.cursor.line
  | c :: rest =>
    if s.cursor.column = 0 ∧ c = '%' then do
      let s ← s.endContent
      let (token, after) ← directiveAt s.cursor.skip
      return { s.push token s.cursor.line with cursor := after }
    else if s.cursor.atDocumentMark then do
      let s ← s.endContent
      return { s.push (if c = '-' then .documentStart else .documentEnd) s.cursor.line with
        cursor := s.cursor.skipMany 3 }
    else do
      let s ← s.content c rest
      return if s.afterItemMark then s else { s with cursor := s.cursor.skipLineComment }

/-- Cuts up to the end or to the first fault; answers the tokens and whether there was no fault. -/
def run : Nat → Scan → List PlacedToken × Bool
  | 0, s => (s.tokens.reverse, false)
  | fuel + 1, s =>
    match s.step with
    | none => (s.tokens.reverse, false)
    | some s =>
      match s.tokens with
      | ⟨_, .streamEnd⟩ :: _ => (s.tokens.reverse, true)
      | _ => run fuel s

end Scan

/-- The tokens of a text up to its first fault, and whether it has none. -/
def tokens (text : List Char) : List PlacedToken × Bool :=
  let text := match text with
    | c :: rest => if c = byteOrderMark then rest else text
    | [] => []
  if text.all isAllowed then Scan.run (text.length + 2) { cursor := { rest := text } } else ([], false)

end ClasspathAudit.Yaml
