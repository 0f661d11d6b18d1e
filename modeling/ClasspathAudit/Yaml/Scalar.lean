import ClasspathAudit.Json.Reader
import ClasspathAudit.Yaml.Cursor

/-!
Reading the scalars of YAML: plain, quoted, and blocks of lines. `none` stands for a malformed one.
-/

namespace ClasspathAudit.Yaml

/-- What stands between two parts of a flow scalar. Characters are kept in reverse. -/
structure Gap where
  blanks : List Char := []
  /-- The first line break, once there is one. -/
  first : List Char := []
  further : List Char := []
  broken : Bool := false

namespace Gap

/-- What a gap reads as: a single newline folds into a blank. -/
def chars (g : Gap) : List Char :=
  if g.broken then
    match g.first, g.further with
    | ['\n'], [] => [' ']
    | ['\n'], further => further
    | first, further => further ++ first
  else g.blanks

/-- Reads a gap. Tabs in front of the column `limit` of a further line are refused. -/
def read (limit : Nat) : Nat → Cursor → Gap → Option (Cursor × Gap)
  | 0, _, _ => none
  | fuel + 1, c, g =>
    match c.rest with
    | [] => some (c, g)
    | ch :: _ =>
      if isBlank ch then
        if g.broken ∧ c.column < limit ∧ ch = '\t' then none
        else read limit fuel c.skip (if g.broken then g else { g with blanks := ch :: g.blanks })
      else if isBreak ch then
        let (found, c) := c.readBreak
        if g.broken then read limit fuel c { g with further := found ++ g.further }
        else read limit fuel c { g with blanks := [], first := found, broken := true }
      else some (c, g)

end Gap

def endsPlain (inFlow : Bool) : List Char → Bool
  | [] => true
  | c :: rest =>
    isGap c || (c = ':' && atGap rest) || (inFlow && ",?[]\x7b\x7d".toList.contains c)

/-- Reads a plain scalar from behind `done`, its characters so far in reverse. `indent` is the least
column of its further lines outside of flow collections. Answers whether a line break follows it. -/
def plainFrom (inFlow : Bool) (indent : Nat) :
    Nat → Cursor → Gap → List Char → Option (Cursor × List Char × Bool)
  | 0, _, _, _ => none
  | fuel + 1, c, gap, done =>
    if c.atDocumentMark || c.next? == some '#' then some (c, done, gap.broken)
    else
      match run fuel c gap done with
      | (c, gap, done) =>
        match c.rest with
        | [] => some (c, done, gap.broken)
        | ch :: _ =>
          if isGap ch then do
            let (c, gap) ← gap.read indent (c.rest.length + 1) c
            if !inFlow && c.column < indent then return (c, done, gap.broken)
            else plainFrom inFlow indent fuel c gap done
          else some (c, done, gap.broken)
where
  /-- The characters up to the next gap. -/
  run : Nat → Cursor → Gap → List Char → Cursor × Gap × List Char
  | 0, c, gap, done => (c, gap, done)
  | fuel + 1, c, gap, done =>
    match c.rest with
    | [] => (c, gap, done)
    | ch :: _ =>
      if endsPlain inFlow c.rest then (c, gap, done)
      else run fuel c.skip {} (ch :: (gap.chars ++ done))

def escaped? : Char → Option Char
  | '0' => some '\x00'
  | 'a' => some '\x07'
  | 'b' => some '\x08'
  | 't' => some '\t'
  | '\t' => some '\t'
  | 'n' => some '\n'
  | 'v' => some '\x0b'
  | 'f' => some '\x0c'
  | 'r' => some '\r'
  | 'e' => some '\x1b'
  | ' ' => some ' '
  | '\x22' => some '\x22'
  | '\x27' => some '\x27'
  | '\\' => some '\\'
  | 'N' => some nextLine
  | '_' => some (Char.ofNat 0xA0)
  | 'L' => some lineSeparator
  | 'P' => some paragraphSeparator
  | _ => none

/-- How many hexadecimal digits follow an escape letter. -/
def escapeDigits? : Char → Option Nat
  | 'x' => some 2
  | 'u' => some 4
  | 'U' => some 8
  | _ => none

def codePoint? (count : Nat) (cs : List Char) : Option Char := do
  let digits ← (cs.take count).mapM Text.hexValue?
  if digits.length ≠ count then none
  else
    let n := digits.foldl (fun n d => n * 16 + d) 0
    if n.isValidChar then some (Char.ofNat n) else none

def quotedFrom (mark : Char) : Nat → Cursor → List Char → Option (Cursor × List Char)
  | 0, _, _ => none
  | fuel + 1, c, done =>
    if c.atDocumentMark then none
    else do
      let (c, done, broken) ← run fuel c done
      match c.rest with
      | [] => none
      | ch :: _ =>
        if ch = mark then return (c.skip, done)
        else
          let (c, gap) ← Gap.read 0 (c.rest.length + 1) c { broken }
          quotedFrom mark fuel c (gap.chars ++ done)
where
  /-- The characters up to the closing quote, a gap or an escaped line break; the last is told. -/
  run : Nat → Cursor → List Char → Option (Cursor × List Char × Bool)
  | 0, _, _ => none
  | fuel + 1, c, done =>
    match c.rest with
    | [] => some (c, done, false)
    | ch :: rest =>
      if isGap ch then some (c, done, false)
      else if ch = mark then
        if mark = '\x27' ∧ rest.head? = some '\x27' then run fuel c.skip.skip ('\x27' :: done)
        else some (c, done, false)
      else if ch = '\\' ∧ mark = '\x22' then
        match rest with
        | [] => none
        | letter :: digits =>
          if isBreak letter then some (c.skip.skipBreak, done, true)
          else
            match escaped? letter with
            | some value => run fuel c.skip.skip (value :: done)
            | none => do
              let count ← escapeDigits? letter
              let value ← codePoint? count digits
              run fuel (c.skip.skip.skipMany count) (value :: done)
      else run fuel c.skip (ch :: done)

/-- How the line breaks at the end of a block are treated. -/
inductive Chomping where
  | clip
  | strip
  | keep
deriving DecidableEq, Repr

def chomping? : Option Char → Option Chomping
  | some '+' => some .keep
  | some '-' => some .strip
  | _ => none

def increment? : Option Char → Option Nat
  | some c => if '0' ≤ c ∧ c ≤ '9' then some (c.toNat - 48) else none
  | none => none

/-- The indicators behind the mark of a block, in either order. -/
def blockHeader (c : Cursor) : Option (Chomping × Nat × Cursor) := do
  let (chomping, increment, c) := match chomping? c.next? with
    | some chomping =>
      match increment? c.skip.next? with
      | some n => (chomping, some n, c.skip.skip)
      | none => (chomping, none, c.skip)
    | none =>
      match increment? c.next? with
      | some n =>
        match chomping? c.skip.next? with
        | some chomping => (chomping, some n, c.skip.skip)
        | none => (.clip, some n, c.skip)
      | none => (.clip, none, c)
  if increment = some 0 then none
  else
    let c := c.skipWhile isBlank
    let c := if c.next? = some '#' then c.skipLine else c
    if atLineEnd c.rest then return (chomping, increment.getD 0, c.skipBreak) else none

/-- Reads the indentation of further lines and the empty ones among them. An indentation of zero is not
known yet; `widest` is the largest seen. Answers also the breaks, in reverse. -/
def blockBreaks (indent : Nat) :
    Nat → Cursor → (widest : Nat) → List Char → Option (Cursor × Nat × List Char)
  | 0, _, _, _ => none
  | fuel + 1, c, widest, found =>
    let room := if indent = 0 then c.rest.length else indent - c.column
    let c := c.skipMany ((c.rest.take room).takeWhile (· = ' ')).length
    let widest := max widest c.column
    if (indent = 0 ∨ c.column < indent) ∧ c.next? = some '\t' then none
    else if c.rest.head?.any isBreak then
      let (chars, c) := c.readBreak
      blockBreaks indent fuel c widest (chars ++ found)
    else some (c, widest, found)

/-- A block that is being read: its characters, the break behind its last line and the further breaks,
all in reverse. -/
structure BlockText where
  done : List Char := []
  first : List Char := []
  further : List Char := []
  /-- The last line began with a blank. -/
  blank : Bool := false

def blockLines (literal : Bool) (indent : Nat) : Nat → Cursor → BlockText → Option (Cursor × BlockText)
  | 0, _, _ => none
  | fuel + 1, c, t =>
    if c.column ≠ indent ∨ c.rest.isEmpty then some (c, t)
    else
      let blank := c.rest.head?.any isBlank
      let joint :=
        if !literal && !t.blank && !blank && t.first == ['\n'] then
          if t.further.isEmpty then [' '] else []
        else t.first
      let line := c.rest.takeWhile fun ch => !isBreak ch
      let done := line.reverse ++ (t.further ++ (joint ++ t.done))
      let (first, c) := (c.skipMany line.length).readBreak
      match blockBreaks indent (c.rest.length + 1) c 0 [] with
      | some (c, _, further) => blockLines literal indent fuel c { done, first, further, blank }
      | none => none

/-- Reads a block after its mark. `parent` is the indentation that the block stands in. -/
def block (literal : Bool) (parent : Int) (c : Cursor) : Option (Cursor × List Char) := do
  let (chomping, increment, c) ← blockHeader c
  let wanted := if increment = 0 then 0 else (max parent 0).toNat + increment
  let (c, widest, further) ← blockBreaks wanted (c.rest.length + 1) c 0 []
  let indent := if wanted = 0 then max widest (max (parent + 1) 1).toNat else wanted
  let (c, t) ← blockLines literal indent (c.rest.length + 1) c { further }
  let tail := match chomping with
    | .strip => []
    | .clip => t.first
    | .keep => t.further ++ t.first
  return (c, tail ++ t.done)

end ClasspathAudit.Yaml
