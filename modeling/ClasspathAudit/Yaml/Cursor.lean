/-!
A place in a text, with its line and column, and the classes of characters that a reader of YAML tells
apart.
-/

namespace ClasspathAudit.Yaml

def nextLine : Char := Char.ofNat 0x85

def lineSeparator : Char := Char.ofNat 0x2028

def paragraphSeparator : Char := Char.ofNat 0x2029

/-- The mark that may stand before a text to tell its encoding. -/
def byteOrderMark : Char := Char.ofNat 0xFEFF

def isBlank (c : Char) : Bool := c = ' ' || c = '\t'

def isBreak (c : Char) : Bool :=
  c = '\n' || c = '\r' || c = nextLine || c = lineSeparator || c = paragraphSeparator

def isGap (c : Char) : Bool := isBlank c || isBreak c

def atGap : List Char → Bool
  | [] => true
  | c :: _ => isGap c

def atLineEnd : List Char → Bool
  | [] => true
  | c :: _ => isBreak c

/-- Characters of names of anchors and tag handles. -/
def isWord (c : Char) : Bool := c.isAlphanum || c = '_' || c = '-'

/-- Characters that a text may contain at all. -/
def isAllowed (c : Char) : Bool :=
  let n := c.toNat
  n = 9 || n = 10 || n = 13 || (0x20 ≤ n && n ≤ 0x7E) || n = 0x85 || (0xA0 ≤ n && n ≤ 0xFFFD) ||
    0x10000 ≤ n

/-- Characters that are written as they are; beyond the first plane none is. -/
def isPrintable (c : Char) : Bool :=
  let n := c.toNat
  n = 10 || (0x20 ≤ n && n ≤ 0x7E) || (0xA0 ≤ n && n ≤ 0xFFFD && c ≠ byteOrderMark)

/-- Characters with a meaning of their own at the start of a plain scalar. -/
def isIndicator (c : Char) : Bool :=
  "-?:,[]\x7b\x7d#&*!|>'\"%@`".toList.contains c

/-- Whether a document begins or ends here: three of `mark` and a gap. -/
def atDocumentMark (mark : Char) : List Char → Bool
  | a :: b :: c :: rest => a = mark && b = mark && c = mark && atGap rest
  | _ => false

structure Cursor where
  rest : List Char
  index : Nat := 0
  line : Nat := 0
  column : Nat := 0
  /-- The line breaks since the last character that is not blank. -/
  breaks : Nat := 0

namespace Cursor

/-- Past one character that is no line break. -/
def skip (c : Cursor) : Cursor :=
  match c.rest with
  | [] => c
  | ch :: rest =>
    { rest, index := c.index + 1, line := c.line, column := c.column + 1
      breaks := if isBlank ch then c.breaks else 0 }

def skipMany : Nat → Cursor → Cursor
  | 0, c => c
  | n + 1, c => skipMany n c.skip

/-- Past a line break, with the characters that it counts as: a separator stays what it is, any other
break is a newline. -/
def readBreak (c : Cursor) : List Char × Cursor :=
  match c.rest with
  | [] => ([], c)
  | ch :: rest =>
    let next (rest : List Char) (width : Nat) : Cursor :=
      { rest, index := c.index + width, line := c.line + 1, column := 0, breaks := c.breaks + 1 }
    match ch, rest with
    | '\r', '\n' :: rest => (['\n'], next rest 2)
    | ch, rest =>
      if ch = lineSeparator ∨ ch = paragraphSeparator then ([ch], next rest 1)
      else if isBreak ch then (['\n'], next rest 1)
      else ([], c)

def skipBreak (c : Cursor) : Cursor := c.readBreak.2

def skipWhile (p : Char → Bool) (c : Cursor) : Cursor :=
  c.skipMany (c.rest.takeWhile p).length

def next? (c : Cursor) : Option Char := c.rest.head?

/-- Whether a document begins or ends at the start of this line. -/
def atDocumentMark (c : Cursor) : Bool :=
  c.column = 0 && (Yaml.atDocumentMark '-' c.rest || Yaml.atDocumentMark '.' c.rest)

/-- To the end of the line. -/
def skipLine (c : Cursor) : Cursor := c.skipWhile fun ch => !isBreak ch

/-- Past a comment, and past further ones that only gaps keep apart from it. -/
def skipComments : Nat → Cursor → Cursor
  | 0, c => c
  | fuel + 1, c =>
    let c := c.skipLine
    match c.rest.dropWhile isGap with
    | '#' :: _ => skipComments fuel (skipGap (c.rest.length + 1) c)
    | _ => c
where
  skipGap : Nat → Cursor → Cursor
  | 0, c => c
  | fuel + 1, c =>
    match c.rest with
    | ch :: _ =>
      if isBlank ch then skipGap fuel c.skip
      else if isBreak ch then skipGap fuel c.skipBreak
      else c
    | [] => c

/-- Past a comment on the line of a token that ends here. -/
def skipLineComment (c : Cursor) : Cursor :=
  if c.breaks ≠ 0 then c
  else
    match c.rest.dropWhile isBlank with
    | '#' :: _ => c.skipLine
    | _ => c

end Cursor

end ClasspathAudit.Yaml
