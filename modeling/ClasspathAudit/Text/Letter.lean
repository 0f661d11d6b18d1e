/-!
Blank characters and letter case, as far as names, numbers and keywords need them.
-/

namespace ClasspathAudit.Text

/-- White space of Unicode: the ASCII blanks, the next-line mark and the space separators. -/
def blanks : List Char :=
  ([9, 10, 11, 12, 13, 0x20, 0x85, 0xA0, 0x1680, 0x2000, 0x2001, 0x2002, 0x2003, 0x2004, 0x2005, 0x2006,
    0x2007, 0x2008, 0x2009, 0x200A, 0x2028, 0x2029, 0x202F, 0x205F, 0x3000] : List Nat).map Char.ofNat

def isBlank (c : Char) : Bool := blanks.contains c

def trimBlankList (cs : List Char) : List Char :=
  ((cs.dropWhile isBlank).reverse.dropWhile isBlank).reverse

/-- The text without the blanks at its two ends. -/
def trimBlank (s : String) : String :=
  String.ofList (trimBlankList s.toList)

/-- Lower case for comparison with ASCII words: beside the ASCII letters, the dotted capital I and
the Kelvin sign have an ASCII letter as their lower case. -/
def lowerChar (c : Char) : Char :=
  if c.toNat = 0x130 then 'i' else if c.toNat = 0x212A then 'k' else c.toLower

def lower (s : String) : String := s.map lowerChar

/-- Upper case for comparison with ASCII words: beside the ASCII letters, the long s and the dotless i
have an ASCII letter as their upper case. -/
def upperChar (c : Char) : Char :=
  if c.toNat = 0x17F then 'S' else if c.toNat = 0x131 then 'I' else c.toUpper

def upper (s : String) : String := s.map upperChar

/-- The representative of a character under simple case folding, exact for characters that fold
with an ASCII letter: the long s folds with s and the Kelvin sign with k. -/
def foldChar (c : Char) : Char :=
  if c.toNat = 0x17F then 's' else if c.toNat = 0x212A then 'k' else c.toLower

/-- Equality up to case, for a right side in ASCII. -/
def equalFold (s word : String) : Bool :=
  s.toList.map foldChar == word.toList.map foldChar

def isDigit (c : Char) : Bool := decide ('0' ≤ c) && decide (c ≤ '9')

end ClasspathAudit.Text
