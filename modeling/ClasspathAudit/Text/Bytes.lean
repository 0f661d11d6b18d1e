import ClasspathAudit.Text.Letter
import ClasspathAudit.Text.Utf8

/-!
Text that is still bytes: cutting it into lines and trimming blanks without reading it as characters
first, so that a character cut in two by a line end stays whole once the lines are joined.
-/

namespace ClasspathAudit.Text

def blankEncodings : List (List UInt8) := blanks.map fun c => encodeUtf8 (String.singleton c)

/-- Drops any of `marks` from the front as long as there is one; the fuel bounds the rounds. -/
def dropMarks (marks : List (List UInt8)) : Nat → List UInt8 → List UInt8
  | 0, bytes => bytes
  | fuel + 1, bytes =>
    match marks.find? (·.isPrefixOf bytes) with
    | some mark => dropMarks marks fuel (bytes.drop mark.length)
    | none => bytes

/-- The bytes without the blanks at their two ends. -/
def trimBytes (bytes : List UInt8) : List UInt8 :=
  let front := dropMarks blankEncodings bytes.length bytes
  (dropMarks (blankEncodings.map List.reverse) front.length front.reverse).reverse

/-- The lines of a text; a line end at the very end starts no further line. -/
def byteLines : List UInt8 → List (List UInt8)
  | [] => []
  | b :: rest =>
    if b = 10 then [] :: byteLines rest
    else match byteLines rest with
      | [] => [[b]]
      | line :: lines => if rest.head? = some 10 then [b] :: lines else (b :: line) :: lines

end ClasspathAudit.Text
