import ClasspathAudit.Text.Split

/-!
The difference of two texts line by line. The longest common block is kept, then what stands before it
and behind it is compared in the same way.
-/

namespace ClasspathAudit

/-- The mark of a line in a difference. -/
structure LineMark where
  text : String
deriving DecidableEq, Repr

namespace LineMark

def kept : LineMark := ⟨" "⟩

def inserted : LineMark := ⟨"+"⟩

def deleted : LineMark := ⟨"-"⟩

def inverse (mark : LineMark) : LineMark :=
  if mark = inserted then deleted else if mark = deleted then inserted else mark

end LineMark

/-- A line of a difference. -/
structure MarkedLine where
  mark : LineMark
  text : String
deriving DecidableEq, Repr

def MarkedLine.inverse (line : MarkedLine) : MarkedLine := { line with mark := line.mark.inverse }

namespace LineDiff

/-- A block of lines that two lists share, by its places in the two. -/
structure Block where
  left : Nat
  right : Nat
  size : Nat
deriving DecidableEq, Repr

/-- In a long list, a line that makes up more than a hundredth of it is no anchor: a block starts from
other lines, and may then extend over it. -/
def popular (lines : List String) : List String :=
  if lines.length < 200 then []
  else (lines.eraseDups).filter fun line => decide (lines.length / 100 + 1 < lines.count line)

/-- The lengths of the common runs that end at `line` and at each of the lines on the right, where
`runs` has the lengths of those that end one place earlier on both sides. -/
def extendRuns (ignored : List String) (line : String) : List String → List Nat → List Nat
  | [], _ => []
  | other :: rest, runs =>
    (if line = other ∧ ¬ignored.contains line then runs.headD 0 + 1 else 0) ::
      extendRuns ignored line rest runs.tail

/-- The longer of a block and the runs that end at the place `left` and at the places from `right` on;
of equals the earlier. -/
def better (left : Nat) : Nat → List Nat → Block → Block
  | _, [], best => best
  | right, run :: rest, best =>
    better left (right + 1) rest
      (if best.size < run then ⟨left + 1 - run, right + 1 - run, run⟩ else best)

/-- The longest block of lines that are all anchors, the first of equals. -/
def longestFrom (ignored right : List String) : Nat → List String → List Nat → Block → Block
  | _, [], _, best => best
  | place, line :: rest, runs, best =>
    let found := extendRuns ignored line right (0 :: runs)
    longestFrom ignored right (place + 1) rest found (better place 0 found best)

/-- How many lines two lists share at the front. -/
def commonLength : List String → List String → Nat
  | a :: as, b :: bs => if a = b then commonLength as bs + 1 else 0
  | _, _ => 0

/-- A block extended on both sides as far as the lines agree. -/
def extend (left right : List String) (block : Block) : Block :=
  let before := commonLength (left.take block.left).reverse (right.take block.right).reverse
  let after := commonLength (left.drop (block.left + block.size)) (right.drop (block.right + block.size))
  ⟨block.left - before, block.right - before, before + block.size + after⟩

def longest (ignored left right : List String) : Block :=
  extend left right (longestFrom ignored right 0 left [] ⟨0, 0, 0⟩)

def marked (mark : LineMark) (lines : List String) : List MarkedLine := lines.map (⟨mark, ·⟩)

/-- The difference of two lists of lines; lines of the right list that are `ignored` are no anchors. -/
def compareWith (ignored left right : List String) : List MarkedLine :=
  let block := longest ignored left right
  if _kept : 0 < block.size ∧ block.left + block.size ≤ left.length then
    compareWith ignored (left.take block.left) (right.take block.right) ++
      marked .kept ((left.drop block.left).take block.size) ++
      compareWith ignored (left.drop (block.left + block.size)) (right.drop (block.right + block.size))
  else marked .deleted left ++ marked .inserted right
termination_by left.length
decreasing_by
  all_goals simp only [block] at _kept
  all_goals simp only [List.length_take, List.length_drop]
  all_goals omega

/-- The lines of two texts, each kept, deleted or inserted. -/
def compare (before after : String) : List MarkedLine :=
  let right := Text.splitOnChar '\n' after
  compareWith (popular right) (Text.splitOnChar '\n' before) right

end LineDiff

end ClasspathAudit
