import ClasspathAudit.Text.Decimal
import ClasspathAudit.Text.Split

/-!
Semantic versions: three numbers and an optional list of pre-release identifiers. A version of any
style is brought into this form by its leading numbers.
-/

namespace ClasspathAudit

open Text

structure SemanticVersion where
  major : Nat
  minor : Nat
  patch : Nat
  /-- Empty for a release. -/
  preRelease : List String
deriving DecidableEq, Repr

namespace SemanticVersion

def text (v : SemanticVersion) : String :=
  s!"v{v.major}.{v.minor}.{v.patch}" ++
    (if v.preRelease.isEmpty then "" else "-" ++ String.intercalate "." v.preRelease)

/-- Whether an identifier consists of digits only. -/
def isNumeric (identifier : String) : Bool := identifier.toList.all isDigit

/-- A number is written without superfluous zeros. -/
def hasLeadingZero (digits : List Char) : Bool :=
  digits.head? == some '0' && decide (1 < digits.length)

/-- Identifiers are not empty, and those that are numbers have no leading zero. -/
def isIdentifier (identifier : String) : Bool :=
  !identifier.isEmpty && !(isNumeric identifier && hasLeadingZero identifier.toList)

/-- Characters that an identifier may hold, and the dot between two. -/
def isAllowed (c : Char) : Bool :=
  isDigit c || ('A' ≤ c && c ≤ 'Z') || ('a' ≤ c && c ≤ 'z') || c = '.' || c = '-'

/-- Puts one hyphen in the place of every run of other characters. -/
def hyphenate : List Char → List Char
  | [] => []
  | c :: rest =>
    if isAllowed c then c :: hyphenate rest
    else if rest.head?.any (fun d => !isAllowed d) then hyphenate rest
    else '-' :: hyphenate rest

def trimMarks (cs : List Char) : List Char :=
  let isMark (c : Char) : Bool := c = '.' || c = '-'
  ((cs.dropWhile isMark).reverse.dropWhile isMark).reverse

def group? : List Char → Option (List Char × List Char)
  | '.' :: rest =>
    match rest.takeWhile isDigit with
    | [] => none
    | digits => some (digits, rest.dropWhile isDigit)
  | _ => none

/-- Drops all groups of a dot and digits; the fuel bounds their number. -/
def dropGroups : Nat → List Char → List Char
  | 0, cs => cs
  | fuel + 1, cs =>
    match group? cs with
    | some (_, rest) => dropGroups fuel rest
    | none => cs

/-- Up to three groups of digits, a missing one being zero, and what follows the numbers. -/
def numbers? (cs : List Char) : Option (List (List Char) × List Char) :=
  match cs.takeWhile isDigit with
  | [] => none
  | first =>
    let rest := cs.dropWhile isDigit
    match group? rest with
    | none => some ([first, ['0'], ['0']], rest)
    | some (second, rest) =>
      match group? rest with
      | none => some ([first, second, ['0']], rest)
      | some (third, rest) => some ([first, second, third], dropGroups rest.length rest)

/-- The semantic version of a text that begins with numbers, possibly after a letter v. What follows the
numbers becomes the pre-release; a text of several lines has none. -/
def ofText? (text : String) : Option SemanticVersion := do
  let trimmed := trimBlankList text.toList
  let body := match trimmed with
    | 'v' :: rest => rest
    | cs => cs
  let (groups, rest) ← numbers? body
  let marks := String.ofList (trimMarks (hyphenate rest))
  let preRelease := if marks.isEmpty then [] else splitOnChar '.' marks
  if rest.contains '\n' || groups.any hasLeadingZero || !preRelease.all isIdentifier then none
  else match groups.map digitsValue with
    | [major, minor, patch] => some { major, minor, patch, preRelease }
    | _ => none

/-- Numbers rank below words; numbers compare by value and words by their characters. -/
def compareIdentifiers (a b : String) : Ordering :=
  if a = b then .eq
  else match isNumeric a, isNumeric b with
    | true, false => .lt
    | false, true => .gt
    | true, true => compare (digitsValue a.toList) (digitsValue b.toList)
    | false, false => compare a b

/-- The first difference decides; of two lists of which one begins the other the shorter ranks below. -/
def compareLists : List String → List String → Ordering
  | [], [] => .eq
  | [], _ :: _ => .lt
  | _ :: _, [] => .gt
  | a :: as, b :: bs => (compareIdentifiers a b).then (compareLists as bs)

def comparePreReleases (a b : List String) : Ordering :=
  match a, b with
  | [], [] => .eq
  | [], _ => .gt
  | _, [] => .lt
  | _, _ => compareLists a b

def compareVersions (v w : SemanticVersion) : Ordering :=
  (compare v.major w.major).then <| (compare v.minor w.minor).then <|
    (compare v.patch w.patch).then <| comparePreReleases v.preRelease w.preRelease

end SemanticVersion

namespace Version

/-- Whether the version `a` ranks above `b`; texts without a semantic version rank lowest. -/
def isAbove (a b : Option SemanticVersion) : Bool :=
  match a, b with
  | some v, some w => v.compareVersions w == .gt
  | some _, none => true
  | none, _ => false

/-- The canonical text of a version, empty if it has none. -/
def normalized (version : String) : String :=
  ((SemanticVersion.ofText? version).map (·.text)).getD ""

/-- The first of the highest versions. -/
def highest (versions : List String) : String :=
  versions.foldl (fun best version =>
    if best.isEmpty || isAbove (SemanticVersion.ofText? version) (SemanticVersion.ofText? best) then
      version
    else best) ""

end Version

end ClasspathAudit
