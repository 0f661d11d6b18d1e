/-!
Cutting text at a separator, on lists of characters.
-/

namespace ClasspathAudit.Text

/-- What stands before and after the first separator. -/
def splitFirst? (sep : Char) : List Char → Option (List Char × List Char)
  | [] => none
  | c :: rest =>
    if c = sep then some ([], rest)
    else (splitFirst? sep rest).map fun (before, after) => (c :: before, after)

theorem splitFirst?_eq_append {sep : Char} {cs before after : List Char}
    (h : splitFirst? sep cs = some (before, after)) : cs = before ++ sep :: after := by
  induction cs generalizing before with
  | nil => simp [splitFirst?] at h
  | cons c rest ih =>
    simp only [splitFirst?] at h
    split at h
    · next hc => cases h; simp [hc]
    · obtain ⟨⟨b, a⟩, hb, heq⟩ := Option.map_eq_some_iff.1 h
      cases heq
      simp [ih hb]

/-- What stands before and after the last separator. -/
def splitLast? (sep : Char) : List Char → Option (List Char × List Char)
  | [] => none
  | c :: rest =>
    match splitLast? sep rest with
    | some (before, after) => some (c :: before, after)
    | none => if c = sep then some ([], rest) else none

/-- The parts between separators; a text without one is a single part. -/
def splitAll (sep : Char) : List Char → List (List Char)
  | [] => [[]]
  | c :: rest =>
    if c = sep then [] :: splitAll sep rest
    else match splitAll sep rest with
      | [] => [[c]]
      | part :: parts => (c :: part) :: parts

def splitOnChar (sep : Char) (s : String) : List String :=
  (splitAll sep s.toList).map String.ofList

/-- The text around the first occurrence of `pattern`. -/
def splitPattern? (pattern : List Char) : List Char → Option (List Char × List Char)
  | [] => if pattern.isEmpty then some ([], []) else none
  | c :: rest =>
    if pattern.isPrefixOf (c :: rest) then some ([], (c :: rest).drop pattern.length)
    else (splitPattern? pattern rest).map fun (before, after) => (c :: before, after)

def containsPattern (pattern : List Char) (cs : List Char) : Bool :=
  (splitPattern? pattern cs).isSome

def hasStart (start s : String) : Bool := start.toList.isPrefixOf s.toList

def hasEnd (ending s : String) : Bool := ending.toList.isSuffixOf s.toList

/-- The text without `ending`, where it ends so. -/
def dropEnding (ending s : String) : String :=
  if hasEnd ending s then String.ofList (s.toList.take (s.toList.length - ending.toList.length))
  else s

def dropStart (start s : String) : String :=
  if hasStart start s then String.ofList (s.toList.drop start.toList.length) else s

end ClasspathAudit.Text
