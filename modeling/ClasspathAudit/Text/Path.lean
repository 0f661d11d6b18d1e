import ClasspathAudit.Text.Split

/-!
Slash-separated paths: last segment, extension, normal form and joining.
-/

namespace ClasspathAudit.Text.Path

/-- The last segment; trailing slashes do not count, the empty path is a dot and a path of slashes
only is a slash. -/
def base (path : String) : String :=
  if path.isEmpty then "."
  else
    let trimmed := (path.toList.reverse.dropWhile (· = '/')).reverse
    if trimmed.isEmpty then "/"
    else match splitLast? '/' trimmed with
      | some (_, last) => String.ofList last
      | none => String.ofList trimmed

/-- The part of the last segment from its last dot on. -/
def extension (path : String) : String :=
  let segment := match splitLast? '/' path.toList with
    | some (_, last) => last
    | none => path.toList
  match splitLast? '.' segment with
  | some (_, ending) => String.ofList ('.' :: ending)
  | none => ""

/-- Removes dots, empty segments and each parent step together with the segment before it; a rooted
path keeps no parent step at its front. -/
def cleanSegments (rooted : Bool) (segments : List String) : List String :=
  (segments.foldl (fun kept segment =>
    if segment = "" ∨ segment = "." then kept
    else if segment = ".." then
      match kept with
      | [] => if rooted then [] else [".."]
      | last :: before => if last = ".." then ".." :: kept else before
    else segment :: kept) []).reverse

def clean (path : String) : String :=
  let rooted := hasStart "/" path
  let body := String.intercalate "/" (cleanSegments rooted (splitOnChar '/' path))
  if rooted then "/" ++ body else if body.isEmpty then "." else body

/-- The non-empty parts joined by slashes, in normal form. -/
def join (parts : List String) : String :=
  match parts.filter (· ≠ "") with
  | [] => ""
  | kept => clean (String.intercalate "/" kept)

/-- The path without its last segment, in normal form. -/
def directory (path : String) : String :=
  match splitLast? '/' path.toList with
  | some (before, _) => clean (String.ofList (before ++ ['/']))
  | none => "."

end ClasspathAudit.Text.Path
