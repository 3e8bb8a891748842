import Stencil.Text.Search

/-!
Path texts: segments joined by slashes. A text that starts with a slash is absolute. Empty
segments and `.` stand for the place itself, `..` for the directory above.
-/

namespace Stencil.Files

namespace PathText

/-- The segments between the slashes of a path text. -/
def segments (path : String) : List String :=
  (Text.splitOn '/' path.toList).map String.ofList

/-- Segments joined by slashes. -/
def join (segments : List String) : String :=
  "/".intercalate segments

/-- Whether a path text starts at the top of the tree. -/
def isAbsolute (path : String) : Bool :=
  path.toList.head? == some '/'

/-- A path text without the slashes at its end. -/
def withoutEndSlashes (path : List Char) : List Char :=
  (path.reverse.dropWhile (· == '/')).reverse

/-- A path text without the slashes at its end, unless there is nothing else. -/
def trimmed (path : String) : String :=
  let text := withoutEndSlashes path.toList
  if text.isEmpty then path else String.ofList text

/-- The characters after the last slash. -/
def afterLastSlash (path : List Char) : List Char :=
  (path.reverse.takeWhile (· != '/')).reverse

/-- The last name of a path text; slashes at the end do not count. -/
def baseName (path : List Char) : List Char :=
  afterLastSlash (withoutEndSlashes path)

/-- The final extension of a name, from its last dot on. A dot that starts the name starts no
extension, and `..` has none.
-/
def nameExtension (name : List Char) : List Char :=
  let afterDot := (name.reverse.takeWhile (· != '.')).reverse
  let stem := name.take (name.length - (afterDot.length + 1))
  if afterDot.length = name.length || stem.isEmpty || name = ['.', '.'] then []
  else '.' :: afterDot

/-- The final extension of a path text. -/
def extension (path : List Char) : List Char :=
  nameExtension (baseName path)

/-- The text before the last name of a path: `.` for a single name, `/` at the top. -/
def parent (path : String) : String :=
  let trimmed := withoutEndSlashes path.toList
  let above := trimmed.take (trimmed.length - (afterLastSlash trimmed).length)
  let directory := above.dropLast
  if directory.isEmpty then (if isAbsolute path then "/" else ".")
  else String.ofList directory

/-- Goes down one segment from the segments passed, the innermost first. Above the top, an
absolute path stays there and a relative one keeps its `..`.
-/
def descend (absolute : Bool) (passed : List String) (segment : String) : List String :=
  if segment = "" || segment = "." then passed
  else if segment = ".." then
    match passed with
    | [] => if absolute then [] else [".."]
    | ".." :: _ => ".." :: passed
    | _ :: outer => outer
  else segment :: passed

/-- Segments with `.` and `..` worked out. -/
def normalSegments (absolute : Bool) (segments : List String) : List String :=
  (segments.foldl (descend absolute) []).reverse

/-- The same path without empty, `.` and avoidable `..` segments; a slash at the end stays. -/
def normalize (path : String) : String :=
  let absolute := isAbsolute path
  let body := join (normalSegments absolute (segments path))
  let atEnd := if path.toList.getLast? == some '/' then "/" else ""
  if absolute then (if body = "" then "/" else "/" ++ body ++ atEnd)
  else if body = "" then (if atEnd = "" then "." else "./")
  else body ++ atEnd

/-- A path below another, normalized. -/
def append (base path : String) : String :=
  if base = "" then normalize path
  else if path = "" then normalize base
  else normalize (base ++ "/" ++ path)

/-- The segments from the top of the tree of a path, seen from a directory given the same
way.
-/
def locate (directory : List String) (path : String) : List String :=
  if isAbsolute path then normalSegments true (segments path)
  else normalSegments true (directory ++ segments path)

/-- The places at which segments do not go on to a name, from one place on: an empty segment and
`.` stay there, `..` goes up.
-/
def turns (place : List String) : List String → List (List String)
  | [] => []
  | segment :: segments =>
    if segment = "" || segment = "." then place :: turns place segments
    else if segment = ".." then place :: turns place.dropLast segments
    else turns (place ++ [segment]) segments

/-- The absolute text of segments from the top of the tree. -/
def absolute (location : List String) : String :=
  "/" ++ join location

/-- A path seen from a directory, as absolute text. -/
def resolve (directory : String) (path : String) : String :=
  absolute (locate (locate [] directory) path)

/-- The segments of two lists after their common start. -/
def dropCommon : List String → List String → List String × List String
  | a :: as, b :: bs => if a = b then dropCommon as bs else (a :: as, b :: bs)
  | as, bs => (as, bs)

/-- The relative text that leads from one location to another. -/
def relative (origin target : List String) : String :=
  let (up, down) := dropCommon origin target
  join (up.map (fun _ => "..") ++ down)

end PathText

end Stencil.Files
