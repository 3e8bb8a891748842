import Stencil.Files.Disk
import Stencil.Files.Glob.Base
import Stencil.Files.Glob.Braces
import Stencil.Files.Glob.Expression
import Stencil.Files.Glob.Segments
import Stencil.Files.Glob.Shape

/-!
Globs: the files that patterns match. A text that spells one path is looked up; any other is
matched against the files below the directory that its first segments spell. Texts that start
with an exclamation mark, and those to be ignored, take files away, whatever their place.
-/

namespace Stencil.Files

/-- What to look for. Paths in the result are absolute, or start like their pattern. -/
structure GlobQuery where
  patterns : List String
  directory : String
  ignored : List String
  isAbsolute : Bool
  deriving DecidableEq, Repr, Inhabited

namespace Glob

/-- The patterns whose contents are ignored unless a search says otherwise. -/
def defaultIgnored : List String := ["**/node_modules/**", "**/dist/**"]

/-! Plans -/

/-- Patterns that are matched against the files below one directory. -/
structure Group where
  base : List Char
  texts : List (List Char)
  deriving DecidableEq, Repr

/-- Adds a pattern text to the group of its base. -/
def addToGroup (text : List Char) : List Group → List Group
  | [] => [⟨baseOf text, [text]⟩]
  | group :: groups =>
    if group.base = baseOf text then { group with texts := group.texts ++ [text] } :: groups
    else group :: addToGroup text groups

/-- The groups of pattern texts by their bases. -/
def groupsOf (texts : List (List Char)) : List Group :=
  texts.foldl (fun groups text => addToGroup text groups) []

/-- The groups to be searched. If one pattern is matched below the directory itself, so are
all that do not lead out of it.
-/
def searchGroups (texts : List (List Char)) : List Group :=
  let (outside, inside) := texts.partition leadsOut
  let groups := groupsOf inside
  groupsOf outside ++
    if groups.any (·.base = ['.']) then [⟨['.'], inside⟩] else groups

/-- What is to be searched: the groups of texts that spell one path, the groups of patterns, and
the patterns that take files away.
-/
structure Plan where
  lookups : List Group
  searches : List Group
  negatives : List (List Char)
  deriving Repr

/-- The texts that pattern texts stand for. -/
def expandAll (patterns : List String) : Except GlobFault (List (List Char)) := do
  let texts ← patterns.mapM fun pattern => Braces.expand pattern.toList
  return texts.flatten.map singleSlashes

/-- Why a pattern cannot be matched, if it cannot. -/
def faultOf? (text : List Char) : Option GlobFault :=
  if text.isEmpty then some .emptyExclusion
  else if reservedNames.contains (String.ofList text) then some .reservedPattern
  else none

/-- What is to be searched for a query. -/
def planOf (query : GlobQuery) : Except GlobFault Plan := do
  let texts ← expandAll query.patterns
  let ignored ← expandAll query.ignored
  let negatives := (texts.filter isNegative ++ ignored).map positive
  let positives := texts.filter (!isNegative ·)
  let isReserved (text : List Char) : Bool := reservedNames.contains (String.ofList text)
  if positives.any fun text => isReserved (baseOf text) then throw .reservedDirectory
  else if positives.isEmpty then return ⟨[], [], []⟩
  else
    match (negatives ++ positives).findSome? faultOf? with
    | some fault => throw fault
    | none =>
      let (patterns, spelled) := positives.partition isOpenEnded
      return ⟨searchGroups spelled, searchGroups patterns, negatives⟩

/-! Filters -/

/-- How one name of a path is matched. -/
inductive NameFilter where
  | name (text : List Char)
  | pattern (regex : Regex)
  deriving Repr

/-- Whether a name is matched. -/
def NameFilter.accepts (filter : NameFilter) (name : List Char) : Bool :=
  match filter with
  | .name text => text == name
  | .pattern regex => regex.isFoundIn name

/-- How the directories on the way to files are matched by a pattern: the names before any that
stands for any names, and the number of names if all are before.
-/
structure WayFilter where
  names : List NameFilter
  isWhole : Bool
  deriving Repr

namespace WayFilter

/-- The filter of a pattern. -/
def ofPattern (text : List Char) : WayFilter :=
  let segments := segmentsOf text
  let isNames (segment : List Char) : Bool :=
    (Text.cutAt? ['*', '*'] segment).isSome
  let before := segments.takeWhile (!isNames ·)
  { isWhole := before.length = segments.length
    names := before.map fun segment =>
      if isOpenEnded segment then .pattern (regexOf false segment) else .name segment }

/-- Whether files that a pattern matches may stand below a directory. -/
def mayLead (filter : WayFilter) (names : List (List Char)) : Bool :=
  if filter.names.length < names.length then !filter.isWhole
  else if filter.isWhole && filter.names.length = names.length then false
  else (filter.names.zip names).all fun (filter, name) => filter.accepts name

end WayFilter

/-- How the paths of a group are matched. -/
structure Filter where
  positives : List Regex
  /-- The patterns that take paths away. -/
  relative : List Regex
  /-- The patterns that take absolute paths away. -/
  absolute : List Regex
  /-- The patterns that take away all below a directory. -/
  covers : List Regex
  ways : List WayFilter
  deriving Repr

namespace Filter

/-- The filter of the patterns of a group. -/
def ofGroup (group : Group) (negatives : List (List Char)) : Filter :=
  let (absolute, relative) := negatives.partition (·.head? == some '/')
  { positives := group.texts.map (regexOf false)
    relative := relative.map (regexOf true)
    absolute := absolute.map (regexOf true)
    covers := (negatives.filter coversFolders).map (regexOf false)
    ways := group.texts.map WayFilter.ofPattern }

/-- Whether a path, given also as absolute text, is asked for. -/
def accepts (filter : Filter) (path absolute : List Char) : Bool :=
  let path := Expression.withoutDot path
  filter.positives.any (·.isFoundIn path) && !filter.relative.any (·.isFoundIn path)
    && !filter.absolute.any (·.isFoundIn absolute)

/-- Whether the content of a directory is looked at. -/
def enters (filter : Filter) (path : List Char) : Bool :=
  let path := Expression.withoutDot path
  filter.ways.any (·.mayLead (Text.splitOn '/' path)) && !filter.covers.any (·.isFoundIn path)

end Filter

/-! Searches -/

/-- The path texts of the directories between a base and a file below it. -/
def foldersBetween (base : List Char) : List (List Char) → List (List Char)
  | [] => []
  | [_] => []
  | name :: names =>
    let folder := base ++ name
    folder :: foldersBetween (folder ++ ['/']) names

/-- The path text that a base starts with, before the names below it. -/
def basePrefix (base : List Char) : List Char :=
  if base = ['.'] then [] else if base.getLast? == some '/' then base else base ++ ['/']

/-- The files of a list that a group asks for, as path texts. -/
def matching (group : Group) (filter : Filter) (absoluteOf : List Char → List Char)
    (files : List (List String)) : List (List Char) :=
  let start := basePrefix group.base
  files.filterMap fun names =>
    let names := names.map String.toList
    let path := start ++ Text.joinWith ['/'] names
    if (foldersBetween start names).all filter.enters && filter.accepts path (absoluteOf path)
      then some path
    else none

/-- Paths without those that an earlier one repeats, a dot and a slash at the start apart. -/
def distinct (paths : List (List Char)) : List (List Char) :=
  (paths.foldl (fun found path =>
    if found.any fun other => Expression.withoutDot other == Expression.withoutDot path then found
    else path :: found) []).reverse

variable {m : Type → Type} [Monad m] [Disk m]

/-- The path of a text that spells one path, if a file stands there. -/
def lookUp (directory : String) (text : List Char) : ExceptT Fault m (List (List Char)) := do
  let path := PathText.resolve directory (String.ofList text)
  match ← attempt (Disk.isDirectory path : ExceptT Fault m Bool) with
  | .ok isDirectory => return if isDirectory then [] else [text]
  | .error fault =>
    if fault.errno = .noEntry then return [] else throw ⟨fault.errno, actionOn "lstat" path⟩

/-- The files below a directory; none if there is no such directory. -/
def filesBelow (path : String) : ExceptT Fault m (List (List String)) := do
  match ← attempt (Disk.files path : ExceptT Fault m (List (List String))) with
  | .ok files => return files
  | .error fault => if fault.errno = .noEntry then return [] else throw fault

/-- The files that a plan finds from a directory, each once. -/
def search (plan : Plan) (directory : String) : ExceptT Fault m (List (List Char)) := do
  let absoluteOf (path : List Char) :=
    (PathText.resolve directory (String.ofList path)).toList
  let spelled ← plan.lookups.mapM fun group => do
    let filter := Filter.ofGroup group plan.negatives
    let paths ← group.texts.mapM (lookUp directory)
    return paths.flatten.filter fun path => filter.accepts path (absoluteOf path)
  let found ← plan.searches.mapM fun group => do
    let files ← filesBelow (PathText.resolve directory (String.ofList group.base))
    return matching group (Filter.ofGroup group plan.negatives) absoluteOf files
  return distinct (spelled ++ found).flatten

/-- The absolute text of a path, with slashes for backslashes. -/
def absoluteText (directory path : String) : String :=
  (PathText.resolve directory path).map fun c => if c == '\\' then '/' else c

/-- The files that a query asks for, if all its patterns can be matched. -/
def run (query : GlobQuery) : ExceptT GlobFault m (List String) := do
  if query.patterns.any (· == "") then throw .emptyPattern
  else
    let directory := PathText.resolve (← (Disk.workingDirectory : m String)) query.directory
    match planOf query with
    | .error fault => throw fault
    | .ok plan =>
      let paths ← (search plan directory : ExceptT Fault m (List (List Char))).adapt .file
      let paths := paths.map String.ofList
      return if query.isAbsolute then paths.map (absoluteText directory) else paths

end Glob

end Stencil.Files
