import Stencil.Files.Encoding
import Stencil.Files.Fault

/-!
File trees: what stands at each location. The top of the tree is a directory, and all that
stands in a directory has a location below it.
-/

namespace Stencil.Files

/-- The names that lead from the top of a tree to a place in it. -/
abbrev Location := List String

/-- What stands at a location. -/
inductive Entry where
  | file (content : Bytes)
  | directory
  deriving DecidableEq, Repr, Inhabited

/-- Whether an entry is a directory. -/
def Entry.isDirectory : Entry → Bool
  | file _ => false
  | directory => true

/-- A file tree, with one entry at most for each location. The top needs none. -/
structure FileTree where
  entries : List (Location × Entry)
  deriving Repr, Inhabited

namespace FileTree

/-- The tree with nothing below its top. -/
def empty : FileTree := ⟨[]⟩

/-- What stands at a location. -/
def entry? (tree : FileTree) (location : Location) : Option Entry :=
  if location = [] then some .directory else tree.entries.lookup location

/-- The proper beginnings of a location, the top first. -/
def above : Location → List Location
  | [] => []
  | name :: names => [] :: (above names).map (name :: ·)

/-- Whether a location is below a file. -/
def isBlocked (tree : FileTree) (location : Location) : Bool :=
  (above location).any fun place =>
    match tree.entry? place with
    | some (.file _) => true
    | _ => false

/-- What stands at a location, or why nothing can be found there. -/
def find (tree : FileTree) (location : Location) : Except Errno Entry :=
  match tree.entry? location with
  | some entry => .ok entry
  | none => .error (if tree.isBlocked location then .notDirectory else .noEntry)

/-- Puts an entry at a location, in the place of what stands there. -/
def put (tree : FileTree) (location : Location) (entry : Entry) : FileTree :=
  ⟨(location, entry) :: tree.entries.filter fun other => other.1 != location⟩

/-- Takes away what stands at and below a location. -/
def remove (tree : FileTree) (location : Location) : FileTree :=
  ⟨tree.entries.filter fun other => !location.isPrefixOf other.1⟩

/-- Takes away what stands at and below a location, unless that is the top. -/
def discard (tree : FileTree) (location : Location) : Except Errno FileTree :=
  if location = [] then .error .busy else .ok (tree.remove location)

/-- The files below a location, each with its names from there on. -/
def filesBelow (tree : FileTree) (location : Location) : List Location :=
  tree.entries.filterMap fun other =>
    match other with
    | (place, .file _) =>
      if location.isPrefixOf place then some (place.drop location.length) else none
    | _ => none

/-- Makes a directory at a location and at all locations above it that have none. -/
def makeDirectories (tree : FileTree) (location : Location) : Except Errno FileTree :=
  match tree.entry? location with
  | some (.file _) => .error .alreadyExists
  | some .directory => .ok tree
  | none =>
    if tree.isBlocked location then .error .notDirectory
    else
      .ok <| (above location ++ [location]).foldl (fun tree place =>
        if (tree.entry? place).isSome then tree else tree.put place .directory) tree

/-- Makes directories at locations, one after the other, up to the first where none can be made. -/
def makeEach (tree : FileTree) : List Location → Except Errno Unit × FileTree
  | [] => (.ok (), tree)
  | location :: locations =>
    match tree.makeDirectories location with
    | .error errno => (.error errno, tree)
    | .ok tree => tree.makeEach locations

/-- Whether a directory stands at a location, or why there is none. -/
def checkDirectory (tree : FileTree) (location : Location) : Except Errno Unit :=
  match tree.find location with
  | .error errno => .error errno
  | .ok (.file _) => .error .notDirectory
  | .ok .directory => .ok ()

/-- Whether a new entry can be put at a location: a directory stands above it. -/
def checkParent (tree : FileTree) (location : Location) : Except Errno Unit :=
  tree.checkDirectory location.dropLast

/-- Puts a file at a location where none or another file stands. -/
def writeFile (tree : FileTree) (location : Location) (content : Bytes)
    : Except Errno FileTree :=
  match tree.entry? location with
  | some .directory => .error .isDirectory
  | some (.file _) => .ok (tree.put location (.file content))
  | none => (tree.checkParent location).map fun _ => tree.put location (.file content)

/-- Moves what stands at and below a location to a location where nothing stands. -/
def move (tree : FileTree) (source target : Location) : Except Errno FileTree :=
  match tree.find source, tree.checkParent target with
  | .error errno, _ => .error errno
  | _, .error errno => .error errno
  | .ok _, .ok () =>
    if source.isPrefixOf target then .error .invalid
    else if (tree.entry? target).isSome then .error .notEmpty
    else
      .ok ⟨tree.entries.map fun (place, entry) =>
        if source.isPrefixOf place then (target ++ place.drop source.length, entry)
        else (place, entry)⟩

end FileTree

end Stencil.Files
