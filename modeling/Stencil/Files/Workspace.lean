import Stencil.Files.Disk
import Stencil.Files.Lottery
import Stencil.Files.Tree

/-!
Workspaces: a file tree with a working directory, and the disk they make. Paths are looked up as
they are given: what comes before an empty segment, `.` or `..` has to be a directory.
-/

namespace Stencil.Files

/-- A file tree, the location that relative paths are seen from, and the lottery for the names of
new directories.
-/
structure Workspace where
  tree : FileTree
  directory : Location
  [lottery : Lottery]
  deriving Inhabited

namespace Workspace

/-- The location that a path leads to, if it leads anywhere. -/
def locate (workspace : Workspace) (path : String) : Location :=
  PathText.locate workspace.directory path

/-- The locations on the way of a path at which it does not go on to a name. -/
def turns (workspace : Workspace) (path : String) : List Location :=
  PathText.turns (if PathText.isAbsolute path then [] else workspace.directory)
    (PathText.segments path)

/-- Whether a path can be followed, up to its last name: it turns at directories only. -/
def checkWay (workspace : Workspace) (path : String) : Except Errno Unit :=
  (workspace.turns path).forM workspace.tree.checkDirectory

/-- Whether a path can only lead to a directory. -/
def endsWithSlash (path : String) : Bool :=
  path.toList.getLast? == some '/'

/-- What stands at a path. The empty path leads nowhere. -/
def find (workspace : Workspace) (path : String) : Except Errno Entry :=
  if path = "" then .error .noEntry
  else do
    workspace.checkWay path
    workspace.tree.find (workspace.locate path)

/-- The tree with a file written at a path. No file is made where a path can only lead to a
directory.
-/
def writeFile (workspace : Workspace) (path : String) (content : Bytes)
    : Except Errno FileTree :=
  if path = "" then .error .noEntry
  else do
    workspace.checkWay (PathText.trimmed path)
    if endsWithSlash path then do
      workspace.tree.checkParent (workspace.locate path)
      throw .isDirectory
    else workspace.tree.writeFile (workspace.locate path) content

/-- Makes the directory at a path, with all that the path leads through. What has been made stays,
even if the last of them cannot be made.
-/
def makeDirectories (workspace : Workspace) (path : String) : Except Errno Unit × FileTree :=
  if path = "" then (.error .noEntry, workspace.tree)
  else
    match workspace.tree.makeEach (workspace.turns path) with
    | (.error _, tree) => (.error .notDirectory, tree)
    | (.ok (), tree) =>
      match tree.makeDirectories (workspace.locate path) with
      | .error errno => (.error errno, tree)
      | .ok tree => (.ok (), tree)

/-- The path that a fault of making directories names: the whole path if there was a fault from the
start on, else the beginning that is found to lead to a file, in the tree after that.
-/
def blamedPath (workspace : Workspace) (path : String) (after : FileTree) : String :=
  let isFile (start : String) : Bool :=
    match after.entry? (workspace.locate start) with
    | some (.file _) => true
    | _ => false
  match workspace.find path with
  | .error .noEntry =>
    let segments := PathText.segments path
    let starts := (List.range segments.length).map fun last =>
      PathText.join (segments.take (last + 1))
    (starts.find? isFile).getD path
  | _ => path

/-- Texts that continue a path to one that something stands at: the ends of names that start like
the last segment of the path.
-/
def taken (workspace : Workspace) (stem : String) : List String :=
  let start := ((PathText.segments stem).getLast?.getD "").toList
  let rest? (name : String) : Option String :=
    if start.isPrefixOf name.toList then some (String.ofList (name.toList.drop start.length))
    else none
  let names := workspace.tree.entries.filterMap fun other => other.1.getLast?
  (names.filterMap rest?).filter fun rest =>
    (workspace.tree.entry? (workspace.locate (stem ++ rest))).isSome

end Workspace

/-- A result, or a fault of an action. -/
def orFault {α : Type} (action : String) (result : Except Errno α)
    : ExceptT Fault (StateM Workspace) α :=
  ExceptT.mk (pure (result.mapError fun errno => ⟨errno, action⟩))

/-- Changes the tree, unless that is a fault. -/
def change (action : String) (step : Workspace → Except Errno FileTree)
    : ExceptT Fault (StateM Workspace) Unit := do
  let workspace ← get
  let tree ← orFault action (step workspace)
  set { workspace with tree }

/-- Copies a file. A directory cannot be copied, and the file that stood in the place of the copy
is lost.
-/
def Workspace.copy (source target : String) : ExceptT Fault (StateM Workspace) Unit := do
  let action := actionFromTo "copyfile" source target
  let workspace ← get
  match ← orFault action (workspace.find source) with
  | .file content => change action fun workspace => workspace.writeFile target content
  | .directory =>
    let _ ← orFault action (workspace.writeFile target [])
    set { workspace with tree := workspace.tree.remove (workspace.locate target) }
    orFault action (.error .isDirectory)

instance : Disk (StateM Workspace) where
  workingDirectory := do return PathText.absolute (← get).directory
  isDirectory path := do
    let entry ← orFault (actionOn "stat" path) ((← get).find path)
    return entry.isDirectory
  read path := do
    let action := actionOn "open" path
    match ← orFault action ((← get).find path) with
    | .file content => return content
    | .directory => orFault "read" (.error .isDirectory)
  write path content :=
    change (actionOn "open" path) fun workspace => workspace.writeFile path content
  copy := Workspace.copy
  makeDirectories path := do
    let workspace ← get
    let (made, tree) := workspace.makeDirectories path
    set { workspace with tree }
    orFault (actionOn "mkdir" (workspace.blamedPath path tree)) made
  makeFresh stem := do
    let workspace ← get
    let path := stem ++ workspace.lottery.draw 0 (workspace.taken stem)
    let location := workspace.locate path
    let tree ← orFault (actionOn "mkdtemp" (stem ++ "XXXXXX")) do
      workspace.checkWay path
      workspace.tree.checkParent location
      return workspace.tree.put location .directory
    set { workspace with tree, lottery := workspace.lottery.next }
    return path
  remove path := do
    match (← get).find path with
    | .error .noEntry => return ()
    | .error errno => orFault (actionOn "lstat" path) (.error errno)
    | .ok _ =>
      change (actionOn "rmdir" path) fun workspace =>
        workspace.tree.discard (workspace.locate path)
  move source target :=
    change (actionFromTo "rename" source target) fun workspace => do
      workspace.checkWay (PathText.trimmed source)
      workspace.checkWay (PathText.trimmed target)
      workspace.tree.move (workspace.locate source) (workspace.locate target)
  files path := do
    let workspace ← get
    match ← orFault (actionOn "scandir" path) (workspace.find path) with
    | .directory => return workspace.tree.filesBelow (workspace.locate path)
    | .file _ => orFault (actionOn "scandir" path) (.error .notDirectory)

end Stencil.Files
