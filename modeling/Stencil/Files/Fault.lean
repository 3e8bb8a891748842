/-!
Faults of file operations: the kind of fault, and what was being done.
-/

namespace Stencil.Files

/-- The kinds of file faults. -/
inductive Errno where
  | noEntry
  | notDirectory
  | isDirectory
  | alreadyExists
  | notEmpty
  | busy
  | invalid
  deriving DecidableEq, Repr, Inhabited

/-- The short name of a kind of fault. -/
def Errno.name : Errno → String
  | noEntry => "ENOENT"
  | notDirectory => "ENOTDIR"
  | isDirectory => "EISDIR"
  | alreadyExists => "EEXIST"
  | notEmpty => "ENOTEMPTY"
  | busy => "EBUSY"
  | invalid => "EINVAL"

/-- The words for a kind of fault. -/
def Errno.phrase : Errno → String
  | noEntry => "no such file or directory"
  | notDirectory => "not a directory"
  | isDirectory => "illegal operation on a directory"
  | alreadyExists => "file already exists"
  | notEmpty => "directory not empty"
  | busy => "resource busy or locked"
  | invalid => "invalid argument"

/-- A fault, with the operation and the paths it was given. -/
structure Fault where
  errno : Errno
  action : String
  deriving DecidableEq, Repr, Inhabited

/-- The text of a fault. -/
def Fault.message (fault : Fault) : String :=
  fault.errno.name ++ ": " ++ fault.errno.phrase ++ ", " ++ fault.action

/-- An operation on one path. -/
def actionOn (operation path : String) : String :=
  operation ++ " '" ++ path ++ "'"

/-- An operation on two paths. -/
def actionFromTo (operation source target : String) : String :=
  actionOn operation source ++ " -> '" ++ target ++ "'"

end Stencil.Files
