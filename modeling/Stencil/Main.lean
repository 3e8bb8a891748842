import Stencil.Command.Run

/-!
The program: the file operations of the operating system, and the command line run over them.
-/

namespace Stencil.Main

open Stencil.Files (Errno Fault)

/-- The kind of fault that a failed system call stands for. -/
def errnoOf : IO.Error → Errno
  | .noFileOrDirectory .. => .noEntry
  | .alreadyExists _ code _ => if code = 39 then .notEmpty else .alreadyExists
  | .inappropriateType _ code _ => if code = 21 then .isDirectory else .notDirectory
  | .resourceBusy .. => .busy
  | .unsatisfiedConstraints .. => .notEmpty
  | _ => .invalid

/-- Performs a system call, with what it does said for the case that it fails. -/
def perform {α : Type} (action : String) (call : IO α) : ExceptT Fault IO α :=
  ExceptT.mk do
    match ← call.toBaseIO with
    | .ok value => return .ok value
    | .error error => return .error ⟨errnoOf error, action⟩

/-- A path seen from the working directory. The empty path leads nowhere. -/
def located (path : String) :=
  IO.currentDir >>= fun directory =>
    if path = "" then throw (.noFileOrDirectory path 2 "") else pure (directory / path)

/-- Whether a directory stands at a path. -/
def isDirectory (path : String) : IO Bool := do
  return (← (← located path).metadata).type == .dir

/-- Removes what stands at and below a path, if anything does. -/
def remove (path : String) : IO Unit := do
  match ← (isDirectory path).toBaseIO with
  | .ok true => IO.FS.removeDirAll path
  | .ok false => IO.FS.removeFile path
  | .error error =>
    match errnoOf error with
    | .noEntry => return ()
    | _ => throw error

/-- Makes a directory whose path continues a text by six random digits. -/
def makeFresh (stem : String) : Nat → IO String
  | 0 => throw (IO.userError "no fresh name")
  | tries + 1 => do
    let path := stem ++ toString (← IO.rand 100000 999999)
    match ← (IO.FS.createDir path).toBaseIO with
    | .ok () => return path
    | .error error =>
      match errnoOf error with
      | .alreadyExists => makeFresh stem tries
      | _ => throw error

/-- The files below a directory, each as the names that lead to it. -/
def files (path : String) : IO (List (List String)) := do
  let directory ← located path
  let found ← directory.walkDir
  let files ← found.toList.filterM fun file => do
    return (← file.metadata).type == .file
  return files.map fun file => file.components.drop directory.components.length

instance : Files.Disk IO where
  workingDirectory := toString <$> IO.currentDir
  isDirectory path := perform (Files.actionOn "stat" path) (isDirectory path)
  read path := do
    if ← perform (Files.actionOn "open" path) (isDirectory path) then
      throw ⟨.isDirectory, "read"⟩
    else perform (Files.actionOn "open" path) (ByteArray.toList <$> IO.FS.readBinFile path)
  write path content :=
    perform (Files.actionOn "open" path) (IO.FS.writeBinFile path ⟨content.toArray⟩)
  copy source target :=
    perform (Files.actionFromTo "copyfile" source target) do
      IO.FS.writeBinFile target (← IO.FS.readBinFile source)
  makeDirectories path := perform (Files.actionOn "mkdir" path) (IO.FS.createDirAll path)
  makeFresh stem :=
    perform (Files.actionOn "mkdtemp" (stem ++ "XXXXXX")) (makeFresh stem 1000)
  remove path := perform (Files.actionOn "lstat" path) (remove path)
  move source target :=
    perform (Files.actionFromTo "rename" source target) (IO.FS.rename source target)
  files path := perform (Files.actionOn "scandir" path) (files path)

end Stencil.Main

/-- Runs a program call. Texts are styled where the standard output is a terminal. -/
def main (words : List String) : IO UInt32 := do
  let isStyled ← (← IO.getStdout).isTty
  let outcome ← (Stencil.Command.run isStyled words : IO Stencil.Command.Outcome)
  IO.print outcome.stdout
  IO.eprint outcome.stderr
  return .ofNat outcome.exitCode
