import Stencil.Files.Encoding
import Stencil.Files.Fault
import Stencil.Files.PathText

/-!
Disks: the file operations that programs are written over, whatever carries them out, and the
operations made from them.
-/

namespace Stencil.Files

/-- The file operations. Paths that are not absolute are seen from the working directory. -/
class Disk (m : Type → Type) where
  /-- The working directory, as an absolute path. -/
  workingDirectory : m String
  /-- Whether a directory stands at a path. -/
  isDirectory : String → ExceptT Fault m Bool
  /-- The content of a file. -/
  read : String → ExceptT Fault m Bytes
  /-- Writes a file. -/
  write : String → Bytes → ExceptT Fault m Unit
  /-- Copies a file. -/
  copy : String → String → ExceptT Fault m Unit
  /-- Makes a directory and the directories above it. -/
  makeDirectories : String → ExceptT Fault m Unit
  /-- Makes a new directory whose path continues a text by six characters. -/
  makeFresh : String → ExceptT Fault m String
  /-- Removes what stands at and below a path, if anything does. -/
  remove : String → ExceptT Fault m Unit
  /-- Moves what stands at and below a path. -/
  move : String → String → ExceptT Fault m Unit
  /-- The files below a directory, each as the names that lead to it. -/
  files : String → ExceptT Fault m (List (List String))

section

variable {m : Type → Type} [Monad m] [Disk m]

/-- What comes of an action, as a value. -/
def attempt {ε ε' α : Type} (action : ExceptT ε m α) : ExceptT ε' m (Except ε α) :=
  ExceptT.lift action.run

/-- Whether anything stands at a path. -/
def isThere (path : String) : m Bool := do
  return (← (Disk.isDirectory path : ExceptT Fault m Bool).run).isOk

/-- Whether a directory stands at a path. A path that leads nowhere is no directory. -/
def isFolder (path : String) : m Bool := do
  match ← (Disk.isDirectory path : ExceptT Fault m Bool).run with
  | .ok isDirectory => return isDirectory
  | .error _ => return false

/-- The text of a file. -/
def readText (path : String) : ExceptT Fault m String :=
  Encoding.decode <$> Disk.read path

/-- Writes a text to a file and makes the directories above it. -/
def writeText (path text : String) : ExceptT Fault m Unit := do
  Disk.makeDirectories (PathText.parent path)
  Disk.write path (Encoding.encode text)

/-- Copies a file and makes the directories above the copy. -/
def copyFile (source target : String) : ExceptT Fault m Unit := do
  Disk.makeDirectories (PathText.parent target)
  Disk.copy source target

/-- Makes a new directory in another one, with a name that continues a stem. -/
def makeFreshIn (parent stem : String) : ExceptT Fault m String := do
  Disk.makeDirectories parent
  Disk.makeFresh (PathText.append parent stem)

/-- Moves a directory into the place of what stands at a path. -/
def replaceFolder (source target : String) : ExceptT Fault m Unit := do
  Disk.remove target
  Disk.makeDirectories (PathText.parent target)
  Disk.move source target

end

end Stencil.Files
