import Stencil.Config.Error
import Stencil.Data.Yaml.Reader
import Stencil.Files.Disk

/-!
Configurations from texts, and the configuration of a project, from its file.
-/

namespace Stencil.Config

/-- The data of a YAML text that a check accepts. -/
def parseWith {α : Type} (check : Plain → Checked α) (text : String)
    : Except TextFault α :=
  match Data.Yaml.read text.toList with
  | .error fault => .error (.malformed (fault.describe text.toList))
  | .ok data => (check data).result.mapError .invalid

/-- The configuration of a YAML text. -/
def parse (text : String) : Except TextFault Config :=
  parseWith check text

/-- The path of the configuration file below a project. -/
def defaultFile : String := ".docstamp/config.yaml"

/-- The configuration file of a project directory. -/
def fileOf (root : String) : String :=
  Files.PathText.resolve root defaultFile

variable {m : Type → Type} [Monad m] [Files.Disk m]

/-- The configuration of a file that is there. -/
def loadFile (file : String) : ExceptT Error m Config := do
  match ← Files.attempt (Files.readText file : ExceptT Files.Fault m String) with
  | .error _ => throw (.unreadable file)
  | .ok text =>
    match parse text with
    | .error fault => throw (.badFile file fault)
    | .ok config => return config

/-- The configuration of a project: that of the named file, which must be there, or that of
the file of the project. A project without such a file has the defaults.
-/
def load (root : String) (named? : Option String) : ExceptT Error m Config := do
  let named? := named?.filter (· ≠ "")
  let file := (named?.map (Files.PathText.resolve root)).getD (fileOf root)
  if ← ExceptT.lift (Files.isThere file : m Bool) then loadFile file
  else
    match named? with
    | some _ => throw (.missing file)
    | none => return default

end Stencil.Config
