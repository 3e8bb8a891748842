import Stencil.Config
import Stencil.Data.Error

/-!
What can be wrong with a configuration file or with the choice of targets.
-/

namespace Stencil.Config

/-- Why a text holds no configuration, or no part of one. -/
inductive TextFault where
  /-- The text is no YAML. -/
  | malformed (reason : String)
  /-- The data of the text has issues. -/
  | invalid (issues : List Issue)
  deriving DecidableEq, Repr

/-- The diagnostic of a text fault. -/
def TextFault.diagnostic : TextFault → Diagnostic
  | malformed reason => (Data.Error.malformed .yaml reason "" none).diagnostic
  | invalid issues =>
    ⟨.config, "C001", "YAML validation failed: " ++ issuesText issues, .fields []⟩

/-- The cause of a failure to load a configuration or to choose targets. -/
inductive Error where
  /-- A configuration file that was asked for is not there. -/
  | missing (file : String)
  /-- A configuration file cannot be read. -/
  | unreadable (file : String)
  /-- A configuration file holds no configuration. -/
  | badFile (file : String) (fault : TextFault)
  /-- No target has the name; `known` holds the names that targets have. -/
  | unknownTarget (name : String) (known : List String)
  deriving DecidableEq, Repr

/-- The diagnostic of a configuration error. -/
def Error.diagnostic : Error → Diagnostic
  | missing file =>
    ⟨.config, "C001", "Config file not found: " ++ file, .fields [("path", .text file)]⟩
  | unreadable file =>
    ⟨.config, "C001",
      "Failed to load config from " ++ file ++ ": Failed to load YAML file: " ++ file,
      .fields [("path", .text file)]⟩
  | badFile file fault =>
    ⟨.config, "C001",
      "Failed to load config from " ++ file ++ ": " ++ fault.diagnostic.message
        ++ Data.inFile (some file),
      .fields [("path", .text file)]⟩
  | unknownTarget name known =>
    let names := if known.isEmpty then "(none)" else ", ".intercalate known
    ⟨.config, "C005", "Unknown target '" ++ name ++ "'. Configured targets: " ++ names,
      .fields [("target", .text name)]⟩

/-- The targets with the given names, in the order of the names; all targets for no names. -/
def select (config : Config) (names : List String) : Except Error (List Target) :=
  if names.isEmpty then .ok config.targets
  else
    names.mapM fun name =>
      match config.targets.find? (·.name == name) with
      | some target => .ok target
      | none => .error (.unknownTarget name (config.targets.map Target.name))

end Stencil.Config
