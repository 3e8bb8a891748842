import Stencil.Diagnostic
import Stencil.Files.PathText
import Stencil.Value.Plain

/-!
The formats of data files, told apart by the extension of the file name, and what can be wrong with
the data that a template is rendered against.
-/

namespace Stencil

namespace Data

/-! ### Formats -/

/-- The formats that data files come in. -/
inductive Format where
  | toml
  | yaml
  | json
  deriving DecidableEq, Repr, Inhabited

namespace Format

/-- The short name of a format. -/
def name : Format → String
  | toml => "toml"
  | yaml => "yaml"
  | json => "json"

/-- The name of a format in messages. -/
def title : Format → String
  | toml => "TOML"
  | yaml => "YAML"
  | json => "JSON"

/-- The extensions of data files. -/
def extensions : List (List Char × Format) :=
  [(".toml".toList, toml), (".yaml".toList, yaml), (".yml".toList, yaml),
    (".json".toList, json)]

/-- The format of a data file, by its extension; ASCII letters count in either case. -/
def ofPath? (path : String) : Option Format :=
  extensions.lookup ((Files.PathText.extension path.toList).map Char.toLower)

end Format

/-! ### Errors -/

/-- The cause of a failure to read, merge, override or convert data. -/
inductive Error where
  /-- A datum has no value. -/
  | unsupported (datum : Unsupported)
  /-- The value that templates are to be rendered against is no table. -/
  | badRoot (kind : Template.Kind)
  /-- The extension of a data file is none of a data format. -/
  | unknownFormat (file : String)
  /-- The top level of a data text is no table. -/
  | notATable (source : String)
  /-- A data text breaks the rules of its format; `file?` names the file it was read from. -/
  | malformed (format : Format) (reason source : String) (file? : Option String)
  /-- A data file cannot be read. -/
  | unreadable (file : String)
  /-- An override is not a path, an equals sign and a text. -/
  | badOverride (text : String)
  /-- The value under `key` stands in the way of an override of `path`. -/
  | blockedOverride (path key : String)
  deriving DecidableEq, Repr, Inhabited

/-- The words that name the file of a fault. -/
def inFile : Option String → String
  | some file => " (file: " ++ file ++ ")"
  | none => ""

/-- The words that name the place of an unsupported datum. -/
def placeOf (path : String) : String :=
  if path = "" then "data root" else "'" ++ path ++ "'"

/-- The source of a data text as details. Details of YAML faults do not name it. -/
def sourceDetails (format : Format) (source : String) : List (String × Plain) :=
  if format = .yaml then [] else [("source", .text source)]

/-- The diagnostic of a data error. -/
def Error.diagnostic : Error → Diagnostic
  | unsupported (.key cause) => ⟨.general, "", cause.message, .none⟩
  | unsupported (.datum path what) =>
    ⟨.config, "C002", "Unsupported value at " ++ placeOf path ++ ": " ++ what,
      .fields [("path", .text path), ("type", .text what)]⟩
  | badRoot kind => .typeMismatch "<root>" Template.Shape.table.name kind.name none
  | unknownFormat file =>
    ⟨.config, "C003",
      "Unsupported data file: " ++ file ++ ". Expected .toml, .yaml, .yml or .json",
      .fields [("filePath", .text file)]⟩
  | notATable source =>
    ⟨.config, "C002", "Data in " ++ source ++ " must be a table at the top level",
      .fields [("source", .text source)]⟩
  | malformed format reason source file? =>
    ⟨.system, "S001",
      "Failed to parse " ++ format.title ++ ": " ++ reason ++ inFile file?,
      .fields (sourceDetails format source
        ++ (file?.map fun file => ("filePath", Plain.text file)).toList)⟩
  | unreadable file =>
    ⟨.system, "S002", "Failed to read data file: " ++ file,
      .fields [("filePath", .text file)]⟩
  | badOverride text =>
    ⟨.config, "C004",
      "Invalid override '" ++ text ++ "'. Expected <dotted.key>=<value>",
      .fields [("override", .text text)]⟩
  | blockedOverride path key =>
    ⟨.config, "C004", "Cannot set '" ++ path ++ "': '" ++ key ++ "' is not a table",
      .fields [("path", .text path)]⟩

end Data

end Stencil
