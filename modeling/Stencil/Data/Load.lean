import Stencil.Context
import Stencil.Data.Override
import Stencil.Data.Toml.Reader
import Stencil.Data.Yaml.Reader
import Stencil.Files.Disk
import Stencil.Json.Reader
import Stencil.Log

/-!
Data records from data texts and data files, and contexts from data records.
-/

namespace Stencil.Data

open Stencil.Log (Logged)

/-! ### Data texts -/

/-- The data of a text in a format. -/
def Format.read : Format → List Char → Except Fault Plain
  | toml => Toml.read
  | yaml => Yaml.read
  | json => Json.read

/-- The data of a text, or the reason why it breaks the rules of its format. -/
def parse (format : Format) (source text : String) : Except Error Plain :=
  match format.read text.toList with
  | .ok data => .ok data
  | .error fault => .error (.malformed format (fault.describe text.toList) source none)

/-- The record that a data text holds. An empty YAML text is an empty record. -/
def parseRecord (format : Format) (source text : String) : Except Error Record :=
  match format, parse format source text with
  | _, .error cause => .error cause
  | _, .ok (.record members) => .ok members
  | .yaml, .ok .null => .ok []
  | _, .ok _ => .error (.notATable source)

/-- The source named for a text that comes from no file. -/
def inlineSource : String := "<inline>"

/-- The context of records merged from left to right, with overrides applied to the result. -/
def contextOf (records : List Record) (overrides : List Override) : Except Error Context := do
  let record ← applyOverrides (merge records) overrides
  Context.ofPlain (.record record)

/-! ### Data files -/

variable {m : Type → Type} [Monad m] [Files.Disk m]

/-- The error, with the file named if the text of the file is malformed. -/
def Error.inFile (file : String) : Error → Error
  | malformed format reason source _ => malformed format reason source (some file)
  | cause => cause

/-- The record of a data file, whose extension tells its format. -/
def loadRecord (file : String) : ExceptT Error m Record := do
  match Format.ofPath? file with
  | none => throw (.unknownFormat file)
  | some format =>
    match ← Files.attempt (Files.readText file : ExceptT Files.Fault m String) with
    | .error _ => throw (.unreadable file)
    | .ok text =>
      match parseRecord format file text with
      | .error cause => throw (cause.inFile file)
      | .ok record => return record

/-- The log entry that announces a data file. -/
def loadingEntry (file : String) : Log.Entry where
  label := ""
  severity := .debug
  message := "Loading data file " ++ file

/-- The context of data files merged from left to right, with overrides applied to the
result. Each file is announced before it is read.
-/
def loadContext (files : List String) (overrides : List Override)
    : ExceptT Error (Logged m) Context := do
  let records ← files.mapM fun file => do
    ExceptT.lift (Log.note (loadingEntry file))
    ExceptT.mk (StateT.lift (loadRecord file : ExceptT Error m Record).run)
  ExceptT.mk (pure (contextOf records overrides))

end Stencil.Data
