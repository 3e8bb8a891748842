import Stencil.Diagnostic

/-!
Results of generation runs: what became of each target, and what can be wrong with one besides its
configuration, data and templates.
-/

namespace Stencil.Generate

/-- A rendered file: its template and its output, relative to the source directory and the
output directory, and its length in 16-bit units.
-/
structure GeneratedFile where
  template : String
  output : String
  length : Nat
  deriving DecidableEq, Repr, Inhabited

/-- What became of a target. A target that failed has no files; the template that is at fault,
the message and the code are known where there are such.
-/
structure Result where
  target : String
  success : Bool
  outputDir : String
  files : List GeneratedFile
  copied : List String
  template? : Option String := none
  error? : Option String := none
  code? : Option String := none
  deriving DecidableEq, Repr, Inhabited

/-- What became of several targets, and the names of those that succeeded and that failed. -/
structure Summary where
  results : List Result
  generated : List String
  failed : List String
  deriving DecidableEq, Repr, Inhabited

/-- The summary of results. -/
def Summary.ofResults (results : List Result) : Summary where
  results
  generated := (results.filter (·.success)).map Result.target
  failed := (results.filter (!·.success)).map Result.target

/-- The cause of a failure to generate a target. -/
inductive Error where
  /-- The source directory of a target is none. -/
  | noSource (target directory : String)
  /-- A file that is to be copied has the path of a rendered file. -/
  | clash (target file : String)
  /-- The output directory cannot be written. -/
  | write (directory reason : String)
  deriving DecidableEq, Repr, Inhabited

/-- The diagnostic of a generation error. -/
def Error.diagnostic : Error → Diagnostic
  | noSource target directory =>
    ⟨.system, "S002", "Source directory not found: " ++ directory,
      .fields [("target", .text target), ("sourceDir", .text directory)]⟩
  | clash target file =>
    ⟨.config, "C001", "Static file '" ++ file ++ "' would overwrite a rendered template output",
      .fields [("target", .text target), ("file", .text file)]⟩
  | write directory reason =>
    ⟨.system, "S003", "Failed to write " ++ directory ++ ": " ++ reason,
      .fields [("outputDir", .text directory)]⟩

end Stencil.Generate
