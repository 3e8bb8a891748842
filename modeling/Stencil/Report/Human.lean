import Stencil.Generate.Result
import Stencil.Report
import Stencil.Report.Style

/-!
Reports for people: one line for each file or target, and a line of totals.
-/

namespace Stencil.Report.Human

/-- How reports for people are written. -/
structure Options where
  isStyled : Bool
  isVerbose : Bool
  deriving DecidableEq, Repr, Inhabited

/-- A number of things, the noun in the plural unless the number is one. -/
def plural (count : Nat) (noun : String) : String :=
  toString count ++ " " ++ noun ++ if count = 1 then "" else "s"

/-- The place that a problem is at: the file, with the position in it if that is known. -/
def place (file : String) : Problem → String
  | .coded diagnostic =>
    match diagnostic.facts?.bind TemplateFacts.place? with
    | some place => file ++ ":" ++ place.text ++ " "
    | none => file ++ ": "
  | _ => file ++ ": "

/-- A problem, in a file if one is named. -/
def problem (options : Options) (problem : Problem) (file? : Option String) : String :=
  let place :=
    match file?.filter (· ≠ "") with
    | some file => place file problem
    | none => ""
  match problem with
  | .coded diagnostic =>
    place ++ paint options.isStyled .red diagnostic.code ++ " " ++ diagnostic.message
  | problem => place ++ problem.message

/-- The line for a file with a problem. -/
def problemLine (options : Options) (file : String) (found : Problem) : String :=
  paint options.isStyled .red "✗" ++ " " ++ problem options found (some file)

/-- The lines for a file with an outline. -/
def outlineLines (options : Options) (file : String) (outline : Template.Outline)
    : List String :=
  let counts :=
    [plural outline.placeholders.length "placeholder", plural outline.loopCount "loop"]
      ++ if outline.escapedCount > 0 then [plural outline.escapedCount "escaped tag"] else []
  let head :=
    paint options.isStyled .green "✓" ++ " " ++ file ++ ": " ++ ", ".intercalate counts
  let key (word gap path : String) : String :=
    "   " ++ paint options.isStyled .dim word ++ gap ++ path
  head ::
    if options.isVerbose then
      outline.placeholders.map (key "key" "  ") ++ outline.loops.map (key "each" " ")
    else []

/-- The lines for a checked file. What has neither an outline nor a problem has an unknown one. -/
def checkLines (options : Options) (report : CheckReport) : List String :=
  match report.finding.problem?, report.finding.outline? with
  | none, some outline => outlineLines options report.file outline
  | found?, _ => [problemLine options report.file (found?.getD .unknown)]

/-- The line that gives two totals, the second one of failures. -/
def totals (options : Options) (good : Nat) (word : String) (bad : Nat) : String :=
  paint options.isStyled .green (toString good ++ " " ++ word) ++ ", "
    ++ paint options.isStyled (if bad > 0 then .red else .dim) (toString bad ++ " failed")

/-- Lines joined by line breaks. -/
def lines (lines : List String) : String :=
  "\n".intercalate lines

/-- The report on checked files. -/
def check (options : Options) (reports : List CheckReport) : String :=
  let failed := failedCount reports
  lines <|
    reports.flatMap (checkLines options)
      ++ if reports.length > 1 then
        ["", totals options (reports.length - failed) "passed" failed]
      else []

/-- The lines for a target. -/
def targetLines (options : Options) (result : Generate.Result) : List String :=
  if result.success then
    let copied :=
      if result.copied.isEmpty then ""
      else ", " ++ toString result.copied.length ++ " copied"
    let head :=
      paint options.isStyled .green "✓" ++ " " ++ result.target ++ " → " ++ result.outputDir
        ++ " (" ++ plural result.files.length "file" ++ copied ++ ")"
    head ::
      if options.isVerbose then
        (result.files.map fun file =>
          "   " ++ file.template ++ " " ++ paint options.isStyled .dim "→" ++ " "
            ++ file.output)
        ++ (result.copied.map fun file =>
          "   " ++ file ++ " " ++ paint options.isStyled .dim "(copied)")
      else []
  else
    let code :=
      match result.code?.filter (· ≠ "") with
      | some code => paint options.isStyled .red code ++ " "
      | none => ""
    [paint options.isStyled .red "✗" ++ " " ++ result.target ++ ": " ++ code
      ++ result.error?.getD "failed"]

/-- The report on a generation run. -/
def generate (options : Options) (summary : Generate.Summary) (isDry : Bool) : String :=
  let heading :=
    if isDry then [paint options.isStyled .bold "Dry Run - Would generate:", ""] else []
  let ending :=
    if summary.results.isEmpty then [paint options.isStyled .yellow "No targets configured"]
    else
      ["", totals options summary.generated.length "generated" summary.failed.length]
  lines (heading ++ summary.results.flatMap (targetLines options) ++ ending)

end Stencil.Report.Human
