import Stencil.Generate.Result
import Stencil.Json.Writer
import Stencil.Report

/-!
Reports for programs, as JSON. Members that have no value are left out.
-/

namespace Stencil.Report.Machine

/-- A text, if there is one. -/
def text (text? : Option String) : Plain :=
  (text?.map Plain.text).getD .absent

/-- A part of the place among facts, if there is one. -/
def placePart (key : String) (facts : TemplateFacts) : Plain :=
  (facts.place?.map fun place => place.data.member key).getD .absent

/-- Texts as data. -/
def texts (texts : List String) : Plain :=
  .list (texts.map .text)

/-- A problem as data. A template problem shows its facts. -/
def problemData : Problem → Plain
  | .coded diagnostic =>
    match diagnostic.facts? with
    | some facts =>
      .record
        [("code", .text diagnostic.code), ("kind", .text facts.kind.name),
          ("message", .text diagnostic.message), ("path", text facts.path?),
          ("expected", text facts.expected?), ("actual", text facts.actual?),
          ("line", placePart "line" facts), ("column", placePart "column" facts),
          ("offset", placePart "offset" facts)]
    | none =>
      .record [("code", .text diagnostic.code), ("message", .text diagnostic.message)]
  | problem => .record [("message", .text problem.message)]

/-- The report on a problem, in a file if one is named. -/
def problem (problem : Problem) (file? : Option String) : String :=
  Json.write .indented (.record [("file", text file?), ("error", problemData problem)])

/-- An outline as record members. -/
def outlineMembers (outline : Template.Outline) : List (String × Plain) :=
  [("placeholders", texts outline.placeholders), ("loops", texts outline.loops),
    ("loopCount", .ofNat outline.loopCount), ("escapedCount", .ofNat outline.escapedCount)]

/-- The report on a checked file as data. -/
def checkData (report : CheckReport) : Plain :=
  let status (status : String) : List (String × Plain) :=
    [("file", .text report.file), ("status", .text status)]
  match report.finding.problem? with
  | some problem => .record (status "fail" ++ [("error", problemData problem)])
  | none =>
    .record (status "pass" ++ (report.finding.outline?.map outlineMembers).getD [])

/-- The report on checked files. -/
def check (reports : List CheckReport) : String :=
  Json.write .indented <|
    .record
      [("passed", .ofNat (passedCount reports)), ("failed", .ofNat (failedCount reports)),
        ("files", .list (reports.map checkData))]

/-- The order in which the members of a generated file are written. -/
def fileOrder : List String := ["template", "output", "length"]

/-- A generated file as data, with its members in a given order. -/
def fileData (order : List String) (file : Generate.GeneratedFile) : Plain :=
  let members :=
    [("template", Plain.text file.template), ("output", .text file.output),
      ("length", .ofNat file.length)]
  .record (order.filterMap fun key => (members.lookup key).map fun value => (key, value))

/-- The result of a target as data. -/
def resultData (order : List String) (result : Generate.Result) : Plain :=
  .record
    [("target", .text result.target),
      ("status", .text (if result.success then "pass" else "fail")),
      ("output_dir", .text result.outputDir),
      ("files", .list (result.files.map (fileData order))), ("copied", texts result.copied),
      ("template", text result.template?), ("code", text result.code?),
      ("error", text result.error?)]

/-- The report on a generation run, with the members of files in a given order. -/
def generate (order : List String) (summary : Generate.Summary) (isDry : Bool) : String :=
  Json.write .indented <|
    .record
      [("dry_run", .boolean isDry), ("generated", texts summary.generated),
        ("failed", texts summary.failed),
        ("targets", .list (summary.results.map (resultData order)))]

end Stencil.Report.Machine
