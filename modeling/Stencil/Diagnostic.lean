import Stencil.Plain.Text
import Stencil.Position
import Stencil.Template.Error

/-!
Diagnostics: failures as they are shown, with a code, a message and details. This is where the
wording of template errors is decided.
-/

namespace Stencil

/-- The families of diagnostics. -/
inductive Family where
  | general
  | template
  | config
  | system
  deriving DecidableEq, Repr, Inhabited

/-- The name under which a family is reported. -/
def Family.name : Family → String
  | general => "DocstampError"
  | template => "TemplateError"
  | config => "ConfigError"
  | system => "SystemError"

/-- The kinds of template diagnostics, one for each code. -/
inductive TemplateKind where
  | unterminatedPlaceholder
  | unterminatedLoop
  | unmatchedLoopEnd
  | invalidSyntax
  | unknownKey
  | typeMismatch
  | timeout
  deriving DecidableEq, Repr, Inhabited

namespace TemplateKind

/-- All kinds in the order of their codes. -/
def all : List TemplateKind :=
  [unterminatedPlaceholder, unterminatedLoop, unmatchedLoopEnd, invalidSyntax, unknownKey,
    typeMismatch, timeout]

/-- The name of a kind. -/
def name : TemplateKind → String
  | unterminatedPlaceholder => "UnterminatedPlaceholder"
  | unterminatedLoop => "UnterminatedLoop"
  | unmatchedLoopEnd => "UnmatchedLoopEnd"
  | invalidSyntax => "InvalidSyntax"
  | unknownKey => "UnknownKey"
  | typeMismatch => "TypeMismatch"
  | timeout => "Timeout"

/-- The code of a kind. -/
def code : TemplateKind → String
  | unterminatedPlaceholder => "T001"
  | unterminatedLoop => "T002"
  | unmatchedLoopEnd => "T003"
  | invalidSyntax => "T004"
  | unknownKey => "T005"
  | typeMismatch => "T006"
  | timeout => "T007"

end TemplateKind

/-- A place that a diagnostic points at: the text that shows it, and its data. -/
structure Place where
  text : String
  data : Plain
  deriving Repr, Inhabited

/-- What a template diagnostic records besides its message. -/
structure TemplateFacts where
  kind : TemplateKind
  place? : Option Place := none
  path? : Option String := none
  expected? : Option String := none
  actual? : Option String := none
  maxSteps? : Option Number := none
  /-- Facts under names of their own. -/
  others : List (String × Plain) := []
  deriving Repr, Inhabited

/-- The details of a diagnostic. -/
inductive Details where
  | none
  | template (facts : TemplateFacts)
  | fields (members : List (String × Plain))
  deriving Repr, Inhabited

/-- A failure as it is shown. -/
structure Diagnostic where
  family : Family
  code : String
  message : String
  details : Details := .none
  deriving Repr, Inhabited

/-- A position as plain data. -/
def Position.toPlain (position : Position) : Plain :=
  .record [("offset", .ofNat position.offset), ("line", .ofNat position.line),
    ("column", .ofNat position.column)]

/-- The place that a position is. -/
def Position.place (position : Position) : Place :=
  ⟨position.text, position.toPlain⟩

/-- The place that a record describes, by its line and its column. -/
def Place.ofPlain (data : Plain) : Place :=
  let part (key : String) : String := ((data.member key).asText.toOption).getD ""
  ⟨part "line" ++ ":" ++ part "column", data⟩

namespace TemplateFacts

/-- The facts that are known, as record members. -/
def members (facts : TemplateFacts) : List (String × Plain) :=
  let optional (key : String) (value? : Option Plain) : List (String × Plain) :=
    (value?.map fun value => (key, value)).toList
  [("kind", Plain.text facts.kind.name)]
    ++ optional "path" (facts.path?.map .text)
    ++ optional "expected" (facts.expected?.map .text)
    ++ optional "actual" (facts.actual?.map .text)
    ++ optional "maxSteps" (facts.maxSteps?.map .number)
    ++ optional "position" (facts.place?.map Place.data)
    ++ facts.others

end TemplateFacts

/-- The details as record members, if there are any details. -/
def Details.members? : Details → Option (List (String × Plain))
  | none => Option.none
  | template facts => some facts.members
  | fields members => some members

namespace Diagnostic

/-- The facts of a template diagnostic. -/
def facts? (d : Diagnostic) : Option TemplateFacts :=
  match d.details with
  | .template facts => some facts
  | _ => none

/-- A diagnostic as plain data. Missing details are left out. -/
def toPlain (d : Diagnostic) : Plain :=
  .record <|
    [("name", .text d.family.name), ("code", .text d.code), ("message", .text d.message)]
      ++ (d.details.members?.map fun members => ("details", Plain.ofPairs members)).toList

/-- A template diagnostic with a message of its own. -/
def ofFacts (facts : TemplateFacts) (message : String) : Diagnostic :=
  ⟨.template, facts.kind.code, message, .template facts⟩

/-- The words that place a message, where a position is known. -/
def whereText : Option Place → String
  | some place => " at " ++ place.text
  | none => ""

/-- An opening delimiter without a closing one. -/
def unterminatedPlaceholder (place : Place) (escaped : Bool) : Diagnostic :=
  let what := if escaped then "Unclosed escaped placeholder" else "Unclosed placeholder"
  ofFacts { kind := .unterminatedPlaceholder, place? := some place }
    (what ++ " at " ++ place.text ++ ": missing '\x7d\x7d'")

/-- A loop without a loop end. -/
def unterminatedLoop (path : String) (place : Place) : Diagnostic :=
  ofFacts { kind := .unterminatedLoop, path? := some path, place? := some place }
    ("Unclosed each loop over '" ++ path ++ "' at " ++ place.text ++ ": missing "
      ++ Template.inBraces "/each")

/-- A loop end without a loop. -/
def unmatchedLoopEnd (place : Place) : Diagnostic :=
  ofFacts { kind := .unmatchedLoopEnd, place? := some place }
    ("Unexpected " ++ Template.inBraces "/each" ++ " without matching "
      ++ Template.inBraces "each" ++ " at " ++ place.text)

/-- A tag that is none. -/
def invalidSyntax (reason : String) (place : Place) : Diagnostic :=
  ofFacts { kind := .invalidSyntax, place? := some place }
    ("Malformed syntax at " ++ place.text ++ ": " ++ reason)

/-- A path that leads to no value. -/
def unknownKey (path : String) (place? : Option Place) : Diagnostic :=
  ofFacts { kind := .unknownKey, path? := some path, place? }
    ("Undefined key '" ++ path ++ "'" ++ whereText place?)

/-- Advice on what to write where a scalar is expected and something else is found. -/
def mismatchHint (path expected actual : String) : String :=
  if expected = "scalar" && actual = "list" then
    ". Use " ++ Template.inBraces ("each " ++ path ++ " |item|") ++ " ... "
      ++ Template.inBraces "/each"
  else if expected = "scalar" && actual = "table" then
    ". Use nested keys like " ++ path ++ ".field"
  else ""

/-- A value of another kind than expected. -/
def typeMismatch (path expected actual : String) (place? : Option Place)
    : Diagnostic :=
  ofFacts
    { kind := .typeMismatch, path? := some path, expected? := some expected
      actual? := some actual, place? }
    ("Expected " ++ expected ++ " at '" ++ path ++ "'" ++ whereText place? ++ ", found "
      ++ actual ++ mismatchHint path expected actual)

/-- A step budget that is spent. -/
def timeout (maxSteps : Number) (place? : Option Place) : Diagnostic :=
  ofFacts { kind := .timeout, maxSteps? := some maxSteps, place? }
    ("Template rendering exceeded " ++ maxSteps.text ++ " steps" ++ whereText place?
      ++ ". Check for runaway " ++ Template.inBraces "each" ++ " nesting.")

end Diagnostic

/-- The diagnostic of a template error. -/
def Template.Error.diagnostic : Template.Error → Diagnostic
  | unclosedTag escaped position => .unterminatedPlaceholder position.place escaped
  | unclosedLoop path position => .unterminatedLoop path position.place
  | strayLoopEnd position => .unmatchedLoopEnd position.place
  | invalidTag fault position => .invalidSyntax fault.reason position.place
  | unknownKey path position? => .unknownKey path (position?.map Position.place)
  | kindMismatch path expected actual position? =>
    .typeMismatch path expected.name actual.name (position?.map Position.place)
  | outOfSteps budget position => .timeout (.ofNat budget) (some position.place)

/-- The diagnostic of a failed lookup at a place that is no position. -/
def Template.Error.diagnosticAt (place? : Option Place) : Template.Error → Diagnostic
  | unknownKey path _ => .unknownKey path place?
  | kindMismatch path expected actual _ => .typeMismatch path expected.name actual.name place?
  | cause => cause.diagnostic

end Stencil
