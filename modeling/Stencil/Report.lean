import Stencil.Failure

/-!
Reports: what is told about checked templates and about failures, before it is put into words.
-/

namespace Stencil.Report

/-- A failure as it is reported: with a code and facts, with a message alone, or as nothing
that is known.
-/
inductive Problem where
  | coded (diagnostic : Diagnostic)
  | plain (message : String)
  | unknown
  deriving Repr, Inhabited

/-- The message of a problem. -/
def Problem.message : Problem → String
  | coded diagnostic => diagnostic.message
  | plain message => message
  | unknown => "Unknown error"

/-- A failure as a problem. -/
def Problem.ofFailure (failure : Failure) : Problem :=
  match failure.diagnostic? with
  | some diagnostic => coded diagnostic
  | none => plain failure.message

/-- What was found in a checked file: an outline of its text, or a problem with it. Nothing keeps a
finding from having both or neither.
-/
structure Finding where
  outline? : Option Template.Outline
  problem? : Option Problem
  deriving Repr, Inhabited

namespace Finding

/-- An outline and no problem. -/
def outline (outline : Template.Outline) : Finding := ⟨some outline, none⟩

/-- A problem and no outline. -/
def problem (problem : Problem) : Finding := ⟨none, some problem⟩

/-- Neither an outline nor a problem. -/
def nothing : Finding := ⟨none, none⟩

/-- Whether a problem was found. -/
def isProblem (finding : Finding) : Bool := finding.problem?.isSome

end Finding

/-- The report on a checked file. -/
structure CheckReport where
  file : String
  finding : Finding
  deriving Repr, Inhabited

/-- The number of reports with a problem. -/
def failedCount (reports : List CheckReport) : Nat :=
  reports.countP (·.finding.isProblem)

/-- The number of reports without a problem. -/
def passedCount (reports : List CheckReport) : Nat :=
  reports.countP (!·.finding.isProblem)

end Stencil.Report
