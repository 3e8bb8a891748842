import Stencil.Proofs.Command.Rendering

/-! The verdicts on checked files. A report for people marks the files that did not pass with a cross
and a report for programs gives them a status; both count them once more. All of these agree
exactly if every finding has an outline or a problem, as the findings of the check command have.
-/

namespace Stencil.Report

-----------------------------------------------------------------------------------------
-- Marks
-----------------------------------------------------------------------------------------

/-- A finding that says what was found: an outline, a problem or both. -/
def Finding.IsComplete (finding : Finding) : Prop :=
  finding.outline?.isSome ∨ finding.problem?.isSome

instance (finding : Finding) : Decidable finding.IsComplete :=
  inferInstanceAs (Decidable (_ ∨ _))

namespace Human

/-- Whether a line starts with a cross. -/
def startsCrossed (options : Options) (line : String) : Bool :=
  (paint options.isStyled .red "✗").toList.isPrefixOf line.toList

/-- Whether a report for people marks a checked file with a cross. -/
def isCrossed (options : Options) (report : CheckReport) : Bool :=
  (checkLines options report).head?.any (startsCrossed options)

theorem startsCrossed_problemLine (options : Options) (file : String) (found : Problem)
    : startsCrossed options (problemLine options file found) = true := by
  rw [startsCrossed, List.isPrefixOf_iff_prefix, problemLine, String.toList_append,
    String.toList_append, List.append_assoc]
  exact List.prefix_append _ _

/-- A tick is as long as a cross and differs from it, with and without a style. -/
theorem cross_not_prefix_tick
    : ∀ isStyled : Bool,
        (paint isStyled .red "✗").toList.length ≤ (paint isStyled .green "✓").toList.length
        ∧ ¬ (paint isStyled .red "✗").toList <+: (paint isStyled .green "✓").toList := by
  decide

theorem startsCrossed_ticked (options : Options) (rest : String)
    : startsCrossed options (paint options.isStyled .green "✓" ++ rest) = false := by
  rw [startsCrossed, Bool.eq_false_iff, ne_eq, List.isPrefixOf_iff_prefix, String.toList_append]
  intro crossed
  obtain ⟨length, differs⟩ := cross_not_prefix_tick options.isStyled
  exact differs (List.prefix_of_prefix_length_le crossed (List.prefix_append _ _) length)

/-- A cross marks a problem and the lack of any finding. -/
theorem isCrossed_eq (options : Options) (report : CheckReport)
    : isCrossed options report
      = (report.finding.problem?.isSome || report.finding.outline?.isNone) := by
  obtain ⟨file, outline?, problem?⟩ := report
  cases problem? with
  | some found => exact startsCrossed_problemLine options file found
  | none =>
      cases outline? with
      | none => exact startsCrossed_problemLine options file .unknown
      | some outline =>
          have line := startsCrossed_ticked options
          simp only [isCrossed, checkLines, outlineLines, List.head?_cons, Option.any_some,
            String.append_assoc, line, Option.isSome_none, Option.isNone_some, Bool.or_self]

end Human

namespace Machine

/-- Whether a report for programs gives a checked file the status of a failure. -/
def isFailed (report : CheckReport) : Bool :=
  match (checkData report).members.lookup "status" with
  | some (.text status) => status == "fail"
  | _ => false

/-- Only a problem is a failure. -/
theorem isFailed_eq (report : CheckReport)
    : isFailed report = report.finding.problem?.isSome := by
  obtain ⟨file, outline?, problem?⟩ := report
  cases problem? with
  | some found => rfl
  | none => rfl

end Machine

/-- The marks on a file agree exactly if its finding is complete. -/
theorem isCrossed_eq_isFailed_iff (options : Human.Options) (report : CheckReport)
    : Human.isCrossed options report = Machine.isFailed report ↔ report.finding.IsComplete := by
  rw [Human.isCrossed_eq, Machine.isFailed_eq, Finding.IsComplete]
  cases report.finding.problem? <;> cases report.finding.outline? <;> simp

theorem isCrossed_eq_isProblem {options : Human.Options} {report : CheckReport}
    (complete : report.finding.IsComplete)
    : Human.isCrossed options report = report.finding.isProblem := by
  rw [(isCrossed_eq_isFailed_iff options report).mpr complete, Machine.isFailed_eq]
  rfl

/-- The totals that a report for people ends with, of more than one file, if some of them are marked.
-/
def Human.totalLines (options : Human.Options) (isMarked : CheckReport → Bool)
    (reports : List CheckReport) : List String :=
  if 1 < reports.length then
    ["", totals options (reports.countP (!isMarked ·)) "passed" (reports.countP isMarked)]
  else []

/-- The two reports on checked files tell the same story: they mark the same files, and the totals
in both are the numbers of files that they do not mark and that they mark.
-/
structure TellSame (options : Human.Options) (reports : List CheckReport) : Prop where
  marks : ∀ report ∈ reports, Human.isCrossed options report = Machine.isFailed report
  human : Human.check options reports
    = Human.lines
        (reports.flatMap (Human.checkLines options)
          ++ Human.totalLines options (Human.isCrossed options) reports)
  machine : Machine.check reports
    = Json.write .indented
        (.record
          [("passed", .ofNat (reports.countP (!Machine.isFailed ·))),
            ("failed", .ofNat (reports.countP Machine.isFailed)),
            ("files", .list (reports.map Machine.checkData))])

-----------------------------------------------------------------------------------------
-- The same story
-----------------------------------------------------------------------------------------

/-- The files that a report for programs gives the status of a failure are those it counts. -/
theorem Machine.check_eq_marked (reports : List CheckReport)
    : check reports
      = Json.write .indented
          (.record
            [("passed", .ofNat (reports.countP (!isFailed ·))),
              ("failed", .ofNat (reports.countP isFailed)),
              ("files", .list (reports.map checkData))]) := by
  have counted : isFailed = (·.finding.isProblem) := funext isFailed_eq
  rw [counted]
  rfl

/-- The files that a report for people counts are those with a problem. -/
theorem Human.check_eq_counted (options : Options) (reports : List CheckReport)
    : check options reports
      = lines (reports.flatMap (checkLines options)
          ++ totalLines options (·.finding.isProblem) reports) := by
  have passed : reports.length - failedCount reports
      = reports.countP (!·.finding.isProblem) := by
    have both := List.length_eq_countP_add_countP (·.finding.isProblem) (l := reports)
    simp only [Bool.not_eq_true, Bool.decide_eq_false] at both
    rw [both, failedCount, Nat.add_sub_cancel_left]
  rw [check, passed]
  rfl

theorem Human.totalLines_congr {options : Options} {isMarked isMarked' : CheckReport → Bool}
    {reports : List CheckReport}
    (same : ∀ report ∈ reports, isMarked report = isMarked' report)
    : totalLines options isMarked reports = totalLines options isMarked' reports := by
  have marked : reports.countP isMarked = reports.countP isMarked' :=
    List.countP_congr fun report member => by rw [same report member]
  have unmarked : reports.countP (!isMarked ·) = reports.countP (!isMarked' ·) :=
    List.countP_congr fun report member => by rw [same report member]
  rw [totalLines, totalLines, marked, unmarked]

/-- The two reports tell the same story exactly of complete findings. A file with neither an outline
nor a problem is marked with a cross, and yet it counts as passed and has the status of a success.
-/
theorem tellSame_iff (options : Human.Options) (reports : List CheckReport)
    : TellSame options reports ↔ ∀ report ∈ reports, report.finding.IsComplete := by
  constructor
  · intro same report member
    exact (isCrossed_eq_isFailed_iff options report).mp (same.marks report member)
  · intro complete
    refine ⟨?_, ?_, Machine.check_eq_marked reports⟩
    · intro report member
      exact (isCrossed_eq_isFailed_iff options report).mpr (complete report member)
    · have counted : Human.totalLines options (Human.isCrossed options) reports
          = Human.totalLines options (·.finding.isProblem) reports :=
        Human.totalLines_congr fun report member => isCrossed_eq_isProblem (complete report member)
      rw [Human.check_eq_counted, counted]

/-- A report on a template without tags and on one with a problem. -/
def sampleReports : List CheckReport :=
  [⟨"blank", .outline ⟨[], [], 0, 0⟩⟩, ⟨"broken", .problem (.plain "Broken")⟩]

/-- Both reports tell the same of the sample, and no longer with a file of which nothing is known. -/
theorem tellSame_iff_sample
    : TellSame ⟨true, false⟩ sampleReports
      ∧ ¬ TellSame ⟨true, false⟩ (⟨"unknown", .nothing⟩ :: sampleReports) := by
  refine ⟨(tellSame_iff _ _).mpr (by decide), ?_⟩
  intro same
  have complete := (tellSame_iff _ _).mp same ⟨"unknown", .nothing⟩ List.mem_cons_self
  exact absurd complete (by decide)

end Stencil.Report

namespace Stencil.Command

open Stencil.Files
open Stencil.Report

-----------------------------------------------------------------------------------------
-- Calls of the check command
-----------------------------------------------------------------------------------------

/-- What is found on a file is complete, whatever reading it comes to. -/
theorem findingOf_isComplete (read : Except Fault String) : (findingOf read).IsComplete := by
  cases read with
  | error fault => exact .inr rfl
  | ok text =>
      rw [findingOf]
      cases Template.Compiled.ofText text none with
      | error cause => exact .inr rfl
      | ok template => exact .inl rfl

/-- The reports on template files in a workspace. -/
def checked (before : Workspace) (templates : List String) : List CheckReport :=
  templates.map fun file => ⟨file, findingOf (Files.outcome (readText file) before).1⟩

theorem isComplete_of_mem_checked {before : Workspace} {templates : List String}
    {report : CheckReport} (member : report ∈ checked before templates)
    : report.finding.IsComplete := by
  obtain ⟨file, _, rfl⟩ := List.mem_map.mp member
  exact findingOf_isComplete _

/-- The check of a file that leaves the log alone. -/
def checkLogged (file : String) : Log.Logged (StateM Workspace) CheckReport :=
  StateT.lift (checkFile file)

/-- Checking files only reads them, one after the other. -/
theorem run_mapM_checkLogged (templates : List String) (log : List Log.Entry) (before : Workspace)
    : Id.run (((templates.mapM checkLogged).run log).run before)
      = ((checked before templates, log), before) := by
  induction templates with
  | nil => rfl
  | cons file rest ih =>
      have first : ((checkLogged file).run log).run before
          = ((⟨file, findingOf (Files.outcome (readText file) before).1⟩, log), before) :=
        Prod.ext (Prod.ext rfl rfl) (Generate.readsOnly_readText file before)
      have others : ((rest.mapM checkLogged).run log).run before
          = ((checked before rest, log), before) := ih
      rw [List.mapM_cons, StateT.run_bind, StateT.run_bind, first]
      change Id.run (StateT.run (StateT.run (rest.mapM checkLogged >>= _) log) before) = _
      rw [StateT.run_bind, StateT.run_bind, others]
      rfl

/-- What a call of the check command leaves behind: the workspace as it was, a report, and success
exactly if the report marks no file with a cross.
-/
theorem called_check {isStyled : Bool} {words : List String} {level : Log.Level}
    {templates : List String} {options : CheckOptions}
    (parsed : parse words = .ok ⟨level, .check templates options⟩) (before : Workspace)
    : let shown : Human.Options := ⟨isStyled, options.isVerbose⟩
      let reports := checked before templates
      called isStyled words before
      = ({ exitCode := if reports.any (Human.isCrossed shown) then 1 else 0
           stdout :=
            (if options.asJson then Machine.check reports else Human.check shown reports) ++ "\n"
           stderr := "" },
          before) := by
  intro shown reports
  have ran : ((templates.mapM checkLogged).run []).run before = ((reports, []), before) :=
    run_mapM_checkLogged templates [] before
  have crossed : reports.any (Human.isCrossed shown) = reports.any (·.finding.isProblem) := by
    rw [Bool.eq_iff_iff, List.any_eq_true, List.any_eq_true]
    refine exists_congr fun report => and_congr_right fun member => ?_
    rw [isCrossed_eq_isProblem (isComplete_of_mem_checked member)]
  have answered
      : called isStyled words before
        = ((Answer.report (!reports.any (·.finding.isProblem))
              (if options.asJson then Machine.check reports else Human.check shown reports)).outcome
              level isStyled [],
            before) := by
    unfold called run
    rw [parsed]
    change Id.run (StateT.run (StateT.run (templates.mapM checkLogged >>= _) [] >>= _) before) = _
    rw [StateT.run_bind, StateT.run_bind, StateT.run_bind, ran]
    rfl
  rw [answered, crossed]
  cases reports.any (·.finding.isProblem) with
  | true => rfl
  | false => rfl

end Stencil.Command
