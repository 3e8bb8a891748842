import Stencil.Failure
import Stencil.Proofs.Template.BlockRuns
import Stencil.Proofs.Template.CheckedAssembly
import Stencil.Proofs.Value.CheckedConversion

/-! Rendering a template text against plain data, with a look at everything that the rendering
takes for granted: the numbers of integers and dates, the texts of keys, the tokens of open loops,
the running loops and the step budget. Nothing of it fails, whatever the text and the data: what is
reported is a fault of the template or of the data.
-/

namespace Stencil

namespace Plain

/-- Data as they can be handed in: what stands for a time is a time value, and the keys of maps are
primitive. Numbers, texts and all else may be anything.
-/
structure IsRegular (data : Plain) : Prop where
  times : Value.HasTimeValues data
  keys
    : ∀ entries key item,
        Occurs (.map entries) data → (key, item) ∈ entries → key.IsPrimitive

end Plain

namespace Template

open Outcome

-----------------------------------------------------------------------------------------
-- The tokens of open loops
-----------------------------------------------------------------------------------------

/-- The tokens, once no loop is open. The position of the outermost open loop is that of the token
at its index.
-/
def Assembly.finishChecked (assembly : Assembly) : Except AssemblyFault (Array Token) :=
  match assembly.openLoops.getLast? with
  | none => .ok assembly.tokens
  | some outermost =>
    match assembly.tokens[outermost.index]? with
    | some token => .error (.text (.unclosedLoop outermost.path.format token.position))
    | none => .error (.noLoopStart outermost.index)

/-- The tokens of a template text, where the open loops are looked up among the tokens. -/
def tokenizeByIndex (text : String) : Except AssemblyFault (Array Token) := do
  let assembly ← (Piece.scan text.toList).foldlM Assembly.addChecked .empty
  assembly.finishChecked

namespace Nest

/-- The token at the index of an open loop is its loop start, by induction on the levels from the
outermost on.
-/
theorem getElem?_openLoop {levels : List Level} {loop : OpenLoop} (isOpen : loop ∈ openLoops levels)
    : ∃ path binding body,
        (openTokens levels)[loop.index]? = some (.loopStart path binding body loop.position) := by
  induction levels with
  | nil => cases isOpen
  | cons level outer ih =>
      rcases List.mem_cons.1 isOpen with rfl | isOuter
      · exact ⟨_, _, _, List.getElem?_concat_length ..⟩
      · obtain ⟨path, binding, body, start⟩ := ih isOuter
        obtain ⟨inside, _⟩ := List.getElem?_eq_some_iff.1 start
        refine ⟨path, binding, body, ?_⟩
        rw [openTokens, Blocks.writtenAfter, List.append_assoc, List.getElem?_append_left inside,
          start]

/-- An assembly of a nest is finished with a look at the outermost open loop as it is without. -/
theorem finishChecked_assembly (nest : Nest)
    : nest.assembly.finishChecked = nest.assembly.finish.mapError .text := by
  unfold Assembly.finishChecked Assembly.finish
  cases last : nest.assembly.openLoops.getLast? with
  | none => rfl
  | some outermost =>
      obtain ⟨path, binding, body, start⟩ := getElem?_openLoop (List.mem_of_getLast? last)
      obtain ⟨inside, _⟩ := List.getElem?_eq_some_iff.1 start
      have found : nest.assembly.tokens[outermost.index]?
          = some (.loopStart path binding body outermost.position) := by
        rw [assembly, List.getElem?_toArray, Blocks.writtenAfter,
          List.getElem?_append_left inside, start]
      simp only [found]
      rfl

end Nest

/-- A text is tokenized with a look at all open loops as it is without. -/
theorem tokenizeByIndex_eq (text : String)
    : tokenizeByIndex text = (tokenize text).mapError .text := by
  have same := Nest.foldlM_addChecked .empty (Piece.scan text.toList).toList
  have nests := Nest.foldlM_assembly .empty (Piece.scan text.toList).toList
  rw [Nest.assembly_empty] at same nests
  simp only [tokenizeByIndex, tokenize, ← Array.foldlM_toList, same, nests]
  cases (Piece.scan text.toList).toList.foldlM Nest.add .empty with
  | error cause => rfl
  | ok nest => exact nest.finishChecked_assembly

/-- The diagnostic of a template error is one of the template family. -/
theorem Error.family_diagnostic (cause : Error) : cause.diagnostic.family = .template := by
  cases cause <;> rfl

-----------------------------------------------------------------------------------------
-- Renderings of data
-----------------------------------------------------------------------------------------

/-- The text of a template against plain data, within a step budget. The data are converted before
the template is tokenized.
-/
def renderData (text : String) (data : Plain) (budget : Number) : Except Failure String := do
  let context ← (Context.ofPlain data).mapError .data
  let template ← (Compiled.ofText text (some budget)).mapError .template
  (template.render context none).mapError .render

theorem renderData_eq {text : String} {data : Plain} {context : Context} {tokens : Array Token}
    {budget : Number} (converted : Context.ofPlain data = .ok context)
    (tokenized : tokenize text = .ok tokens)
    : renderData text data budget
      = (renderWithin tokens context (some budget)).mapError .render := by
  rw [renderData, converted, Compiled.ofText, tokenized]
  rfl

/-- What the rendering takes for granted, and does not find. -/
inductive InternalFault where
  /-- A number taken for an integer is none, or numbers taken for a date name no day. -/
  | invalid (cause : Invalid)
  /-- A key has no text. -/
  | noText (cause : NoText)
  /-- The token at the index of an open loop is no loop start. -/
  | noLoopStart (index : Nat)
  /-- No loop runs at a loop end. -/
  | strayLoopEnd (index : Nat)
  /-- The step budget is no natural number. -/
  | badBudget (cause : InvalidBudget)
  deriving DecidableEq, Repr

/-- Why a template is not rendered against data, with a look at what is taken for granted. -/
inductive RenderingFault where
  /-- The template or the data are at fault. -/
  | reported (failure : Failure)
  /-- The program is at fault. -/
  | internal (fault : InternalFault)
  deriving Repr

namespace RenderingFault

/-- A fault of the conversion. -/
def ofConversion : Value.ConversionFault → RenderingFault
  | .unsupported (.key cause) => internal (.noText cause)
  | .unsupported cause => reported (.data (.unsupported cause))
  | .invalid cause => internal (.invalid cause)

/-- A fault of the assembly. -/
def ofAssembly : AssemblyFault → RenderingFault
  | .text cause => reported (.template cause)
  | .noLoopStart index => internal (.noLoopStart index)

/-- A fault of the run. -/
def ofRun : RenderFault → RenderingFault
  | .badBudget cause => internal (.badBudget cause)
  | .stopped (.strayLoopEnd index) => internal (.strayLoopEnd index)
  | .stopped (.error cause) => reported (.render (.stopped (.error cause)))

end RenderingFault

/-- The text of a template against plain data, within a step budget, with a look at everything that
is taken for granted.
-/
def renderDataChecked (text : String) (data : Plain) (budget : Number)
    : Except RenderingFault String := do
  let value ← (Value.ofPlainChecked "" data).mapError .ofConversion
  let context ← (Context.ofValue value).mapError fun cause => .reported (.data cause)
  let tokens ← (tokenizeByIndex text).mapError .ofAssembly
  (renderWithin tokens context (some budget)).mapError .ofRun

/-- Regular data are converted with the look at the numbers as they are without, and what keeps them
from being converted is reported.
-/
theorem mapError_ofConversion {data : Plain} (regular : data.IsRegular)
    : (Value.ofPlainChecked "" data).mapError .ofConversion
      = (Value.ofPlain "" data).mapError fun cause =>
          RenderingFault.reported (.data (.unsupported cause)) := by
  rw [Value.ofPlainChecked_eq "" regular.times]
  cases converted : Value.ofPlain "" data with
  | ok value => rfl
  | error cause =>
      cases cause with
      | datum path what => rfl
      | key cause =>
          -- The conversion blames a key, but primitive keys all have a text.
          obtain ⟨entries, key, item, occurs, member, noText⟩ := Value.blames_of_ofPlain converted
          obtain ⟨text, spelled⟩ := (regular.keys entries key item occurs member).exists_asText
          cases noText.symm.trans spelled

/-- A natural number of steps is a budget. -/
theorem renderWithin_eq (tokens : Array Token) (context : Context) {budget : Number} {steps : Nat}
    (whole : budget.toInt? = some (steps : Int))
    : renderWithin tokens context (some budget)
      = (renderTokens tokens context.root steps).mapError .stopped := by
  have accepted : budgetOf budget = .ok steps := by
    unfold budgetOf
    rw [whole]
  simp only [renderWithin, Option.elim_some, accepted]
  cases renderTokens tokens context.root steps <;> rfl

/-- Within a natural number of steps, the tokens of a text are rendered to a text, or the template or
its data are at fault.
-/
theorem mapError_ofRun {text : String} {tokens : Array Token} {budget : Number} {steps : Nat}
    (tokenized : tokenize text = .ok tokens) (whole : budget.toInt? = some (steps : Int))
    (context : Context)
    : (renderWithin tokens context (some budget)).mapError .ofRun
      = ((renderWithin tokens context (some budget)).mapError Failure.render).mapError
          RenderingFault.reported := by
  rw [renderWithin_eq tokens context whole]
  cases rendered : renderTokens tokens context.root steps with
  | ok text => rfl
  | error stop =>
      obtain ⟨cause, rfl⟩ := exists_cause_of_renderTokens tokenized rendered
      rfl

/-- A rendering of data with a look at everything taken for granted reports what it reports without.
-/
theorem renderDataChecked_eq (text : String) {data : Plain} {budget : Number} {steps : Nat}
    (regular : data.IsRegular) (whole : budget.toInt? = some (steps : Int))
    : renderDataChecked text data budget = (renderData text data budget).mapError .reported := by
  rw [renderDataChecked, renderData, mapError_ofConversion regular, Context.ofPlain,
    tokenizeByIndex_eq, Compiled.ofText]
  cases Value.ofPlain "" data with
  | error cause => rfl
  | ok value =>
      simp only [mapError_ok, bind, Except.bind]
      cases Context.ofValue value with
      | error cause => rfl
      | ok context =>
          cases tokenized : tokenize text with
          | error cause => rfl
          | ok tokens => exact mapError_ofRun tokenized whole context

/-- A failure that is told as a template error or as a configuration error. -/
def IsReported (failure : Failure) : Prop :=
  ∃ diagnostic,
    failure.diagnostic? = some diagnostic
    ∧ (diagnostic.family = .template ∨ diagnostic.family = .config)

theorem isReported_ofConversion {cause : Value.ConversionFault} {failure : Failure}
    (h : RenderingFault.ofConversion cause = .reported failure)
    : IsReported failure := by
  rcases cause with (⟨path, what⟩ | noText) | invalid <;> cases h
  exact ⟨_, rfl, .inr rfl⟩

theorem isReported_ofValue {value : Value} {cause : Data.Error}
    (h : Context.ofValue value = .error cause)
    : IsReported (.data cause) := by
  cases value <;> cases h <;> exact ⟨_, rfl, .inl rfl⟩

theorem isReported_ofAssembly {cause : AssemblyFault} {failure : Failure}
    (h : RenderingFault.ofAssembly cause = .reported failure)
    : IsReported failure := by
  rcases cause with cause | index <;> cases h
  exact ⟨_, rfl, .inl cause.family_diagnostic⟩

theorem isReported_ofRun {fault : RenderFault} {failure : Failure}
    (h : RenderingFault.ofRun fault = .reported failure)
    : IsReported failure := by
  rcases fault with invalid | (cause | index) <;> cases h
  exact ⟨_, rfl, .inl cause.family_diagnostic⟩

/-- Whatever is reported is told as a template error or as a configuration error. By the stages of
the rendering.
-/
theorem isReported_of_renderDataChecked {text : String} {data : Plain} {budget : Number}
    {failure : Failure} (failed : renderDataChecked text data budget = .error (.reported failure))
    : IsReported failure := by
  unfold renderDataChecked at failed
  rcases bind_eq_error_iff.1 failed with conversion | ⟨value, _, failed⟩
  · obtain ⟨cause, _, told⟩ := mapError_eq_error_iff.1 conversion
    exact isReported_ofConversion told
  rcases bind_eq_error_iff.1 failed with root | ⟨context, _, failed⟩
  · obtain ⟨cause, notATable, told⟩ := mapError_eq_error_iff.1 root
    cases told
    exact isReported_ofValue notATable
  rcases bind_eq_error_iff.1 failed with assembly | ⟨tokens, _, run⟩
  · obtain ⟨cause, _, told⟩ := mapError_eq_error_iff.1 assembly
    exact isReported_ofAssembly told
  · obtain ⟨fault, _, told⟩ := mapError_eq_error_iff.1 run
    exact isReported_ofRun told

/-- Rendering any template text against regular data within a natural number of steps meets nothing
unexpected: with a look at everything that is taken for granted it has the same outcome as without,
a text or a failure that is told as a template error or as a configuration error.
-/
theorem renderDataChecked_reports (text : String) (data : Plain) (budget : Number) (steps : Nat)
    (regular : data.IsRegular) (whole : budget.toInt? = some (steps : Int))
    : renderDataChecked text data budget = (renderData text data budget).mapError .reported
      ∧ ((∃ rendered, renderDataChecked text data budget = .ok rendered)
        ∨ ∃ failure,
            renderDataChecked text data budget = .error (.reported failure)
            ∧ IsReported failure) := by
  have same := renderDataChecked_eq text regular whole
  refine ⟨same, ?_⟩
  cases outcome : renderData text data budget with
  | ok rendered =>
      rw [outcome] at same
      exact .inl ⟨rendered, same⟩
  | error failure =>
      rw [outcome] at same
      exact .inr ⟨failure, same, isReported_of_renderDataChecked same⟩

/-- A time before 1970 and a map with a key that is no text are rendered, and a time that is none is
reported.
-/
theorem renderDataChecked_reports_times
    : let text := "\x7b\x7bm.true\x7d\x7d \x7b\x7bt\x7d\x7d"
      let data (millis? : Option Int) : Plain :=
        .record [("t", .time millis?), ("m", .map [(.boolean true, .number .nan)])]
      let budget := Number.ofInt 100
      (data (some (-1))).IsRegular
        ∧ (data none).IsRegular
        ∧ budget.toInt? = some ((100 : Nat) : Int)
        ∧ renderDataChecked text (data (some (-1))) budget = .ok "nan 1969-12-31"
        ∧ ∃ failure,
            renderDataChecked text (data none) budget = .error (.reported failure)
            ∧ IsReported failure := by
  intro text data budget
  have regular (millis? : Option Int) (near : ∀ millis, millis? = some millis → millis = -1)
      : (data millis?).IsRegular := by
    refine ⟨fun millis occurs => ?_, fun entries key item occurs => ?_⟩
    · cases occurs with
      | member member inside =>
          simp only [List.mem_cons, Prod.mk.injEq, List.not_mem_nil, or_false] at member
          rcases member with ⟨_, rfl⟩ | ⟨_, rfl⟩
          · cases inside
            rw [near millis rfl]
            decide
          · cases inside with
            | entry member inside =>
                cases List.mem_singleton.1 member
                cases inside
    · cases occurs with
      | member member inside =>
          simp only [List.mem_cons, Prod.mk.injEq, List.not_mem_nil, or_false] at member
          rcases member with ⟨_, rfl⟩ | ⟨_, rfl⟩
          · cases inside
          · cases inside with
            | here =>
                intro member
                cases List.mem_singleton.1 member
                trivial
            | entry member inside =>
                cases List.mem_singleton.1 member
                cases inside
  have whole : budget.toInt? = some ((100 : Nat) : Int) := Number.toInt?_ofInt (by decide)
  -- The number of the budget is not computed again.
  clear_value budget
  let context : Context :=
    ⟨[("t", .scalar (.date ⟨1969, 12, 31⟩)), ("m", .table [("true", .scalar (.float .nan))])]⟩
  let tokens : Array Token :=
    #[.placeholder ["m", "true"] ⟨0, 1, 1⟩, .literal " " ⟨10, 1, 11⟩, .placeholder ["t"] ⟨11, 1, 12⟩]
  have converted : Context.ofPlain (data (some (-1))) = .ok context := rfl
  have tokenized : tokenize text = .ok tokens := by cbv
  have rendered : renderTokens tokens context.root 100 = .ok "nan 1969-12-31" := rfl
  have unconverted : ∃ cause, Context.ofPlain (data none) = .error cause := ⟨_, rfl⟩
  have here := renderDataChecked_reports text (data (some (-1))) budget 100
    (regular _ (by simp)) whole
  have missing := renderDataChecked_reports text (data none) budget 100 (regular _ (by simp)) whole
  refine ⟨regular _ (by simp), regular _ (by simp), whole, ?_, ?_⟩
  · rw [here.1, renderData_eq converted tokenized, renderWithin_eq tokens context whole, rendered]
    rfl
  · rcases missing.2 with ⟨_, impossible⟩ | reported
    · obtain ⟨cause, unconverted⟩ := unconverted
      rw [missing.1, renderData, unconverted] at impossible
      cases impossible
    · exact reported

end Template

end Stencil
