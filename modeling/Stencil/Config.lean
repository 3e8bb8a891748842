import Stencil.Config.Issue
import Stencil.Number.Literal
import Stencil.Path
import Stencil.Plain.Text

/-!
Configurations: the step budget, how templates are told by their names and where their outputs
go, and the targets. Members that are left out have defaults; unknown members are ignored.
-/

namespace Stencil

namespace Config

/-- One generation target: a directory of templates with its data. All paths are relative to
the project, and `statics` are patterns relative to the source directory. The output directory
may be unnamed, named without a value, or named.
-/
structure Target where
  name : String
  source : String
  data : List String
  statics : List String
  output : Option (Option String)
  deriving DecidableEq, Repr, Inhabited

/-- How outputs are named, unless a target says where its own go. -/
structure Naming where
  suffix : String
  outputDir : String
  deriving DecidableEq, Repr, Inhabited

end Config

/-- A configuration. -/
structure Config where
  maxSteps : Nat
  naming : Config.Naming
  targets : List Config.Target
  deriving DecidableEq, Repr, Inhabited

namespace Config

/-- The members of a datum that counts as an object: anything but a list or a scalar. -/
def membersOf? : Plain → Option (List (String × Plain))
  | .record members => some members
  | .map _ => some []
  | .time _ => some []
  | .bytes _ => some []
  | .foreign kind => if kind.kind = "object" then some [] else none
  | _ => none

/-- Checks the members of an object. -/
def checkObject {α : Type} (check : Plain → Checked α) (data : Plain) : Checked α :=
  match membersOf? data with
  | some members => check (.record members)
  | none => .refused (.wrongType .object (typeOf data))

/-- Checks the member of an object under a key. -/
def checkMember {α : Type} (key : String) (check : Plain → Checked α) (data : Plain)
    : Checked α :=
  (check (data.member key)).under key

/-- Checks a datum that may be left out. -/
def orDefault {α : Type} (value : α) (check : Plain → Checked α) : Plain → Checked α
  | .absent => pure value
  | data => check data

/-- The number that data stand for as a length. -/
def lengthOf (data : Plain) : Number :=
  match data with
  | .number x => x
  | .integer n => .ofInt n
  | .boolean b => .ofNat b.toNat
  | .null => .ofNat 0
  | .time millis? => (millis?.map Number.ofInt).getD .nan
  | data => (data.asText.toOption.map fun text => Number.ofText text.toList).getD .nan

/-- Whether data say of themselves that they have a length, but none of one or more. -/
def lengthFaults : Plain → List Fault
  | .list [] => [.emptyList]
  | .bytes [] => [.noLength]
  | .foreign (.function _) => [.noLength]
  | .record members =>
    match members.lookup "length" with
    | none => []
    | some .absent => []
    | some length => if (lengthOf length).isAtLeastOne then [] else [.noLength]
  | _ => []

/-- A text with one or more characters. -/
def checkText : Plain → Checked String
  | .text s => .flawed s (if s = "" then [.emptyText] else [])
  | data => .refusedFor (.wrongType .string (typeOf data) :: lengthFaults data)

/-- The texts of a list that holds nothing else. -/
def texts? : List Plain → Option (List String)
  | [] => some []
  | .text s :: items => (texts? items).map (s :: ·)
  | _ :: _ => none

/-- One text or a list of texts. -/
def checkTexts : Plain → Checked (List String)
  | .text s => pure [s]
  | .list items =>
    match texts? items with
    | some texts => pure texts
    | none => .refused .noTexts
  | _ => .refused .noTexts

/-- The faults of a whole number as a step budget. -/
def budgetFaults (n : Int) : List Fault :=
  (if n > Number.maxSafe then [.tooBig] else [])
    ++ (if n < -(Number.maxSafe : Int) then [.tooSmall] else [])
    ++ (if n > 0 then [] else [.notPositive])

/-- A step budget: a safe whole number above zero. -/
def checkBudget : Plain → Checked Nat
  | .number (.finite negative magnitude) =>
    match (Number.finite negative magnitude).toInt? with
    | some n => .flawed n.toNat (budgetFaults n)
    | none => .refused (.wrongType .int "number")
  | data => .refused (.wrongType .number (typeOf data))

/-- Whether a text is a dot with one or more ASCII letters, digits, underscores and hyphens. -/
def isSuffix (text : String) : Bool :=
  match text.toList with
  | '.' :: rest => !rest.isEmpty && rest.all fun c => Path.isNameChar c || c == '-'
  | _ => false

/-- A template suffix. -/
def checkSuffix : Plain → Checked String
  | .text s => .flawed s (if isSuffix s then [] else [.badSuffix])
  | data => .refused (.wrongType .string (typeOf data))

/-- The output directory of a target, if the target has such a member. -/
def checkOutput (target : Plain) : Checked (Option (Option String)) :=
  if target.hasMember "output" then
    checkMember "output" (orDefault (some none) fun data => (some ∘ some) <$> checkText data)
      target
  else pure none

/-- A target. -/
def checkTarget : Plain → Checked Target :=
  checkObject fun target =>
    Target.mk <$> checkMember "name" checkText target
      <*> checkMember "source" checkText target
      <*> checkMember "data" (orDefault [] checkTexts) target
      <*> checkMember "static" (orDefault [] checkTexts) target
      <*> checkOutput target

/-- The issues of targets whose names earlier targets have, each target with its index. -/
def repeatedNames (seen : List String) (index : Nat) : List Target → List Issue
  | [] => []
  | target :: targets =>
    let rest := repeatedNames (target.name :: seen) (index + 1) targets
    if seen.contains target.name then
      ⟨[toString index, "name"], .repeatedName target.name⟩ :: rest
    else rest

/-- Targets with different names. Names are compared only once all targets have values. -/
def checkTargets : Plain → Checked (List Target)
  | .list items =>
    let checked :=
      Checked.all (items.zipIdx.map fun item => (checkTarget item.1).under (toString item.2))
    match checked.value? with
    | some targets => ⟨some targets, checked.issues ++ repeatedNames [] 0 targets⟩
    | none => checked
  | data => .refused (.wrongType .array (typeOf data))

/-- The section that holds the step budget. -/
def checkRender : Plain → Checked Nat :=
  checkObject (checkMember "max_steps" (orDefault 10000000 checkBudget))

/-- The section on names and outputs. -/
def checkNaming : Plain → Checked Naming :=
  checkObject fun naming =>
    Naming.mk <$> checkMember "template_suffix" (orDefault ".tmp" checkSuffix) naming
      <*> checkMember "output_dir" (orDefault "_generated" checkText) naming

/-- A section, which may be left out or null. -/
def orEmpty {α : Type} (check : Plain → Checked α) : Plain → Checked α
  | .absent => check (.record [])
  | .null => check (.record [])
  | data => check data

/-- A configuration. -/
def check : Plain → Checked Config :=
  checkObject fun config =>
    Config.mk <$> checkMember "render" (orEmpty checkRender) config
      <*> checkMember "generate" (orEmpty checkNaming) config
      <*> checkMember "targets" (orDefault [] checkTargets) config

/-- The configuration that plain data describes. -/
def ofPlain (data : Plain) : Except (List Issue) Config :=
  (check data).result

/-- The configuration without any member. -/
def default : Config := ⟨10000000, ⟨".tmp", "_generated"⟩, []⟩

/-- The section on the step budget as plain data. -/
def renderToPlain (maxSteps : Nat) : Plain :=
  .record [("max_steps", .ofNat maxSteps)]

/-- The section on names and outputs as plain data. -/
def Naming.toPlain (naming : Naming) : Plain :=
  .record [("template_suffix", .text naming.suffix), ("output_dir", .text naming.outputDir)]

/-- A target as plain data. -/
def Target.toPlain (target : Target) : Plain :=
  let output :=
    target.output.map fun output? => ("output", (output?.map Plain.text).getD .absent)
  .record <|
    [("name", .text target.name), ("source", .text target.source),
      ("data", .list (target.data.map .text)), ("static", .list (target.statics.map .text))]
      ++ output.toList

/-- A configuration as plain data. -/
def toPlain (config : Config) : Plain :=
  .record
    [("render", renderToPlain config.maxSteps), ("generate", config.naming.toPlain),
      ("targets", .list (config.targets.map Target.toPlain))]

/-- The configuration without members has the defaults. -/
theorem ofPlain_empty
    : ofPlain (.record []) = .ok default := by
  rfl

end Config

end Stencil
