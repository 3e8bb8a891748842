import Stencil.Plain

/-!
Issues of a configuration: what is wrong with a member, and where the member stands.
-/

namespace Stencil.Config

/-- The types that members are asked to have. -/
inductive Expected where
  | object
  | array
  | string
  | number
  | int
  deriving DecidableEq, Repr, Inhabited

/-- The name of an expected type. -/
def Expected.name : Expected → String
  | object => "object"
  | array => "array"
  | string => "string"
  | number => "number"
  | int => "int"

/-- What is wrong with a member. -/
inductive Fault where
  /-- The member is of another type. -/
  | wrongType (expected : Expected) (found : String)
  /-- The member is neither a text nor a list of texts. -/
  | noTexts
  /-- The text is empty. -/
  | emptyText
  /-- A list that should be a text is empty besides. -/
  | emptyList
  /-- An object that should be a text says that it has no length besides. -/
  | noLength
  /-- The text is no template suffix. -/
  | badSuffix
  /-- The number is not told apart from its neighbours above. -/
  | tooBig
  /-- The number is not told apart from its neighbours below. -/
  | tooSmall
  /-- The number is not above zero. -/
  | notPositive
  /-- An earlier target has the same name. -/
  | repeatedName (name : String)
  deriving DecidableEq, Repr, Inhabited

/-- The complaint about a member. -/
def Fault.message : Fault → String
  | wrongType expected found =>
    "Invalid input: expected " ++ expected.name ++ ", received " ++ found
  | noTexts => "Invalid input"
  | emptyText => "Too small: expected string to have >=1 characters"
  | emptyList => "Too small: expected array to have >=1 items"
  | noLength => "Too small: expected unknown to be >=1"
  | badSuffix => "must look like \".tmp\""
  | tooBig => "Too big: expected int to be <=" ++ toString Number.maxSafe
  | tooSmall => "Too small: expected int to be >=-" ++ toString Number.maxSafe
  | notPositive => "Too small: expected number to be >0"
  | repeatedName name => "duplicate target name '" ++ name ++ "'"

/-- A fault with the keys and indexes that lead to it. -/
structure Issue where
  path : List String
  fault : Fault
  deriving DecidableEq, Repr, Inhabited

/-- The text of an issue. -/
def Issue.message (issue : Issue) : String :=
  if issue.path.isEmpty then issue.fault.message
  else ".".intercalate issue.path ++ ": " ++ issue.fault.message

/-- The text of several issues. -/
def issuesText (issues : List Issue) : String :=
  "; ".intercalate (issues.map Issue.message)

/-- The type that is named for a datum of the wrong type. -/
def typeOf : Plain → String
  | .null => "null"
  | .absent => "undefined"
  | .boolean _ => "boolean"
  | .number .nan => "NaN"
  | .number (.infinity negative) => if negative then "-Infinity" else "Infinity"
  | .number _ => "number"
  | .integer _ => "bigint"
  | .text _ => "string"
  | .time _ => "Date"
  | .bytes _ => "Buffer"
  | .foreign .set => "Set"
  | .foreign (.object className) => className
  | .foreign kind => kind.kind
  | .list _ => "array"
  | .record _ => "object"
  | .map _ => "Map"

/-- What checking finds: the issues in order, and a value unless a member has no value at all.
A value may come with issues; it is then used only to look for more of them.
-/
structure Checked (α : Type) where
  value? : Option α
  issues : List Issue

namespace Checked

instance : Functor Checked where
  map f checked := ⟨checked.value?.map f, checked.issues⟩

instance : Applicative Checked where
  pure value := ⟨some value, []⟩
  seq checked next :=
    let after := next ()
    ⟨checked.value?.bind fun f => after.value?.map f, checked.issues ++ after.issues⟩

/-- No value, for some faults. -/
def refusedFor {α : Type} (faults : List Fault) : Checked α :=
  ⟨none, faults.map fun fault => ⟨[], fault⟩⟩

/-- No value, for a fault. -/
def refused {α : Type} (fault : Fault) : Checked α :=
  refusedFor [fault]

/-- A value, with the faults it has. -/
def flawed {α : Type} (value : α) (faults : List Fault) : Checked α :=
  ⟨some value, faults.map fun fault => ⟨[], fault⟩⟩

/-- What was found of a member, with the issues placed under its key. -/
def under {α : Type} (key : String) (checked : Checked α) : Checked α :=
  ⟨checked.value?, checked.issues.map fun issue => { issue with path := key :: issue.path }⟩

/-- What was found of the items of a list, in their order. -/
def all {α : Type} : List (Checked α) → Checked (List α)
  | [] => pure []
  | item :: items => (· :: ·) <$> item <*> all items

/-- The value, if there are no issues. -/
def result {α : Type} (checked : Checked α) : Except (List Issue) α :=
  match checked.issues, checked.value? with
  | [], some value => .ok value
  | issues, _ => .error issues

end Checked

end Stencil.Config
