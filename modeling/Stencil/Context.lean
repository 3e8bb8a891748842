import Stencil.Data.Error
import Stencil.Template.Render

/-!
Contexts: what templates are rendered against. A context is a root table.
-/

namespace Stencil

/-- A root table. -/
structure Context where
  root : Table
  deriving Repr, Inhabited

namespace Context

/-- The context without entries. -/
def empty : Context := ⟨[]⟩

/-- The context with a table as its root. -/
def ofValue : Value → Except Data.Error Context
  | .table entries => .ok ⟨entries⟩
  | value => .error (.badRoot value.kind)

/-- The context of plain data. -/
def ofPlain (data : Plain) : Except Data.Error Context :=
  match Value.ofPlain "" data with
  | .ok value => ofValue value
  | .error datum => .error (.unsupported datum)

/-- The value a dotted path leads to outside all loops. A text that is no path leads to none. -/
def get (context : Context) (path : String) : Except Template.Error Value :=
  match Path.parse? path with
  | some path => (Template.Scope.ofRoot context.root).resolve path none
  | none => .error (.unknownKey path none)

/-- Whether a dotted path leads to a value outside all loops. -/
def has (context : Context) (path : String) : Bool :=
  (context.get path).isOk

end Context

end Stencil
