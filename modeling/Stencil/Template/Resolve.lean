import Stencil.Template.Error
import Stencil.Value

/-!
Looking up dotted paths. The first segment is looked for among the loop variables, then in the
root table; every further segment is an entry of the table reached so far.
-/

namespace Stencil.Template

/-- The values that loop variables have at a place of a template. -/
abbrev Bindings := String → Option Value

/-- No loop variables. -/
def noBindings : Bindings := fun _ => none

/-- What a path can be looked up in. -/
structure Scope where
  root : Table
  bindings : Bindings

namespace Scope

/-- The scope outside all loops. -/
def ofRoot (root : Table) : Scope := ⟨root, noBindings⟩

/-- The value of a name: of the loop variable if there is one, else of the root entry. -/
def find? (scope : Scope) (name : String) : Option Value :=
  match scope.bindings name with
  | some value => some value
  | none => scope.root.lookup name

/-- The value a path leads to. -/
def value? (scope : Scope) : Path → Option Value
  | [] => none
  | head :: rest => (scope.find? head).bind fun value => rest.foldlM Value.member? value

/-- The value a path leads to, or an unknown key. -/
def resolve (scope : Scope) (path : Path) (position? : Option Position)
    : Except Error Value :=
  match scope.value? path with
  | some value => .ok value
  | none => .error (.unknownKey path.format position?)

/-- The scalar a path leads to. -/
def resolveScalar (scope : Scope) (path : Path) (position? : Option Position)
    : Except Error Scalar := do
  match ← scope.resolve path position? with
  | .scalar s => .ok s
  | value => .error (.kindMismatch path.format .scalar value.kind position?)

/-- The items of the list a path leads to. -/
def resolveList (scope : Scope) (path : Path) (position? : Option Position)
    : Except Error (List Value) := do
  match ← scope.resolve path position? with
  | .list items => .ok items
  | value => .error (.kindMismatch path.format .list value.kind position?)

end Scope

end Stencil.Template
