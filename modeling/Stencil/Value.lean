import Stencil.Calendar
import Stencil.Number.Layout
import Stencil.Path
import Stencil.Template.Error

/-!
Values: the tree of data that templates are rendered against.
-/

namespace Stencil

/-- A value with a canonical text. -/
inductive Scalar where
  | string (s : String)
  | integer (n : Int)
  | float (x : Number)
  | boolean (b : Bool)
  | date (d : Date)
  deriving DecidableEq, Repr, Inhabited

/-- A scalar, a list or a table. A table keeps its entries in the order in which their keys
first came, and has one entry per key.
-/
inductive Value where
  | scalar (s : Scalar)
  | list (items : List Value)
  | table (entries : List (String × Value))
  deriving Inhabited, Repr

/-- The entries of a table. -/
abbrev Table := List (String × Value)

namespace Scalar

/-- The text a scalar puts into a document. -/
def text : Scalar → String
  | string s => s
  | integer n => toString n
  | float x => x.plainText
  | boolean b => if b then "true" else "false"
  | date d => d.text

/-- The kind of a scalar. -/
def kind : Scalar → Template.Kind
  | string _ => .string
  | integer _ => .integer
  | float _ => .float
  | boolean _ => .boolean
  | date _ => .date

end Scalar

namespace Table

/-- Sets the entry of a key: in place if the key is there, at the end otherwise. -/
def put (key : String) (value : Value) : Table → Table
  | [] => [(key, value)]
  | (k, v) :: rest =>
    if k = key then (key, value) :: rest else (k, v) :: put key value rest

theorem lookup_entry (key name : String) (value : Value) (rest : Table)
    : List.lookup name ((key, value) :: rest)
      = if name = key then some value else rest.lookup name := by
  rw [List.lookup_cons]
  by_cases same : name = key
  · simp [same]
  · rw [if_neg same, beq_eq_false_iff_ne.2 same]

/-- After a key has been set its entry is the new one, and all others are as before. -/
theorem lookup_put (table : Table) (key name : String) (value : Value)
    : (table.put key value).lookup name
      = if name = key then some value else table.lookup name := by
  induction table with
  | nil => rw [put, lookup_entry]
  | cons entry rest ih =>
      obtain ⟨first, present⟩ := entry
      rw [put]
      split
      · rename_i here
        rw [lookup_entry, lookup_entry, here]
        split <;> rfl
      · rename_i other
        rw [lookup_entry, lookup_entry, ih]
        by_cases same : name = key
        · have differ : name ≠ first := fun here => other (here.symm.trans same)
          rw [if_neg differ, if_pos same, if_pos same]
        · rw [if_neg same, if_neg same]

/-- The table that setting pairs one after the other gives. -/
def ofPairs (pairs : List (String × Value)) : Table :=
  pairs.foldl (fun table pair => table.put pair.1 pair.2) []

end Table

namespace Value

/-- The kind of a value. -/
def kind : Value → Template.Kind
  | scalar s => s.kind
  | list _ => .list
  | table _ => .table

/-- The entry of a table under a key; nothing for any other value. -/
def member? (value : Value) (key : String) : Option Value :=
  match value with
  | table entries => entries.lookup key
  | _ => none

end Value

end Stencil
