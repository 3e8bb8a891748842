import Stencil.Plain.Text
import Stencil.Value

/-!
Values from plain data and back. Only data with a null, an absent value, an invalid time, bytes or a
foreign datum other than an object of no class somewhere in it has no value, or with a key that has
no text, and the first of these is reported, a datum with its data path.
-/

namespace Stencil

/-- Why plain data have no value. -/
inductive Unsupported where
  /-- A datum has none: where it stands and what it is. -/
  | datum (path what : String)
  /-- A key of a map has no text. -/
  | key (cause : NoText)
  deriving DecidableEq, Repr, Inhabited

namespace Value

/-- The data path of a member below a data path. -/
def memberPath (parent key : String) : String :=
  if parent = "" then key else parent ++ "." ++ key

/-- The data path of a list item below a data path. -/
def itemPath (parent : String) (index : Nat) : String :=
  parent ++ "[" ++ toString index ++ "]"

/-- The scalar of a number: an integer where the number is a safe one. -/
def ofNumber (x : Number) : Scalar :=
  match x.toSafeInt? with
  | some n => .integer n
  | none => .float x

/-- The value of a foreign datum that stands at a data path. Only an object of no class has one. -/
def ofForeign (path : String) : Foreign → Except Unsupported Value
  | .bare => .ok (.table [])
  | kind => .error (.datum path kind.kind)

mutual

/-- The value of plain data that stands at a data path. -/
def ofPlain (path : String) : Plain → Except Unsupported Value
  | .text s => .ok (.scalar (.string s))
  | .boolean b => .ok (.scalar (.boolean b))
  | .integer n => .ok (.scalar (.integer n))
  | .number x => .ok (.scalar (ofNumber x))
  | .time (some millis) => .ok (.scalar (.date (Date.ofTime millis)))
  | .time none => .error (.datum path "invalid date")
  | .null => .error (.datum path "null")
  | .absent => .error (.datum path "undefined")
  | .bytes _ => .error (.datum path "object")
  | .foreign kind => ofForeign path kind
  | .list items => (ofItems path 0 items).map .list
  | .record members => (ofMembers path members).map fun pairs => .table (Table.ofPairs pairs)
  | .map entries => (ofEntries path entries).map fun pairs => .table (Table.ofPairs pairs)

/-- The values of list items, the first of which has the given index. -/
def ofItems (path : String) (index : Nat) : List Plain → Except Unsupported (List Value)
  | [] => .ok []
  | item :: items => do
    let value ← ofPlain (itemPath path index) item
    let values ← ofItems path (index + 1) items
    .ok (value :: values)

/-- The values of record members, under their keys. -/
def ofMembers (path : String)
    : List (String × Plain) → Except Unsupported (List (String × Value))
  | [] => .ok []
  | (key, item) :: members => do
    let value ← ofPlain (memberPath path key) item
    let pairs ← ofMembers path members
    .ok ((key, value) :: pairs)

/-- The values of map entries, under the texts of their keys. -/
def ofEntries (path : String)
    : List (Plain × Plain) → Except Unsupported (List (String × Value))
  | [] => .ok []
  | (key, item) :: entries => do
    let name ← key.asText.mapError .key
    let value ← ofPlain (memberPath path name) item
    let pairs ← ofEntries path entries
    .ok ((name, value) :: pairs)

end

/-- The plain datum of a scalar. Integers beyond the safe ones keep all digits and dates
become texts.
-/
def scalarToPlain : Scalar → Plain
  | .string s => .text s
  | .boolean b => .boolean b
  | .float x => .number x
  | .integer n => if n.natAbs ≤ Number.maxSafe then .number (Number.ofInt n) else .integer n
  | .date d => .text d.text

mutual

/-- The plain data of a value. -/
def toPlain : Value → Plain
  | .scalar s => scalarToPlain s
  | .list items => .list (toPlainItems items)
  | .table entries => .ofPairs (toPlainEntries entries)

/-- The plain data of list items. -/
def toPlainItems : List Value → List Plain
  | [] => []
  | item :: items => toPlain item :: toPlainItems items

/-- The plain data of table entries, under their keys. -/
def toPlainEntries : List (String × Value) → List (String × Plain)
  | [] => []
  | (key, item) :: entries => (key, toPlain item) :: toPlainEntries entries

end

end Value

end Stencil
