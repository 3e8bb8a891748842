import Stencil.Plain

/-!
The tables of a TOML document while it is read. Each table remembers how it came to be, because
that decides which later headers and keys may still add to it.
-/

namespace Stencil.Data.Toml

/-- How a table came to be: through a dotted key, through a header of its own or of a table
below it, or through the header of an array of tables below it.
-/
inductive Origin where
  | dotted
  | header
  | arrayHeader
  deriving DecidableEq, Repr, Inhabited

/-- An entry of a table under construction. A table is `closed` once its own header has come.
An array of tables keeps its last table apart, which is the one that headers reach.
-/
inductive Entry where
  | value (data : Plain)
  | table (origin : Origin) (closed : Bool) (entries : List (String × Entry))
  | tables (earlier : List (List (String × Entry))) (last : List (String × Entry))
  deriving Inhabited

/-- The entries of a table under construction, in the order of their first keys. -/
abbrev Entries := List (String × Entry)

/-- Sets an entry: in place if the key is there, at the end otherwise. -/
def Entries.put (key : String) (entry : Entry) : Entries → Entries
  | [] => [(key, entry)]
  | (k, e) :: rest =>
    if k = key then (key, entry) :: rest else (k, e) :: Entries.put key entry rest

/-- What a step of a path may do where it meets an existing table. -/
inductive Walk where
  /-- A key with dots: it adds only to tables that dotted keys made. -/
  | key
  /-- The header of a table. -/
  | header
  /-- The header of an array of tables. -/
  | arrayHeader
  deriving DecidableEq, Repr

/-- The origin of a table that a walk makes on its way. -/
def Walk.origin : Walk → Origin
  | key => .dotted
  | header => .header
  | arrayHeader => .arrayHeader

/-- Changes the entries of the table at a path, making the missing tables on the way. Nothing
when a value, or a table that the walk may not add to, is in the way.
-/
def Entries.alter? (walk : Walk) (change : Entries → Option Entries)
    : List String → Entries → Option Entries
  | [], entries => change entries
  | key :: rest, entries =>
    match entries.lookup key with
    | none => do
      let inner ← Entries.alter? walk change rest []
      some (Entries.put key (.table walk.origin false inner) entries)
    | some (.value _) => none
    | some (.table origin closed inner) => do
      if walk = .key && origin = .header then none
      else
        let inner ← Entries.alter? walk change rest inner
        some (Entries.put key (.table origin closed inner) entries)
    | some (.tables earlier last) => do
      if walk = .key then none
      else
        let last ← Entries.alter? walk change rest last
        some (Entries.put key (.tables earlier last) entries)

/-- Sets a value under a key that is not there yet. -/
def Entries.define? (key : String) (data : Plain) (entries : Entries) : Option Entries :=
  if (entries.lookup key).isSome then none else some (Entries.put key (.value data) entries)

/-- Opens the table of a header. -/
def Entries.openTable? (key : String) (entries : Entries) : Option Entries :=
  match entries.lookup key with
  | none => some (Entries.put key (.table .header true []) entries)
  | some (.table origin false inner) =>
    if origin = .dotted then none
    else some (Entries.put key (.table origin true inner) entries)
  | some _ => none

/-- Opens a new table of an array of tables. -/
def Entries.openItem? (key : String) (entries : Entries) : Option Entries :=
  match entries.lookup key with
  | none => some (Entries.put key (.tables [] []) entries)
  | some (.tables earlier last) =>
    some (Entries.put key (.tables (last :: earlier) []) entries)
  | some _ => none

/-- The last part of a path and the parts before it. -/
def splitLast? (path : List String) : Option (List String × String) :=
  path.getLast?.map fun last => (path.dropLast, last)

/-- Sets a value at a dotted key. -/
def Entries.setValue? (path : List String) (data : Plain) (entries : Entries)
    : Option Entries := do
  let (outer, last) ← splitLast? path
  Entries.alter? .key (Entries.define? last data) outer entries

/-- Opens what a header names. -/
def Entries.openHeader? (isArray : Bool) (path : List String) (entries : Entries)
    : Option Entries := do
  let (outer, last) ← splitLast? path
  if isArray then Entries.alter? .arrayHeader (Entries.openItem? last) outer entries
  else Entries.alter? .header (Entries.openTable? last) outer entries

mutual

/-- The plain data of an entry. -/
def Entry.toPlain : Entry → Plain
  | .value data => data
  | .table _ _ entries => .ofPairs (entriesToPairs entries)
  | .tables earlier last =>
    .list ((tablesToPlain earlier).reverse ++ [.ofPairs (entriesToPairs last)])

/-- The plain data of entries, under their keys. -/
def entriesToPairs : List (String × Entry) → List (String × Plain)
  | [] => []
  | (key, entry) :: rest => (key, entry.toPlain) :: entriesToPairs rest

/-- The plain data of several tables. -/
def tablesToPlain : List (List (String × Entry)) → List Plain
  | [] => []
  | entries :: rest => .ofPairs (entriesToPairs entries) :: tablesToPlain rest

end

end Stencil.Data.Toml
