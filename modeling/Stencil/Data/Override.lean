import Stencil.Data.Error
import Stencil.Plain
import Stencil.Text

/-!
Merging data records, and overrides. A later record replaces whole top-level members of an earlier
one. An override is a `path=value` text that sets one string in a record, creating the tables on the
way where they are missing.
-/

namespace Stencil.Data

/-- The members of a record, as the pairs that are merged. -/
abbrev Record := List (String × Plain)

/-- Sets the members of a record one after the other. -/
def mergeInto (merged record : Record) : Record :=
  record.foldl (fun merged pair => Plain.put pair.1 pair.2 merged) merged

/-- One record from several, merged from left to right. -/
def merge (records : List Record) : Record :=
  records.foldl mergeInto []

/-- Merging the records of a list one by one is merging all their members in a row. -/
theorem merge_eq_membersOf (records : List Record)
    : merge records = Plain.membersOf records.flatten := by
  suffices h : ∀ merged, records.foldl mergeInto merged
      = records.flatten.foldl (fun merged pair => Plain.put pair.1 pair.2 merged) merged from
    h []
  induction records with
  | nil => exact fun _ => rfl
  | cons record records ih =>
    intro merged
    simp [mergeInto, ih, List.foldl_append]

/-- A text to be set at a path. -/
structure Override where
  path : Path
  value : String
  deriving DecidableEq, Repr, Inhabited

/-- The override that a text spells: a dotted path with optional blanks around it, an equals
sign, and the value verbatim.
-/
def Override.parse (text : String) : Except Error Override :=
  match Text.cutAt? ['='] text.toList with
  | none => .error (.badOverride text)
  | some (path, value) =>
    match Path.ofText? (Text.trim path) with
    | some path => .ok ⟨path, String.ofList value⟩
    | none => .error (.badOverride text)

/-- What an override finds under the first key of its path. -/
def tableUnder (record : Record) (key : String) : Option Record :=
  match record.lookup key with
  | none => some []
  | some .absent => some []
  | some (.record members) => some members
  | some _ => none

/-- The key that stands for a missing one. -/
def noKey : String := "undefined"

/-- Sets a text at a path. `whole` is the text of the whole override path. An empty path lacks
its key.
-/
def setAt (whole value : String) : Path → Record → Except Error Record
  | [], record => .ok (Plain.put noKey (.text value) record)
  | [key], record => .ok (Plain.put key (.text value) record)
  | key :: rest, record =>
    match tableUnder record key with
    | none => .error (.blockedOverride whole key)
    | some inner =>
      match setAt whole value rest inner with
      | .ok inner => .ok (Plain.put key (.record inner) record)
      | .error cause => .error cause

/-- The record with one override applied. -/
def Override.apply (override : Override) (record : Record) : Except Error Record :=
  setAt override.path.format override.value override.path record

/-- The record with overrides applied one after the other. -/
def applyOverrides (record : Record) (overrides : List Override) : Except Error Record :=
  overrides.foldlM (fun record override => override.apply record) record

end Stencil.Data
