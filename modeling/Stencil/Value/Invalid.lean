import Stencil.Value

/-!
Values made from loose numbers. Only a safe whole number is an integer, and only three whole
numbers that name a day of the calendar are a date.
-/

namespace Stencil

/-- Why numbers make no value, or a value cannot be changed. -/
inductive Invalid where
  /-- The number is not whole, or not told apart from its neighbours. -/
  | integer (given : Number)
  /-- The numbers name no day. -/
  | date (year month day : Number)
  /-- Tables are never changed in place. -/
  | tableChange
  deriving DecidableEq, Repr

/-- The complaint about an invalid value. -/
def Invalid.message : Invalid → String
  | integer given => "Not a safe integer: " ++ given.text
  | date year month day =>
    "Invalid calendar date: " ++ year.text ++ "-" ++ month.text ++ "-" ++ day.text
  | tableChange => "Table values are immutable"

/-- The integer scalar of a safe whole number. -/
def Scalar.ofWhole (x : Number) : Except Invalid Scalar :=
  match x.toSafeInt? with
  | some n => .ok (.integer n)
  | none => .error (.integer x)

/-- The date that three numbers name. -/
def Date.ofNumbers (year month day : Number) : Except Invalid Date :=
  match year.toInt?, month.toInt?, day.toInt? with
  | some y, some m, some d =>
    match Date.make? y m d with
    | some date => .ok date
    | none => .error (.date year month day)
  | _, _, _ => .error (.date year month day)

/-- The text that three numbers have as a date, whether they name a day or not. -/
def Date.textOf (year month day : Number) : String :=
  let years :=
    if year.isNegative then "-" ++ padded 4 (String.ofList (year.text.toList.drop 1))
    else padded 4 year.text
  years ++ "-" ++ padded 2 month.text ++ "-" ++ padded 2 day.text

end Stencil
