import Stencil.Proofs.Calendar.ValidDates
import Stencil.Proofs.Number.SafeIntegers
import Stencil.Proofs.Value.Conversion
import Stencil.Value.Invalid

/-! Converting plain data with a look at the numbers. The conversion takes a safe whole number for
an integer and the fields of a time for a date; here both are made from their numbers, with the
faults of numbers that are no integer or no date. The faults never come.
-/

namespace Stencil

open Outcome

namespace Value

/-- What keeps data from being converted with the look at the numbers. -/
inductive ConversionFault where
  /-- The data have no value. -/
  | unsupported (cause : Unsupported)
  /-- A number taken for an integer is none, or numbers taken for a date name no day. -/
  | invalid (cause : Invalid)
  deriving DecidableEq, Repr

/-- The scalar of a number. Safe integers are made from the number. -/
def ofNumberChecked (x : Number) : Except Invalid Scalar :=
  if x.toSafeInt?.isSome then Scalar.ofWhole x else .ok (.float x)

/-- The scalar of a time. The date is made from the numbers of its year, month and day. -/
def ofTimeChecked (millis : Int) : Except Invalid Scalar :=
  let date := Date.ofTime millis
  (Date.ofNumbers (.ofInt date.year) (.ofInt date.month) (.ofInt date.day)).map .date

mutual

/-- The value of plain data that stands at a data path, with the look at the numbers. -/
def ofPlainChecked (path : String) : Plain → Except ConversionFault Value
  | .text s => .ok (.scalar (.string s))
  | .boolean b => .ok (.scalar (.boolean b))
  | .integer n => .ok (.scalar (.integer n))
  | .number x => ((ofNumberChecked x).mapError .invalid).map .scalar
  | .time (some millis) => ((ofTimeChecked millis).mapError .invalid).map .scalar
  | .time none => .error (.unsupported (.datum path "invalid date"))
  | .null => .error (.unsupported (.datum path "null"))
  | .absent => .error (.unsupported (.datum path "undefined"))
  | .bytes _ => .error (.unsupported (.datum path "object"))
  | .foreign kind => (ofForeign path kind).mapError .unsupported
  | .list items => (ofItemsChecked path 0 items).map .list
  | .record members => (ofMembersChecked path members).map fun pairs => .table (Table.ofPairs pairs)
  | .map entries => (ofEntriesChecked path entries).map fun pairs => .table (Table.ofPairs pairs)

/-- The values of list items, the first of which has the given index. -/
def ofItemsChecked (path : String) (index : Nat)
    : List Plain → Except ConversionFault (List Value)
  | [] => .ok []
  | item :: items => do
    let value ← ofPlainChecked (itemPath path index) item
    let values ← ofItemsChecked path (index + 1) items
    .ok (value :: values)

/-- The values of record members, under their keys. -/
def ofMembersChecked (path : String)
    : List (String × Plain) → Except ConversionFault (List (String × Value))
  | [] => .ok []
  | (key, item) :: members => do
    let value ← ofPlainChecked (memberPath path key) item
    let pairs ← ofMembersChecked path members
    .ok ((key, value) :: pairs)

/-- The values of map entries, under the texts of their keys. -/
def ofEntriesChecked (path : String)
    : List (Plain × Plain) → Except ConversionFault (List (String × Value))
  | [] => .ok []
  | (key, item) :: entries => do
    let name ← key.asText.mapError fun cause => .unsupported (.key cause)
    let value ← ofPlainChecked (memberPath path name) item
    let pairs ← ofEntriesChecked path entries
    .ok ((name, value) :: pairs)

end

-----------------------------------------------------------------------------------------
-- Numbers and times
-----------------------------------------------------------------------------------------

/-- The number taken for an integer is one. -/
theorem ofNumberChecked_eq (x : Number) : ofNumberChecked x = .ok (ofNumber x) := by
  unfold ofNumberChecked ofNumber Scalar.ofWhole
  cases x.toSafeInt? <;> rfl

/-- Three integers that are the fields of a valid date name it. -/
theorem ofNumbers_eq {year month day : Number} {date : Date} (isYear : year.toInt? = some date.year)
    (isMonth : month.toInt? = some date.month) (isDay : day.toInt? = some date.day)
    (valid : date.isValid = true)
    : Date.ofNumbers year month day = .ok date := by
  have named := Date.make?_eq_some_iff.2 ⟨rfl, Date.isValid_iff.1 valid⟩
  unfold Date.ofNumbers
  simp only [isYear, isMonth, isDay, named]

/-- The fields of a time name a day: the date of a time is valid, and its fields are safe integers.
-/
theorem ofTimeChecked_eq {millis : Int} (near : millis.natAbs ≤ Date.maxTime.natAbs)
    : ofTimeChecked millis = .ok (.date (Date.ofTime millis)) := by
  obtain ⟨_, monthFrom, monthTo, dayFrom, dayTo⟩ :=
    Date.ofDayNumber_spec (millis / Date.millisPerDay)
  rw [← Date.ofTime] at monthFrom monthTo dayFrom dayTo
  -- The year, the month and the day are far below the largest safe integer.
  have digits : Nat.pow 2 53 = 9007199254740992 := by decide
  have yearNear := Date.year_ofTime near
  have dayNear := Date.daysInMonth_le (Date.ofTime millis).year (Date.ofTime millis).month
  have isYear := Number.toInt?_ofInt (n := (Date.ofTime millis).year) (by omega)
  have isMonth := Number.toInt?_ofInt (n := (Date.ofTime millis).month) (by omega)
  have isDay := Number.toInt?_ofInt (n := (Date.ofTime millis).day) (by omega)
  have named := ofNumbers_eq isYear isMonth isDay (Date.isValid_ofTime near)
  rw [ofTimeChecked, named]
  rfl

-----------------------------------------------------------------------------------------
-- Data
-----------------------------------------------------------------------------------------

/-- All times that stand in data are time values. -/
def HasTimeValues (data : Plain) : Prop :=
  ∀ millis, Plain.Occurs (.time (some millis)) data → millis.natAbs ≤ Date.maxTime.natAbs

mutual

/-- Data are converted with the look at the numbers as they are without, by recursion over the data.
-/
theorem ofPlainChecked_eq (path : String) {data : Plain} (times : HasTimeValues data)
    : ofPlainChecked path data = (ofPlain path data).mapError .unsupported := by
  cases data with
  | text s | boolean b | integer n | null | absent | bytes octets | foreign kind => rfl
  | number x =>
      rw [ofPlainChecked, ofNumberChecked_eq]
      rfl
  | time millis? =>
      cases millis? with
      | none => rfl
      | some millis =>
          rw [ofPlainChecked, ofTimeChecked_eq (times millis .here)]
          rfl
  | list items =>
      have inside := ofItemsChecked_eq path 0 fun item member millis occurs =>
        times millis (.item member occurs)
      simp only [ofPlainChecked, ofPlain, inside, mapError_map]
  | record members =>
      have inside := ofMembersChecked_eq path fun entry member millis occurs =>
        times millis (.member member occurs)
      simp only [ofPlainChecked, ofPlain, inside, mapError_map]
  | map entries =>
      have inside := ofEntriesChecked_eq path fun entry member millis occurs =>
        times millis (.entry member occurs)
      simp only [ofPlainChecked, ofPlain, inside, mapError_map]

theorem ofItemsChecked_eq (path : String) (index : Nat) {items : List Plain}
    (times : ∀ item ∈ items, HasTimeValues item)
    : ofItemsChecked path index items = (ofItems path index items).mapError .unsupported := by
  cases items with
  | nil => rfl
  | cons item items =>
      rw [List.forall_mem_cons] at times
      simp only [ofItemsChecked, ofItems, mapError_bind, ofPlainChecked_eq _ times.1,
        ofItemsChecked_eq path (index + 1) times.2]
      rfl

theorem ofMembersChecked_eq (path : String) {members : List (String × Plain)}
    (times : ∀ entry ∈ members, HasTimeValues entry.2)
    : ofMembersChecked path members = (ofMembers path members).mapError .unsupported := by
  cases members with
  | nil => rfl
  | cons entry members =>
      obtain ⟨key, item⟩ := entry
      rw [List.forall_mem_cons] at times
      simp only [ofMembersChecked, ofMembers, mapError_bind, ofPlainChecked_eq _ times.1,
        ofMembersChecked_eq path times.2]
      rfl

theorem ofEntriesChecked_eq (path : String) {entries : List (Plain × Plain)}
    (times : ∀ entry ∈ entries, HasTimeValues entry.2)
    : ofEntriesChecked path entries = (ofEntries path entries).mapError .unsupported := by
  cases entries with
  | nil => rfl
  | cons entry entries =>
      obtain ⟨key, item⟩ := entry
      rw [List.forall_mem_cons] at times
      simp only [ofEntriesChecked, ofEntries, mapError_bind, ofPlainChecked_eq _ times.1,
        ofEntriesChecked_eq path times.2]
      cases key.asText <;> rfl

end

end Value

end Stencil
