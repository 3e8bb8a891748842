import Stencil.Number.Decimal
import Stencil.Text

/-!
Reading numbers from digits. A decimal literal has an optional sign, digits with at most one
point among or beside them, and an optional exponent.
-/

namespace Stencil.Number

/-- The value of a digit in any base up to sixteen. -/
def digitValue? (c : Char) : Option Nat :=
  if c.isDigit then some (c.toNat - '0'.toNat)
  else if 'a' ≤ c && c ≤ 'f' then some (c.toNat - 'a'.toNat + 10)
  else if 'A' ≤ c && c ≤ 'F' then some (c.toNat - 'A'.toNat + 10)
  else none

/-- The number spelled by one or more digits of a base. -/
def natOfDigits? (base : Nat) : List Char → Option Nat
  | [] => none
  | digits => digits.foldlM (fun value c => do
      let digit ← digitValue? c
      if digit < base then some (base * value + digit) else none) 0

/-- Splits a sign off: whether it is a minus, and the rest. -/
def splitSign : List Char → Bool × List Char
  | '-' :: rest => (true, rest)
  | '+' :: rest => (false, rest)
  | text => (false, text)

/-- The integer spelled by an optional sign and decimal digits. -/
def intOfDigits? (text : List Char) : Option Int :=
  let (negative, digits) := splitSign text
  (natOfDigits? 10 digits).map fun n => if negative then -(n : Int) else n

/-- The exponent after its letter, or zero where there is none. -/
def exponentOf? : List Char → Option Int
  | [] => some 0
  | c :: rest => if c = 'e' || c = 'E' then intOfDigits? rest else none

/-- The number that a decimal literal spells. -/
def ofLiteral? (text : List Char) : Option Number := do
  let (negative, text) := splitSign text
  let whole := text.takeWhile Char.isDigit
  let text := text.drop whole.length
  let fraction :=
    match text with
    | '.' :: rest => rest.takeWhile Char.isDigit
    | _ => []
  let text :=
    match text with
    | '.' :: rest => rest.drop fraction.length
    | _ => text
  let digits ← natOfDigits? 10 (whole ++ fraction)
  let exponent ← exponentOf? text
  some (ofDecimal negative digits (exponent - fraction.length))

/-- The bases that a letter after a zero asks for. -/
def baseOf? (c : Char) : Option Nat :=
  if c == 'x' || c == 'X' then some 16
  else if c == 'o' || c == 'O' then some 8
  else if c == 'b' || c == 'B' then some 2
  else none

/-- The number that digits of another base than ten spell after a zero and a letter. -/
def ofBased? : List Char → Option Nat
  | '0' :: letter :: digits => (baseOf? letter).bind fun base => natOfDigits? base digits
  | _ => none

/-- The infinity that a text names. -/
def infinityOf? (text : List Char) : Option Number :=
  let (negative, name) := splitSign text
  if name == "Infinity".toList then some (.infinity negative) else none

/-- The number that a text stands for, blanks around it aside: a decimal literal, digits of
another base, or an infinity. No text is zero, and any other text is no number.
-/
def ofText (text : List Char) : Number :=
  match Text.trim text with
  | [] => .finite false .zero
  | text =>
    match (ofBased? text).map ofNat, infinityOf? text, ofLiteral? text with
    | some x, _, _ => x
    | _, some x, _ => x
    | _, _, some x => x
    | _, _, _ => .nan

/-- The integer that a text spells, blanks around it aside. No text is zero. -/
def intOfText? (text : List Char) : Option Int :=
  match Text.trim text with
  | [] => some 0
  | text => ((ofBased? text).map Int.ofNat).orElse fun _ => intOfDigits? text

end Stencil.Number
