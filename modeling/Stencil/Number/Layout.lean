import Stencil.Number.Decimal
import Stencil.Number.Literal

/-!
The two texts of a number. Both use the shortest digits that read back: the compact text has an
exponent for very large and very small numbers, and the plain text is the compact text with the
exponent written out.
-/

namespace Stencil

namespace Decimal

/-- The character of a decimal digit. -/
def digitChar (digit : Nat) : Char :=
  Char.ofNat ('0'.toNat + digit)

/-- The characters of a run of digits. -/
def digitChars (digits : List Nat) : List Char :=
  digits.map digitChar

/-- A run of zeros. -/
def zeros (count : Nat) : List Char :=
  List.replicate count '0'

/-- Digits with the point after a given number of them, which is left out where no digits follow.
Where there are no digits before or up to the point, there are zeros.
-/
def placed (digits : List Char) (point : Int) : List Char :=
  if point ≤ 0 then
    '0' :: '.' :: (zeros (-point).toNat ++ digits)
  else if digits.length ≤ point.toNat then
    digits ++ zeros (point.toNat - digits.length)
  else
    digits.take point.toNat ++ '.' :: digits.drop point.toNat

/-- The decimal written out in full. -/
def positional (d : Decimal) : List Char :=
  placed (digitChars d.digits) d.point

/-- The characters of a natural number. -/
def natChars (n : Nat) : List Char :=
  if n = 0 then ['0'] else digitChars (digitsOf n)

/-- Digits with the point after the first, unless it is the only one. -/
def mantissa : List Nat → List Char
  | [] => ['0']
  | [digit] => [digitChar digit]
  | digit :: rest => digitChar digit :: '.' :: digitChars rest

/-- The decimal with one digit before the point and a signed exponent. -/
def scientific (d : Decimal) : List Char :=
  let exponent := d.point - 1
  mantissa d.digits
    ++ 'e' :: (if exponent < 0 then '-' else '+') :: natChars exponent.natAbs

/-- Whether the compact text writes the decimal out in full: the point stands at most 21
places after, or at most 6 places before, the first digit.
-/
def isModest (d : Decimal) : Bool :=
  -6 < d.point && d.point ≤ 21

end Decimal

namespace Number

/-- The sign of a number that is not zero, followed by its digits. -/
def withSign (negative : Bool) (digits : List Char) : List Char :=
  if negative then '-' :: digits else digits

/-- The text of a sign and digits. -/
def signed (negative : Bool) (digits : List Char) : String :=
  String.ofList (withSign negative digits)

/-- The text of a number in messages and in JSON. Both zeros are `0`. -/
def text : Number → String
  | nan => "NaN"
  | infinity false => "Infinity"
  | infinity true => "-Infinity"
  | finite negative m =>
    if m.significand = 0 then "0"
    else
      let decimal := Decimal.shortest m
      signed negative (if decimal.isModest then decimal.positional else decimal.scientific)

/-- What stands before the point, or the whole text where there is none. -/
def beforePoint (text : List Char) : List Char :=
  text.takeWhile (· != '.')

/-- What stands after the point, if there is one. -/
def afterPoint (text : List Char) : List Char :=
  (text.dropWhile (· != '.')).drop 1

/-- A text with its exponent written out: the exponent moves the point. A text without an exponent
is kept.
-/
def withoutExponent (text : List Char) : List Char :=
  match text.dropWhile (· != 'e') with
  | [] => text
  | _ :: exponent =>
    match intOfDigits? exponent with
    | none => text
    | some exponent =>
      let negative := text.head? == some '-'
      let mantissa := (text.takeWhile (· != 'e')).drop (if negative then 1 else 0)
      let whole := beforePoint mantissa
      withSign negative (Decimal.placed (whole ++ afterPoint mantissa) (whole.length + exponent))

/-- The text of a number in documents: every digit is written out. -/
def plainText : Number → String
  | nan => "nan"
  | infinity false => "inf"
  | infinity true => "-inf"
  | finite negative m =>
    if negative && m.significand == 0 then "-0"
    else String.ofList (withoutExponent (text (finite negative m)).toList)

end Number

end Stencil
