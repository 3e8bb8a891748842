/-!
Binary64 numbers, as exact values: a magnitude is a significand times a power of two. No
arithmetic is done on them: they are read from decimals, tested and printed.
-/

namespace Stencil

/-- A finite magnitude, `significand · 2 ^ (scale - 1074)`. The bounds make the
representation of each value unique.
-/
structure Magnitude where
  significand : Nat
  scale : Nat
  significand_lt : significand < Nat.pow 2 53
  scale_le : scale ≤ 2045
  normal : Nat.pow 2 52 ≤ significand ∨ scale = 0
  deriving DecidableEq, Repr

namespace Magnitude

/-- The magnitude zero. -/
def zero : Magnitude := ⟨0, 0, by decide, by decide, .inr rfl⟩

instance : Inhabited Magnitude := ⟨zero⟩

/-- The magnitude with these parts, if they are within the bounds. -/
def ofParts? (significand scale : Nat) : Option Magnitude :=
  if h : significand < Nat.pow 2 53 ∧ scale ≤ 2045
      ∧ (Nat.pow 2 52 ≤ significand ∨ scale = 0) then
    some ⟨significand, scale, h.1, h.2.1, h.2.2⟩
  else none

/-- The natural number nearest to a quotient; a tie goes to the even neighbour. -/
def roundDiv (num den : Nat) : Nat :=
  let quotient := num / den
  let twice := 2 * (num % den)
  if twice < den then quotient
  else if den < twice then quotient + 1
  else quotient + quotient % 2

/-- The magnitude nearest to `num / den`, or nothing when it exceeds every magnitude. -/
def ofRatio? (num den : Nat) : Option Magnitude :=
  let scaled := num * Nat.pow 2 1074
  let scale := (scaled / den).log2 - 52
  let significand := roundDiv scaled (den * Nat.pow 2 scale)
  if significand = Nat.pow 2 53 then ofParts? (Nat.pow 2 52) (scale + 1)
  else ofParts? significand scale

/-- The magnitude in units of the least one. -/
def scaled (m : Magnitude) : Nat :=
  m.significand * Nat.pow 2 m.scale

/-- The whole number a magnitude is, if it is one. -/
def toNat? (m : Magnitude) : Option Nat :=
  if m.scaled % Nat.pow 2 1074 = 0 then some (m.scaled / Nat.pow 2 1074) else none

end Magnitude

/-- A binary64 number. Zero has a sign. -/
inductive Number where
  | nan
  | infinity (negative : Bool)
  | finite (negative : Bool) (magnitude : Magnitude)
  deriving DecidableEq, Repr

namespace Number

instance : Inhabited Number := ⟨.finite false .zero⟩

/-- The number nearest to `num / den` with a given sign. -/
def ofRatio (negative : Bool) (num den : Nat) : Number :=
  match Magnitude.ofRatio? num den with
  | some magnitude => .finite negative magnitude
  | none => .infinity negative

/-- The number nearest to a natural number. -/
def ofNat (n : Nat) : Number :=
  ofRatio false n 1

/-- The number nearest to an integer. -/
def ofInt (n : Int) : Number :=
  ofRatio (n < 0) n.natAbs 1

/-- The number nearest to `digits · 10 ^ exponent`. Exponents far outside the range of
binary64 are cut off before the power is computed.
-/
def ofDecimal (negative : Bool) (digits : Nat) (exponent : Int) : Number :=
  if digits = 0 then .finite negative .zero
  else if exponent ≥ 0 then
    if exponent > 400 then .infinity negative
    else ofRatio negative (digits * Nat.pow 10 exponent.toNat) 1
  else if exponent < -400 - (digits.log2 : Int) then .finite negative .zero
  else ofRatio negative digits (Nat.pow 10 (-exponent).toNat)

/-- The integer a number is, if it is one. Both zeros are the integer zero. -/
def toInt? : Number → Option Int
  | finite negative magnitude =>
    magnitude.toNat?.map fun n => if negative then -(n : Int) else n
  | _ => none

/-- The largest integer up to which every integer is a number of its own. -/
def maxSafe : Nat := Nat.pow 2 53 - 1

/-- The integer a number is, if it is one and no other integer is rounded to it. -/
def toSafeInt? (x : Number) : Option Int :=
  x.toInt?.filter fun n => n.natAbs ≤ maxSafe

/-- Whether a number is below zero. Negative zero and NaN are not. -/
def isNegative : Number → Bool
  | nan => false
  | infinity negative => negative
  | finite negative magnitude => negative && magnitude.significand != 0

/-- Whether a number is one of the two zeros. -/
def isZero : Number → Bool
  | finite _ magnitude => magnitude.significand == 0
  | _ => false

/-- Whether a number is one or more. -/
def isAtLeastOne : Number → Bool
  | nan => false
  | infinity negative => !negative
  | finite negative magnitude => !negative && decide (Nat.pow 2 1074 ≤ magnitude.scaled)

end Number

end Stencil
