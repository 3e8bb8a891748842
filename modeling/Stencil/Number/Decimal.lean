import Stencil.Number

/-!
Decimals: a run of digits and the place of the decimal point. The shortest decimal of a number
is the one with the fewest digits that reads back as the number.
-/

namespace Stencil

/-- The decimal `0.d₁d₂…dₖ · 10 ^ point`. -/
structure Decimal where
  digits : List Nat
  point : Int
  deriving DecidableEq, Repr

namespace Decimal

/-- The decimal digits of a natural number, the highest first; none for zero. -/
def digitsOf (n : Nat) : List Nat :=
  go n []
where
  /-- The digits of `n` before those already found. -/
  go (n : Nat) (found : List Nat) : List Nat :=
    if n = 0 then found else go (n / 10) (n % 10 :: found)
  termination_by n
  decreasing_by omega

/-- The natural number that digits spell. -/
def valueOf (digits : List Nat) : Nat :=
  digits.foldl (fun value digit => 10 * value + digit) 0

/-- Digits still to be found stand for what is left of the number, by the search's own
recursion.
-/
theorem valueOf_go (n : Nat) (found : List Nat)
    : valueOf (digitsOf.go n found)
      = found.foldl (fun value digit => 10 * value + digit) n := by
  fun_induction digitsOf.go n found with
  | case1 found => rfl
  | case2 n found nonzero ih =>
    rw [ih, List.foldl_cons]
    congr 1
    omega

/-- The digits of a number spell it. -/
theorem valueOf_digitsOf (n : Nat)
    : valueOf (digitsOf n) = n :=
  valueOf_go n []

/-- A natural number without its trailing decimal zeros, and their count. -/
def stripZeros (n : Nat) : Nat × Nat :=
  go n 0
where
  /-- Strips the zeros of `n` after `stripped` ones. -/
  go (n stripped : Nat) : Nat × Nat :=
    if n = 0 then (0, stripped)
    else if n % 10 = 0 then go (n / 10) (stripped + 1)
    else (n, stripped)
  termination_by n
  decreasing_by omega

/-- The decimal `n · 10 ^ exponent` without superfluous zeros. -/
def ofNat (n : Nat) (exponent : Int) : Decimal :=
  let (n, stripped) := stripZeros n
  let digits := digitsOf n
  ⟨digits, digits.length + exponent + stripped⟩

/-- The two neighbours of `num / den` among the multiples of `10 ^ exponent`, the nearer
one first; on a tie the even one comes first.
-/
def neighbours (num den : Nat) (exponent : Int) : List Nat :=
  let (num, den) :=
    if exponent ≥ 0 then (num, den * Nat.pow 10 exponent.toNat)
    else (num * Nat.pow 10 (-exponent).toNat, den)
  let below := num / den
  let twice := 2 * (num % den)
  if twice < den then [below, below + 1]
  else if den < twice then [below + 1, below]
  else if below % 2 = 0 then [below, below + 1]
  else [below + 1, below]

/-- The place of the point of `num / den`, the exponent of ten just above it. -/
def pointOf (num den : Nat) : Int :=
  let whole := num / den
  if whole = 0 then
    -- The quotient is below one: count the places before its first digit.
    1 - ((digitsOf ((den + num - 1) / num - 1)).length : Int)
  else (digitsOf whole).length

/-- The decimal with the fewest digits, `count` at most counted down from `last`, that reads
back as the magnitude.
-/
def search (m : Magnitude) (num den : Nat) (point : Int) (last : Nat) : Nat → Option Decimal
  | 0 => none
  | count + 1 =>
    let exponent := point - ((last - count : Nat) : Int)
    let reads (n : Nat) : Bool := Number.ofDecimal false n exponent == .finite false m
    match (neighbours num den exponent).find? reads with
    | some n => some (ofNat n exponent)
    | none => search m num den point last count

/-- The shortest decimal of a magnitude other than zero; of several with as few digits the
nearest one. Seventeen digits always suffice; the exact value stands behind them.
-/
def shortest (m : Magnitude) : Decimal :=
  let num := m.scaled
  let den := Nat.pow 2 1074
  match search m num den (pointOf num den) 17 17 with
  | some decimal => decimal
  | none => ofNat (num * Nat.pow 5 1074) (-1074)

end Decimal

end Stencil
