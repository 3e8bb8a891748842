/-!
Lotteries: where the names of new directories come from. Which names are drawn is left open, but a
name that is drawn is free.
-/

namespace Stencil.Files

/-- An endless row of draws. Each one gives a text for the end of a name that is none of those that
are taken.
-/
class Lottery where
  draw : Nat → List String → String
  isFree (count : Nat) (taken : List String) : draw count taken ∉ taken
  noSlash (count : Nat) (taken : List String) : '/' ∉ (draw count taken).toList

namespace Lottery

/-- The draws after the first one. -/
@[reducible] def next (lottery : Lottery) : Lottery where
  draw count := lottery.draw (count + 1)
  isFree count := lottery.isFree (count + 1)
  noSlash count := lottery.noSlash (count + 1)

/-! The lottery that counts -/

/-- A number with zeros before it, six digits in all. -/
def sixDigits (number : Nat) : String :=
  let digits := Nat.toDigits 10 number
  String.ofList (List.replicate (6 - digits.length) '0' ++ digits)

/-- Zeros, more than there are characters in all the texts together. -/
def manyZeros (texts : List String) : String :=
  String.ofList (List.replicate ((texts.map String.toList).flatten.length + 1) '0')

/-- The first of `left` numbers from a number on that is not taken, or a text longer than those that
are.
-/
def firstFree (taken : List String) : Nat → Nat → String
  | 0, _ => manyZeros taken
  | left + 1, number =>
    if sixDigits number ∈ taken then firstFree taken left (number + 1) else sixDigits number

theorem manyZeros_not_mem (texts : List String) : manyZeros texts ∉ texts := by
  intro member
  have bound : (manyZeros texts).toList.length ≤ (texts.map String.toList).flatten.length :=
    (List.sublist_flatten_of_mem (List.mem_map_of_mem member)).length_le
  rw [manyZeros, String.toList_ofList, List.length_replicate] at bound
  omega

theorem firstFree_not_mem (taken : List String) (left number : Nat)
    : firstFree taken left number ∉ taken := by
  induction left generalizing number with
  | zero => exact manyZeros_not_mem taken
  | succ left ih =>
      rw [firstFree]
      split
      · exact ih (number + 1)
      · assumption

theorem slash_not_mem_firstFree (taken : List String) (left number : Nat)
    : '/' ∉ (firstFree taken left number).toList := by
  induction left generalizing number with
  | zero =>
      rw [firstFree, manyZeros, String.toList_ofList]
      exact fun member => absurd (List.eq_of_mem_replicate member) (by decide)
  | succ left ih =>
      rw [firstFree]
      split
      · exact ih (number + 1)
      · rw [sixDigits, String.toList_ofList]
        intro member
        rcases List.mem_append.1 member with zero | digit
        · exact absurd (List.eq_of_mem_replicate zero) (by decide)
        · exact absurd (Nat.isDigit_of_mem_toDigits (by decide) (by decide) digit) (by decide)

/-- The lottery that always gives the first number from a start on that is not taken. -/
@[reducible] def countingFrom (start : Nat) : Lottery where
  draw _ taken := firstFree taken 1000000 start
  isFree _ taken := firstFree_not_mem taken 1000000 start
  noSlash _ taken := slash_not_mem_firstFree taken 1000000 start

instance counting : Lottery := countingFrom 0

end Lottery

end Stencil.Files
