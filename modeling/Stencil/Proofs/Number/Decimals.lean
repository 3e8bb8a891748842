import Stencil.Proofs.Number.DecimalTexts

/-! Decimals and their texts. A decimal made of a natural number and a power of ten is their product,
and so is what its text denotes, written out in full or with an exponent.
-/

namespace Stencil.Decimal

open Number (IsDigits Denotes IsLead Positional Exponential)

variable {n : Nat} {digits found : List Nat} {d : Decimal}

-----------------------------------------------------------------------------------------
-- Digits of decimals
-----------------------------------------------------------------------------------------

/-- Decimal digits, the first of which is not zero. -/
structure AreProper (digits : List Nat) : Prop where
  nonempty : digits ≠ []
  small : ∀ digit ∈ digits, digit < 10
  lead : digits.head? ≠ some 0

/-- The digits that are found last come first, and the last of them is not zero. By the recursion of
the search.
-/
theorem areProper_go (n : Nat) (found : List Nat) (small : ∀ digit ∈ found, digit < 10)
    (lead : n = 0 → AreProper found)
    : AreProper (digitsOf.go n found) := by
  fun_induction digitsOf.go n found with
  | case1 found => exact lead rfl
  | case2 n found nonzero ih =>
      have more : ∀ digit ∈ n % 10 :: found, digit < 10 := by
        rw [List.forall_mem_cons]
        exact ⟨Nat.mod_lt n (by omega), small⟩
      refine ih more ?_
      intro last
      refine ⟨by simp, more, ?_⟩
      intro zero
      have := Option.some.inj zero
      omega

theorem areProper_digitsOf (nonzero : n ≠ 0) : AreProper (digitsOf n) :=
  areProper_go n [] (by simp) fun zero => absurd zero nonzero

/-- Zeros that are stripped from a number are counted. By the recursion of the search. -/
theorem stripZeros_go (n stripped : Nat) (nonzero : n ≠ 0)
    : (stripZeros.go n stripped).1 ≠ 0
      ∧ (stripZeros.go n stripped).1 * 10 ^ (stripZeros.go n stripped).2 = n * 10 ^ stripped := by
  fun_induction stripZeros.go n stripped with
  | case1 => exact absurd rfl nonzero
  | case2 n stripped _ divides ih =>
      have more : n / 10 ≠ 0 := by omega
      obtain ⟨left, same⟩ := ih more
      refine ⟨left, ?_⟩
      rw [same, Nat.pow_succ, Nat.mul_comm (10 ^ stripped), ← Nat.mul_assoc,
        Nat.div_mul_cancel (Nat.dvd_of_mod_eq_zero divides)]
  | case3 n stripped => exact ⟨nonzero, rfl⟩

/-- The number that a decimal is. -/
def value (d : Decimal) : ℚ :=
  valueOf d.digits * 10 ^ (d.point - d.digits.length)

theorem areProper_ofNat (nonzero : n ≠ 0) (exponent : Int) : AreProper (ofNat n exponent).digits :=
  areProper_digitsOf (stripZeros_go n 0 nonzero).1

theorem value_ofNat (nonzero : n ≠ 0) (exponent : Int)
    : (ofNat n exponent).value = n * 10 ^ exponent := by
  have same : (stripZeros n).1 * 10 ^ (stripZeros n).2 = n := by
    have counted := (stripZeros_go n 0 nonzero).2
    rwa [Nat.pow_zero, Nat.mul_one] at counted
  have places (length stripped : Int)
      : length + exponent + stripped - length = stripped + exponent := by
    omega
  rw [value]
  simp only [ofNat, valueOf_digitsOf, places]
  rw [zpow_add₀ (by norm_num), zpow_natCast, ← mul_assoc]
  congr 1
  exact_mod_cast same

-----------------------------------------------------------------------------------------
-- Texts of decimals
-----------------------------------------------------------------------------------------

theorem digitChar_spec
    : ∀ digit < 10, (digitChar digit).isDigit = true
        ∧ (digitChar digit).toNat - '0'.toNat = digit := by
  decide

theorem digitChar_ne_zero {digit : Nat} (small : digit < 10) (nonzero : digit ≠ 0)
    : digitChar digit ≠ '0' := by
  intro same
  have number := (digitChar_spec digit small).2
  rw [same, Nat.sub_self] at number
  exact nonzero number.symm

theorem digitChars_append (digits more : List Nat)
    : digitChars (digits ++ more) = digitChars digits ++ digitChars more :=
  List.map_append

theorem length_digitChars (digits : List Nat) : (digitChars digits).length = digits.length :=
  List.length_map _

theorem ofDigitChars_digitChars (small : ∀ digit ∈ digits, digit < 10) (init : Nat)
    : Nat.ofDigitChars 10 (digitChars digits) init
      = digits.foldl (fun value digit => 10 * value + digit) init := by
  induction digits generalizing init with
  | nil => rfl
  | cons digit digits ih =>
      rw [List.forall_mem_cons] at small
      rw [digitChars, List.map_cons, Nat.ofDigitChars_cons, (digitChar_spec digit small.1).2,
        List.foldl_cons, ← ih small.2]
      rfl

theorem isDigits_digitChars (nonempty : digits ≠ []) (small : ∀ digit ∈ digits, digit < 10)
    : IsDigits (digitChars digits) := by
  refine ⟨fun none => nonempty (List.map_eq_nil_iff.1 none), ?_⟩
  intro c member
  obtain ⟨digit, inDigits, rfl⟩ := List.mem_map.1 member
  exact (digitChar_spec digit (small digit inDigits)).1

/-- A decimal that is written out in full denotes its number. -/
theorem positional_spec (proper : AreProper d.digits) : Positional d.positional d.value := by
  have lead : (digitChars d.digits).head? ≠ some '0' := by
    intro zero
    rw [digitChars, List.head?_map, Option.map_eq_some_iff] at zero
    obtain ⟨digit, first, isZero⟩ := zero
    refine digitChar_ne_zero (proper.small digit (List.mem_of_head? first)) ?_ isZero
    intro none
    exact proper.lead (none ▸ first)
  have placed := Number.positional_placed (isDigits_digitChars proper.nonempty proper.small) lead
    d.point
  rw [ofDigitChars_digitChars proper.small, length_digitChars] at placed
  exact placed

/-- The first digit and the digits after it denote the number with the point after the first digit.
-/
theorem denotes_mantissa (proper : AreProper digits)
    : Denotes IsLead (mantissa digits) (valueOf digits / 10 ^ (digits.length - 1)) := by
  cases digits with
  | nil => exact absurd rfl proper.nonempty
  | cons digit rest =>
      have small := List.forall_mem_cons.1 proper.small
      have isLead : IsLead (digitChars [digit]) := by
        refine ⟨digitChar digit, digitChar_ne_zero small.1 ?_, rfl⟩
        intro zero
        exact proper.lead (congrArg some zero)
      have isDigits : IsDigits (digitChars [digit]) :=
        isDigits_digitChars (by simp) (List.forall_mem_singleton.2 small.1)
      have spelled : Nat.ofDigitChars 10 (digitChars (digit :: rest)) 0 = valueOf (digit :: rest) :=
        ofDigitChars_digitChars proper.small 0
      cases rest with
      | nil =>
          have denoted := Denotes.whole isDigits isLead
          rw [spelled] at denoted
          rwa [List.length_singleton, Nat.sub_self, pow_zero, div_one]
      | cons next rest =>
          have denoted := Denotes.pointed isDigits isLead
            (isDigits_digitChars (List.cons_ne_nil next rest) small.2)
          rw [Number.pointed_value, ← digitChars_append, List.singleton_append, spelled,
            length_digitChars] at denoted
          exact denoted

theorem natChars_spec (n : Nat)
    : IsDigits (natChars n) ∧ Nat.ofDigitChars 10 (natChars n) 0 = n := by
  unfold natChars
  split
  · rename_i zero
    subst zero
    exact ⟨Number.isDigits_zero, rfl⟩
  · rename_i nonzero
    have proper := areProper_digitsOf nonzero
    refine ⟨isDigits_digitChars proper.nonempty proper.small, ?_⟩
    rw [ofDigitChars_digitChars proper.small]
    exact valueOf_digitsOf n

/-- A decimal that is written with an exponent denotes its number. -/
theorem scientific_spec (proper : AreProper d.digits) : Exponential d.scientific d.value := by
  have isMantissa := denotes_mantissa proper
  obtain ⟨isDigits, counted⟩ := natChars_spec (d.point - 1).natAbs
  have ten : (10 : ℚ) ≠ 0 := by norm_num
  have places : d.point - d.digits.length = (d.point - 1) - (d.digits.length - 1 : ℕ) := by
    have := List.length_pos_iff.2 proper.nonempty
    omega
  have value : d.value
      = valueOf d.digits / 10 ^ (d.digits.length - 1) * 10 ^ (d.point - 1) := by
    rw [Decimal.value, places, zpow_sub₀ ten, zpow_natCast, mul_div_assoc', div_mul_eq_mul_div]
  rw [value]
  unfold scientific
  simp only
  split
  · rename_i below
    have negative : d.point - 1 = -((d.point - 1).natAbs : ℤ) := by omega
    have denoted := Exponential.small isMantissa isDigits
    rw [counted, div_eq_mul_inv, ← zpow_natCast (n := (d.point - 1).natAbs), ← zpow_neg, ← negative]
      at denoted
    exact denoted
  · rename_i above
    have positive : d.point - 1 = ((d.point - 1).natAbs : ℤ) := by omega
    have denoted := Exponential.large isMantissa isDigits
    rw [counted, ← zpow_natCast (n := (d.point - 1).natAbs), ← positive] at denoted
    exact denoted

end Stencil.Decimal
