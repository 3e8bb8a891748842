import Mathlib.Algebra.Order.Field.Rat
import Mathlib.Tactic.FieldSimp
import Mathlib.Tactic.Ring
import Stencil.Proofs.Number.SafeIntegers

/-! The magnitude nearest to a rational number. It is the same for all quotients with that value, and
each magnitude is the nearest to itself.
-/

namespace Stencil

namespace Magnitude

variable {num den num' den' factor : Nat} {m m' : Magnitude} {q : ℚ}

-----------------------------------------------------------------------------------------
-- Quotients with one value
-----------------------------------------------------------------------------------------

/-- A factor of both sides of a quotient does not change how it is rounded. -/
theorem roundDiv_mul_mul (num den : Nat) (positive : 0 < factor)
    : roundDiv (factor * num) (factor * den) = roundDiv num den := by
  have twice : 2 * (factor * (num % den)) = factor * (2 * (num % den)) := Nat.mul_left_comm ..
  simp only [roundDiv, Nat.mul_div_mul_left _ _ positive, Nat.mul_mod_mul_left, twice,
    Nat.mul_lt_mul_left positive]

theorem ofRatio?_mul_mul (num den : Nat) (positive : 0 < factor)
    : ofRatio? (factor * num) (factor * den) = ofRatio? num den := by
  simp only [ofRatio?, Nat.mul_assoc, Nat.mul_div_mul_left _ _ positive,
    roundDiv_mul_mul _ _ positive]

theorem ofRatio?_congr (positive : 0 < den) (positive' : 0 < den') (same : num * den' = num' * den)
    : ofRatio? num den = ofRatio? num' den' := by
  calc ofRatio? num den
      = ofRatio? (den' * num) (den' * den) := (ofRatio?_mul_mul num den positive').symm
    _ = ofRatio? (den * num') (den * den') := by
        rw [Nat.mul_comm den' num, same, Nat.mul_comm num' den, Nat.mul_comm den' den]
    _ = ofRatio? num' den' := ofRatio?_mul_mul num' den' positive

/-- The magnitude nearest to a number that is not negative. -/
def IsNearest (m : Magnitude) (q : ℚ) : Prop :=
  ∃ num den : Nat, 0 < den ∧ q = num / den ∧ ofRatio? num den = some m

/-- Only one magnitude is the nearest to a number. -/
theorem IsNearest.unique (h : IsNearest m q) (h' : IsNearest m' q) : m = m' := by
  obtain ⟨num, den, positive, value, nearest⟩ := h
  obtain ⟨num', den', positive', value', nearest'⟩ := h'
  have same : num * den' = num' * den := by
    rw [value, div_eq_div_iff (Nat.cast_ne_zero.2 (Nat.ne_of_gt positive))
      (Nat.cast_ne_zero.2 (Nat.ne_of_gt positive'))] at value'
    exact_mod_cast value'
  rw [ofRatio?_congr positive positive' same, nearest'] at nearest
  exact (Option.some.inj nearest).symm

-----------------------------------------------------------------------------------------
-- Magnitudes
-----------------------------------------------------------------------------------------

/-- The scale of a magnitude is told by the number of its binary digits. -/
theorem log2_scaled_sub (m : Magnitude) : m.scaled.log2 - 52 = m.scale := by
  by_cases zero : m.significand = 0
  · rcases m.normal with large | least
    · rw [zero] at large
      exact absurd large (Nat.not_le.2 (pow_two_pos 52))
    · rw [scaled, zero, Nat.zero_mul, least]
      rfl
  · rw [scaled, log2_mul_pow zero]
    have upper : m.significand.log2 < 53 := (Nat.log2_lt zero).2 m.significand_lt
    rcases m.normal with large | least
    · have lower : 52 ≤ m.significand.log2 := (Nat.le_log2 zero).2 large
      omega
    · omega

/-- A magnitude is the nearest to itself: it is a whole number of units of its scale. -/
theorem ofRatio?_scaled (m : Magnitude) : ofRatio? m.scaled (Nat.pow 2 1074) = some m := by
  have scale : (m.scaled * Nat.pow 2 1074 / Nat.pow 2 1074).log2 - 52 = m.scale := by
    rw [Nat.mul_div_cancel _ (pow_two_pos 1074), log2_scaled_sub]
  have units : m.scaled * Nat.pow 2 1074
      = m.significand * (Nat.pow 2 1074 * Nat.pow 2 m.scale) := by
    rw [scaled, Nat.mul_assoc, Nat.mul_comm (Nat.pow 2 m.scale)]
  have positive := Nat.mul_pos (pow_two_pos 1074) (pow_two_pos m.scale)
  simp only [ofRatio?, scale]
  rw [units, roundDiv_mul _ positive, if_neg (Nat.ne_of_lt m.significand_lt)]
  exact ofParts?_eq_some m.significand_lt m.scale_le m.normal

theorem isNearest_scaled (m : Magnitude) : IsNearest m (m.scaled / (Nat.pow 2 1074 : Nat)) :=
  ⟨m.scaled, Nat.pow 2 1074, pow_two_pos 1074, rfl, ofRatio?_scaled m⟩

end Magnitude

namespace Number

-----------------------------------------------------------------------------------------
-- Decimals
-----------------------------------------------------------------------------------------

theorem ofRatio_eq_finite {num den : Nat} {m : Magnitude}
    (read : ofRatio false num den = .finite false m)
    : Magnitude.ofRatio? num den = some m := by
  rw [ofRatio_def] at read
  simp only at read
  split at read
  · rename_i found
    cases read
    exact found
  · cases read

/-- A magnitude other than zero that a decimal is read as is the nearest to it. -/
theorem isNearest_of_ofDecimal {digits : Nat} {exponent : Int} {m : Magnitude}
    (nonzero : m.significand ≠ 0) (read : ofDecimal false digits exponent = .finite false m)
    : m.IsNearest (digits * 10 ^ exponent) := by
  have notZero : Number.finite false .zero ≠ .finite false m := by
    intro same
    cases same
    exact nonzero rfl
  unfold ofDecimal at read
  split at read
  · exact absurd read notZero
  · split at read
    · rename_i above
      split at read
      · cases read
      · refine ⟨digits * Nat.pow 10 exponent.toNat, 1, Nat.one_pos, ?_, ofRatio_eq_finite read⟩
        obtain ⟨count, rfl⟩ := Int.eq_ofNat_of_zero_le above
        simp
    · rename_i below
      split at read
      · exact absurd read notZero
      · refine ⟨digits, Nat.pow 10 (-exponent).toNat, Nat.pow_pos (by omega), ?_,
          ofRatio_eq_finite read⟩
        obtain ⟨count, same⟩ := Int.eq_ofNat_of_zero_le (show 0 ≤ -exponent by omega)
        have negative : exponent = -(count : Int) := by omega
        rw [negative, zpow_neg, zpow_natCast, ← div_eq_mul_inv]
        simp

end Number

end Stencil
