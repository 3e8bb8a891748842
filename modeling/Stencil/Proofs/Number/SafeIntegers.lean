import Stencil.Number

/-! Integers that are numbers. No digit of an integer is lost in the number nearest to it, as long
as it has at most 53 binary digits, and a larger integer is never rounded to one of those.
-/

namespace Stencil

namespace Magnitude

/-- A quotient without a remainder is not rounded. -/
theorem roundDiv_mul (quotient : Nat) {den : Nat} (positive : 0 < den)
    : roundDiv (quotient * den) den = quotient := by
  simp [roundDiv, Nat.mul_mod_left, positive]

theorem ofParts?_eq_some {significand scale : Nat} (bound : significand < Nat.pow 2 53)
    (scaleBound : scale ≤ 2045) (normal : Nat.pow 2 52 ≤ significand ∨ scale = 0)
    : ofParts? significand scale = some ⟨significand, scale, bound, scaleBound, normal⟩ :=
  dif_pos ⟨bound, scaleBound, normal⟩

theorem pow_two_pos (digits : Nat) : 0 < Nat.pow 2 digits :=
  Nat.two_pow_pos digits

theorem pow_two_add {digits more total : Nat} (sum : digits + more = total)
    : Nat.pow 2 digits * Nat.pow 2 more = Nat.pow 2 total :=
  sum ▸ (Nat.pow_add 2 digits more).symm

theorem log2_mul_pow {num : Nat} (nonzero : num ≠ 0) (digits : Nat)
    : (num * Nat.pow 2 digits).log2 = num.log2 + digits := by
  have lower : Nat.pow 2 num.log2 ≤ num := Nat.log2_self_le nonzero
  have upper : num < Nat.pow 2 (num.log2 + 1) := Nat.lt_log2_self
  have shifted : num * Nat.pow 2 digits ≠ 0 :=
    Nat.mul_ne_zero nonzero (Nat.ne_of_gt (pow_two_pos digits))
  refine (Nat.log2_eq_iff shifted).2 ⟨?_, ?_⟩
  · calc Nat.pow 2 (num.log2 + digits)
        = Nat.pow 2 num.log2 * Nat.pow 2 digits := (pow_two_add rfl).symm
      _ ≤ num * Nat.pow 2 digits := Nat.mul_le_mul_right _ lower
  · calc num * Nat.pow 2 digits
        < Nat.pow 2 (num.log2 + 1) * Nat.pow 2 digits :=
          Nat.mul_lt_mul_of_pos_right upper (pow_two_pos digits)
      _ = Nat.pow 2 (num.log2 + digits + 1) := pow_two_add (Nat.add_right_comm ..)

/-- The scale of a whole number in units of the least magnitude. -/
theorem log2_scaled {num : Nat} (nonzero : num ≠ 0)
    : (num * Nat.pow 2 1074 / 1).log2 - 52 = num.log2 + 1022 := by
  rw [Nat.div_one, log2_mul_pow nonzero]
  omega

/-- A number shifted to 53 binary digits. -/
theorem shifted_bounds {num : Nat} (nonzero : num ≠ 0) (small : num.log2 ≤ 52)
    : Nat.pow 2 52 ≤ num * Nat.pow 2 (52 - num.log2)
      ∧ num * Nat.pow 2 (52 - num.log2) < Nat.pow 2 53 := by
  have digits := log2_mul_pow nonzero (52 - num.log2)
  rw [Nat.add_sub_cancel' small] at digits
  have shifted : num * Nat.pow 2 (52 - num.log2) ≠ 0 :=
    Nat.mul_ne_zero nonzero (Nat.ne_of_gt (pow_two_pos _))
  exact (Nat.log2_eq_iff shifted).1 digits

/-- A whole number in units of the least magnitude is that number. -/
theorem toNat?_eq_some {m : Magnitude} (num : Nat) (scaled : m.scaled = num * Nat.pow 2 1074)
    : m.toNat? = some num := by
  have divides : m.scaled % Nat.pow 2 1074 = 0 := by
    rw [scaled]
    exact Nat.mul_mod_left ..
  rw [toNat?, if_pos divides, scaled, Nat.mul_div_cancel _ (pow_two_pos 1074)]

/-- A whole number of at most 53 binary digits is a magnitude: shifted to 53 digits, it is the
significand.
-/
theorem exists_ofRatio? {num : Nat} (small : num < Nat.pow 2 53)
    : ∃ m, ofRatio? num 1 = some m ∧ m.toNat? = some num := by
  by_cases zero : num = 0
  · subst zero
    refine ⟨.zero, ?_, toNat?_eq_some 0 (by simp [scaled, Magnitude.zero])⟩
    rw [ofRatio?, Nat.zero_mul]
    rfl
  have log2_le : num.log2 ≤ 52 := Nat.le_of_lt_succ ((Nat.log2_lt zero).2 small)
  obtain ⟨normal, bound⟩ := shifted_bounds zero log2_le
  -- The shift to 53 digits and the scale make up the least unit, so nothing is rounded.
  have exponent : 52 - num.log2 + (num.log2 + 1022) = 1074 := by omega
  have split : num * Nat.pow 2 (52 - num.log2) * Nat.pow 2 (num.log2 + 1022)
      = num * Nat.pow 2 1074 :=
    (Nat.mul_assoc ..).trans (congrArg (num * ·) (pow_two_add exponent))
  refine ⟨⟨_, num.log2 + 1022, bound, by omega, .inl normal⟩, ?_, toNat?_eq_some num split⟩
  simp only [ofRatio?, log2_scaled zero]
  rw [Nat.one_mul, ← split, roundDiv_mul _ (pow_two_pos _), if_neg (Nat.ne_of_lt bound)]
  exact ofParts?_eq_some bound (by omega) (.inl normal)

theorem div_le_roundDiv (num den : Nat) : num / den ≤ roundDiv num den := by
  simp only [roundDiv]
  split
  · exact Nat.le_refl _
  · split
    · exact Nat.le_succ _
    · exact Nat.le_add_right ..

theorem scaled_of_ofParts? {significand scale : Nat} {m : Magnitude}
    (made : ofParts? significand scale = some m)
    : m.scaled = significand * Nat.pow 2 scale := by
  rw [ofParts?, Option.dite_none_right_eq_some] at made
  obtain ⟨bounds, same⟩ := made
  cases same
  rfl

theorem scaled_of_toNat? {m : Magnitude} {num : Nat} (whole : m.toNat? = some num)
    : m.scaled = num * Nat.pow 2 1074 := by
  rw [toNat?, Option.ite_none_right_eq_some, Option.some.injEq] at whole
  rw [← whole.2, Nat.div_mul_cancel (Nat.dvd_of_mod_eq_zero whole.1)]

/-- A normal significand at a scale above that of one is a whole number of 54 binary digits or more.
-/
theorem le_scaled_of_normal {significand scale : Nat} {m : Magnitude}
    (normal : Nat.pow 2 52 ≤ significand) (large : 1075 ≤ scale)
    (made : ofParts? significand scale = some m)
    : Nat.pow 2 53 * Nat.pow 2 1074 ≤ m.scaled := by
  rw [scaled_of_ofParts? made]
  calc Nat.pow 2 53 * Nat.pow 2 1074
      = Nat.pow 2 1127 := pow_two_add (by omega)
    _ = Nat.pow 2 52 * Nat.pow 2 1075 := (pow_two_add (by omega)).symm
    _ ≤ significand * Nat.pow 2 scale :=
        Nat.mul_le_mul normal (Nat.pow_le_pow_right Nat.two_pos large)

/-- A whole number of more than 53 binary digits is rounded to one that has as many or more. -/
theorem le_scaled_of_ofRatio? {num : Nat} {m : Magnitude} (large : Nat.pow 2 53 ≤ num)
    (nearest : ofRatio? num 1 = some m)
    : Nat.pow 2 53 * Nat.pow 2 1074 ≤ m.scaled := by
  have nonzero : num ≠ 0 := Nat.ne_of_gt (Nat.lt_of_lt_of_le (pow_two_pos 53) large)
  have digits : 53 ≤ num.log2 := (Nat.le_log2 nonzero).2 large
  have normal
      : Nat.pow 2 52 ≤ roundDiv (num * Nat.pow 2 1074) (Nat.pow 2 (num.log2 + 1022)) := by
    refine Nat.le_trans ?_ (div_le_roundDiv ..)
    refine (Nat.le_div_iff_mul_le (pow_two_pos _)).2 ?_
    calc Nat.pow 2 52 * Nat.pow 2 (num.log2 + 1022)
        = Nat.pow 2 (num.log2 + 1074) := pow_two_add (by omega)
      _ = Nat.pow 2 num.log2 * Nat.pow 2 1074 := (pow_two_add (by omega)).symm
      _ ≤ num * Nat.pow 2 1074 := Nat.mul_le_mul_right _ (Nat.log2_self_le nonzero)
  simp only [ofRatio?, log2_scaled nonzero, Nat.one_mul] at nearest
  split at nearest
  · exact le_scaled_of_normal (Nat.le_refl _) (by omega) nearest
  · exact le_scaled_of_normal normal (by omega) nearest

end Magnitude

namespace Number

-- An equation of functions: at arguments, its check would evaluate the magnitude.
theorem ofRatio_def
    : ofRatio = fun negative num den =>
        match Magnitude.ofRatio? num den with
        | some magnitude => .finite negative magnitude
        | none => .infinity negative := by
  delta ofRatio
  rfl

theorem toInt?_finite {m : Magnitude} {num : Nat} (whole : m.toNat? = some num) (negative : Bool)
    : (finite negative m).toInt? = some (if negative then -(num : Int) else num) := by
  rw [toInt?, whole]
  rfl

/-- The number nearest to an integer is that integer, up to 53 binary digits. -/
theorem toInt?_ofInt {n : Int} (small : n.natAbs < Nat.pow 2 53)
    : (ofInt n).toInt? = some n := by
  obtain ⟨m, nearest, whole⟩ := Magnitude.exists_ofRatio? small
  have finite : ofInt n = .finite (n < 0) m := by
    rw [ofInt, ofRatio_def]
    simp only [nearest]
  rw [finite, toInt?_finite whole, Option.some.injEq]
  simp only [decide_eq_true_eq]
  split <;> omega

theorem maxSafe_lt : maxSafe < Nat.pow 2 53 := by
  rw [maxSafe]
  exact Nat.sub_lt (Nat.two_pow_pos 53) Nat.one_pos

/-- An integer beyond the safe ones is rounded to a number that is no safe integer. -/
theorem toSafeInt?_ofInt_of_large {n : Int} (large : maxSafe < n.natAbs)
    : (ofInt n).toSafeInt? = none := by
  have large : Nat.pow 2 53 ≤ n.natAbs := by
    rw [maxSafe] at large
    exact Nat.le_of_pred_lt large
  rw [ofInt, ofRatio_def, toSafeInt?]
  cases nearest : Magnitude.ofRatio? n.natAbs 1 with
  | none =>
      simp only [nearest]
      rfl
  | some m =>
      simp only [nearest]
      cases whole : m.toNat? with
      | none => rw [toInt?, whole]; rfl
      | some num =>
          have above := Magnitude.le_scaled_of_ofRatio? large nearest
          rw [Magnitude.scaled_of_toNat? whole] at above
          have above := Nat.le_of_mul_le_mul_right above (Magnitude.pow_two_pos 1074)
          rw [toInt?_finite whole]
          refine Option.filter_eq_none_iff.2 fun result here => ?_
          have digits : result.natAbs = num := by
            cases here
            split <;> omega
          have beyond : maxSafe < result.natAbs := digits ▸ Nat.lt_of_lt_of_le maxSafe_lt above
          simpa using beyond

/-- The number nearest to an integer is a safe integer exactly if that integer is one, and then it is
the same.
-/
theorem toSafeInt?_ofInt (n : Int)
    : (ofInt n).toSafeInt? = if n.natAbs ≤ maxSafe then some n else none := by
  split
  · rename_i safe
    rw [toSafeInt?, toInt?_ofInt (Nat.lt_of_le_of_lt safe maxSafe_lt)]
    simp [Option.filter, safe]
  · rename_i large
    exact toSafeInt?_ofInt_of_large (Nat.lt_of_not_le large)

theorem eq_of_toSafeInt?_ofInt {n m : Int} (nearest : (ofInt n).toSafeInt? = some m) : m = n := by
  rw [toSafeInt?_ofInt, Option.ite_none_right_eq_some] at nearest
  exact (Option.some.inj nearest.2).symm

end Number

end Stencil
