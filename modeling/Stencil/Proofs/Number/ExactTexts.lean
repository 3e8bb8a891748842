import Stencil.Proofs.Number.Decimals
import Stencil.Proofs.Number.Nearest

/-! Exact texts of numbers. The text of a number denotes its shortest decimal, with an exponent or
without, and the number is the nearest one to that decimal. So no two numbers have the same text in
documents.
-/

namespace Stencil

-----------------------------------------------------------------------------------------
-- The shortest decimal
-----------------------------------------------------------------------------------------

namespace Decimal

variable {m : Magnitude} {d : Decimal}

/-- A decimal that the magnitude is nearest to, with proper digits. -/
structure IsRead (m : Magnitude) (d : Decimal) : Prop where
  proper : AreProper d.digits
  positive : 0 < d.value
  nearest : m.IsNearest d.value

theorem isRead_ofNat {n : Nat} {exponent : Int} (nonzero : n ≠ 0)
    (nearest : m.IsNearest (n * 10 ^ exponent))
    : IsRead m (ofNat n exponent) := by
  have value := value_ofNat nonzero exponent
  have positive : (0 : ℚ) < n := Nat.cast_pos.2 (Nat.pos_of_ne_zero nonzero)
  refine ⟨areProper_ofNat nonzero exponent, ?_, ?_⟩
  · rw [value]
    exact mul_pos positive (zpow_pos (by norm_num) exponent)
  · rwa [value]

/-- Only a decimal that is read as the magnitude is found. By induction on the number of digits that
are left to try.
-/
theorem isRead_of_search (nonzero : m.significand ≠ 0) {num den : Nat} {point : Int}
    {last count : Nat} (found : search m num den point last count = some d)
    : IsRead m d := by
  induction count with
  | zero => cases found
  | succ count ih =>
      simp only [search] at found
      split at found
      · rename_i n first
        cases found
        have read := List.find?_some first
        rw [beq_iff_eq] at read
        have nearest := Number.isNearest_of_ofDecimal nonzero read
        refine isRead_ofNat ?_ nearest
        intro zero
        rw [zero, Number.ofDecimal, if_pos rfl] at read
        cases read
        exact nonzero rfl
      · exact ih found

/-- A number of binary places has as many decimal places. -/
theorem binary_places_eq (n places : Nat)
    : ((n * Nat.pow 5 places : Nat) : ℚ) * 10 ^ (-(places : Int))
      = n / (Nat.pow 2 places : Nat) := by
  have five : Nat.pow 5 places = 5 ^ places := rfl
  have two : Nat.pow 2 places = 2 ^ places := rfl
  have ten : (10 : ℚ) ^ places = 5 ^ places * 2 ^ places := by
    rw [← mul_pow]
    norm_num
  rw [five, two, zpow_neg, zpow_natCast, ten]
  push_cast
  field_simp

/-- The shortest decimal of a magnitude is read as it. -/
theorem isRead_shortest (nonzero : m.significand ≠ 0) : IsRead m (shortest m) := by
  unfold shortest
  simp only
  split
  · rename_i found
    exact isRead_of_search nonzero found
  · have places : (-1074 : Int) = -((1074 : Nat) : Int) := rfl
    refine isRead_ofNat (Nat.mul_ne_zero ?_ (Nat.ne_of_gt (Nat.pow_pos (by omega)))) ?_
    · exact Nat.mul_ne_zero nonzero (Nat.ne_of_gt (Magnitude.pow_two_pos m.scale))
    · rw [places, binary_places_eq]
      exact m.isNearest_scaled

end Decimal

namespace Number

variable {negative negative' : Bool} {m m' : Magnitude} {q : ℚ}

-----------------------------------------------------------------------------------------
-- Numbers that texts show
-----------------------------------------------------------------------------------------

/-- A text denotes a number, with an exponent or without. -/
def Shows (text : List Char) (q : ℚ) : Prop :=
  Signed Exponential text q ∨ Signed Positional text q

/-- The decimal of a number, with the sign of the number. -/
def shown (negative : Bool) (m : Magnitude) : ℚ :=
  if negative then -(Decimal.shortest m).value else (Decimal.shortest m).value

theorem toList_text_of_zero (negative : Bool) (zero : m.significand = 0)
    : (text (finite negative m)).toList = ['0'] := by
  rw [text, if_pos zero]
  rfl

theorem toList_text_of_nonzero (negative : Bool) (nonzero : m.significand ≠ 0)
    : (text (finite negative m)).toList
      = withSign negative
          (if (Decimal.shortest m).isModest then (Decimal.shortest m).positional
            else (Decimal.shortest m).scientific) := by
  rw [text, if_neg nonzero]
  exact String.toList_ofList

/-- The text of a number other than zero shows its shortest decimal. -/
theorem shows_text_of_nonzero (negative : Bool) (nonzero : m.significand ≠ 0)
    : Shows (text (finite negative m)).toList (shown negative m) := by
  have proper := (Decimal.isRead_shortest nonzero).proper
  rw [toList_text_of_nonzero negative nonzero]
  split
  · exact .inr (signed_withSign negative (Decimal.positional_spec proper))
  · exact .inl (signed_withSign negative (Decimal.scientific_spec proper))

theorem exists_shows_text (negative : Bool) (m : Magnitude)
    : ∃ q, Shows (text (finite negative m)).toList q := by
  by_cases zero : m.significand = 0
  · rw [toList_text_of_zero negative zero]
    exact ⟨0, .inr (.plain positional_zero)⟩
  · exact ⟨_, shows_text_of_nonzero negative zero⟩

theorem eq_zero_of_shows_zero (h : Shows ['0'] q) : q = 0 := by
  rcases h with exponential | positional
  · obtain ⟨isNegative, digits, _, same, -, inside⟩ := exponential.exists_withSign
    have letter := inside.mem
    cases isNegative with
    | true => cases same
    | false =>
        rw [← show ['0'] = digits from same] at letter
        simp at letter
  · exact positional.unique (Signed.plain positional_zero)

theorem eq_zero_of_significand (zero : m.significand = 0) : m = .zero := by
  obtain ⟨significand, scale, bound, scale_le, normal⟩ := m
  subst zero
  rcases normal with large | least
  · exact absurd large (Nat.not_le.2 (Magnitude.pow_two_pos 52))
  · subst least
    rfl

/-- Only the sign tells the two zeros apart. -/
theorem plainText_zero (negative : Bool)
    : plainText (finite negative .zero) = if negative then "-0" else "0" := by
  cases negative <;> rfl

theorem toList_plainText (other : negative = false ∨ m.significand ≠ 0)
    : (plainText (finite negative m)).toList
      = withoutExponent (text (finite negative m)).toList := by
  have notNegativeZero : (negative && m.significand == 0) = false := by
    rcases other with positive | nonzero
    · rw [positive]
      rfl
    · simp [nonzero]
  rw [plainText, notNegativeZero]
  exact String.toList_ofList

/-- The text in documents denotes the number that the text shows. -/
theorem positional_plainText (h : Shows (text (finite negative m)).toList q)
    : Signed Positional (plainText (finite negative m)).toList q := by
  by_cases other : negative = false ∨ m.significand ≠ 0
  · rw [toList_plainText other]
    rcases h with exponential | positional
    · exact exponential.withoutExponent
    · obtain ⟨isNegative, digits, value, same, rfl, inside⟩ := positional.exists_withSign
      rw [same, withoutExponent_positional inside]
      exact signed_withSign isNegative inside
  · rw [not_or, Bool.not_eq_false, not_not] at other
    obtain ⟨rfl, zero⟩ := other
    rw [toList_text_of_zero true zero] at h
    rw [eq_zero_of_significand zero, plainText_zero, eq_zero_of_shows_zero h, ← neg_zero]
    exact .minus positional_zero

-----------------------------------------------------------------------------------------
-- Exactness
-----------------------------------------------------------------------------------------

theorem positional_plainText_of_nonzero (negative : Bool) (nonzero : m.significand ≠ 0)
    : Signed Positional (plainText (finite negative m)).toList (shown negative m) :=
  positional_plainText (shows_text_of_nonzero negative nonzero)

theorem positional_plainText_of_zero (negative : Bool) (zero : m.significand = 0)
    : Signed Positional (plainText (finite negative m)).toList 0 := by
  apply positional_plainText
  rw [toList_text_of_zero negative zero]
  exact .inr (.plain positional_zero)

theorem shown_ne_zero (negative : Bool) (nonzero : m.significand ≠ 0) : shown negative m ≠ 0 := by
  have positive := (Decimal.isRead_shortest nonzero).positive
  unfold shown
  split
  · exact neg_ne_zero.2 positive.ne'
  · exact positive.ne'

/-- Numbers other than zero are told apart by what they show: the sign by the sign, and the magnitude
since it is the nearest.
-/
theorem eq_of_shown_eq (nonzero : m.significand ≠ 0) (nonzero' : m'.significand ≠ 0)
    (same : shown negative m = shown negative' m')
    : finite negative m = finite negative' m' := by
  have read := Decimal.isRead_shortest nonzero
  have read' := Decimal.isRead_shortest nonzero'
  have positive := read.positive
  have positive' := read'.positive
  have magnitudes : (Decimal.shortest m).value = (Decimal.shortest m').value → m = m' := by
    intro values
    exact read.nearest.unique (values ▸ read'.nearest)
  cases negative <;> cases negative' <;>
    simp only [shown, if_true, Bool.false_eq_true, if_false] at same
  · rw [magnitudes same]
  · linarith
  · linarith
  · rw [magnitudes (neg_injective same)]

/-- Numbers are told apart by their texts in documents. -/
theorem eq_of_plainText_eq (same : plainText (finite negative m) = plainText (finite negative' m'))
    : finite negative m = finite negative' m' := by
  by_cases zero : m.significand = 0
  · by_cases zero' : m'.significand = 0
    · rw [eq_zero_of_significand zero, eq_zero_of_significand zero'] at same ⊢
      rw [plainText_zero, plainText_zero] at same
      have signs : negative = negative' := by
        cases negative <;> cases negative' <;> simp_all
      rw [signs]
    · have texts := positional_plainText_of_zero negative zero
      rw [same] at texts
      have shown := texts.unique (positional_plainText_of_nonzero negative' zero')
      exact absurd shown.symm (shown_ne_zero negative' zero')
  · have texts := positional_plainText_of_nonzero negative zero
    rw [same] at texts
    by_cases zero' : m'.significand = 0
    · have shown := texts.unique (positional_plainText_of_zero negative' zero')
      exact absurd shown (shown_ne_zero negative zero)
    · exact eq_of_shown_eq zero zero'
        (texts.unique (positional_plainText_of_nonzero negative' zero'))

/-- Texts of numbers are exact. A text with an exponent denotes the same number after the exponent is
written out, without a superfluous zero. The text of a number in documents denotes the number that
its compact text shows, with an exponent or without, and there is such a number. Different numbers
have different texts in documents.
-/
theorem plainText_exact
    : (∀ (text : List Char) (q : ℚ),
          Signed Exponential text q → Signed Positional (withoutExponent text) q)
      ∧ (∀ (negative : Bool) (m : Magnitude),
          (∃ q, Shows (text (finite negative m)).toList q)
          ∧ ∀ q, Shows (text (finite negative m)).toList q →
              Signed Positional (plainText (finite negative m)).toList q)
      ∧ ∀ (negative negative' : Bool) (m m' : Magnitude),
          plainText (finite negative m) = plainText (finite negative' m') →
            finite negative m = finite negative' m' := by
  refine ⟨?_, ?_, ?_⟩
  · intro text q exponential
    exact exponential.withoutExponent
  · intro negative m
    exact ⟨exists_shows_text negative m, fun q shows' => positional_plainText shows'⟩
  · intro negative negative' m m' same
    exact eq_of_plainText_eq same

/-- Exponents move the point to the left beyond the first digit and to the right beyond the last one.
The two zeros are told apart.
-/
theorem plainText_exact_moved
    : (Signed Exponential "-1.5e-7".toList (-(3 / 20000000))
        ∧ Signed Positional "-0.00000015".toList (-(3 / 20000000)))
      ∧ (Signed Exponential "5e+21".toList (5 * 10 ^ 21)
        ∧ Signed Positional "5000000000000000000000".toList (5 * 10 ^ 21))
      ∧ Signed Positional (plainText (finite true .zero)).toList 0
      ∧ plainText (finite true .zero) ≠ plainText (finite false .zero) := by
  obtain ⟨expanded, documents, apart⟩ := plainText_exact
  have small : Signed Exponential "-1.5e-7".toList (-(3 / 20000000)) := by
    have mantissa : Denotes IsLead (['1'] ++ '.' :: ['5']) _ :=
      .pointed ⟨by simp, by simp⟩ ⟨'1', by simp, rfl⟩ ⟨by simp, by simp⟩
    have exponent : IsDigits ['7'] := ⟨by simp, by simp⟩
    have value : (-(3 / 20000000) : ℚ) = -(((1 : ℕ) + (5 : ℕ) / 10 ^ 1) / 10 ^ 7) := by norm_num
    rw [value]
    exact .minus (.small mantissa exponent)
  have large : Signed Exponential "5e+21".toList (5 * 10 ^ 21) := by
    have mantissa : Denotes IsLead ['5'] _ := .whole ⟨by simp, by simp⟩ ⟨'5', by simp, rfl⟩
    have exponent : IsDigits ['2', '1'] := ⟨by simp, by simp⟩
    exact .plain (.large mantissa exponent)
  refine ⟨⟨small, ?_⟩, ⟨large, ?_⟩, ?_, ?_⟩
  · exact expanded _ _ small
  · exact expanded _ _ large
  · refine (documents true .zero).2 0 (.inr (.plain ?_))
    exact positional_zero
  · intro same
    cases apart _ _ _ _ same

end Number

end Stencil
