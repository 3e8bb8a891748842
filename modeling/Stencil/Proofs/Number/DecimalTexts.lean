import Mathlib.Algebra.Order.Field.Rat
import Mathlib.Data.List.TakeWhile
import Mathlib.Tactic.FieldSimp
import Mathlib.Tactic.Ring
import Stencil.Number.Layout
import Stencil.Proofs.Number.DigitTexts

/-! Decimal texts and the rational numbers that they denote. A text denotes the same number after its
exponent is written out.
-/

namespace Stencil.Number

variable {isWhole isWhole' : List Char → Prop} {denotes : List Char → ℚ → Prop}
  {text before digits exponent : List Char} {mark : Char} {q q' : ℚ}

-----------------------------------------------------------------------------------------
-- Texts that denote numbers
-----------------------------------------------------------------------------------------

/-- Digits that stand for a number, with more digits after a point or without. Of what stands before
the point, something more may be asked.
-/
inductive Denotes (isWhole : List Char → Prop) : List Char → ℚ → Prop where
  | whole {whole : List Char} (isDigits : IsDigits whole) (fit : isWhole whole)
    : Denotes isWhole whole (Nat.ofDigitChars 10 whole 0)
  | pointed {whole fraction : List Char} (isDigits : IsDigits whole) (fit : isWhole whole)
      (isFraction : IsDigits fraction)
    : Denotes isWhole (whole ++ '.' :: fraction)
        (Nat.ofDigitChars 10 whole 0 + Nat.ofDigitChars 10 fraction 0 / 10 ^ fraction.length)

/-- No zero stands in front of other digits. -/
def HasNoSpareZero (whole : List Char) : Prop :=
  whole.head? = some '0' → whole = ['0']

/-- A digit other than zero. -/
def IsLead (whole : List Char) : Prop :=
  ∃ c, c ≠ '0' ∧ whole = [c]

/-- Digits and a point, without an exponent and without a superfluous zero. -/
def Positional : List Char → ℚ → Prop :=
  Denotes HasNoSpareZero

/-- One digit that is not zero, more digits after a point or none, and a power of ten. -/
inductive Exponential : List Char → ℚ → Prop where
  | large {mantissa exponent : List Char} {q : ℚ} (isMantissa : Denotes IsLead mantissa q)
      (isExponent : IsDigits exponent)
    : Exponential (mantissa ++ 'e' :: '+' :: exponent) (q * 10 ^ Nat.ofDigitChars 10 exponent 0)
  | small {mantissa exponent : List Char} {q : ℚ} (isMantissa : Denotes IsLead mantissa q)
      (isExponent : IsDigits exponent)
    : Exponential (mantissa ++ 'e' :: '-' :: exponent) (q / 10 ^ Nat.ofDigitChars 10 exponent 0)

/-- A text that denotes a number, or such a text after a minus sign. -/
inductive Signed (denotes : List Char → ℚ → Prop) : List Char → ℚ → Prop where
  | plain {text : List Char} {q : ℚ} (inside : denotes text q) : Signed denotes text q
  | minus {text : List Char} {q : ℚ} (inside : denotes text q)
    : Signed denotes ('-' :: text) (-q)

-----------------------------------------------------------------------------------------
-- Parts of texts
-----------------------------------------------------------------------------------------

theorem all_bne (apart : mark ∉ text) : ∀ c ∈ text, (c != mark) = true := by
  intro c member
  exact bne_iff_ne.2 fun same => apart (same ▸ member)

theorem takeWhile_mark (apart : mark ∉ before) (after : List Char)
    : (before ++ mark :: after).takeWhile (· != mark) = before := by
  rw [List.takeWhile_append_of_pos (all_bne apart), List.takeWhile_cons_of_neg (by simp),
    List.append_nil]

theorem dropWhile_mark (apart : mark ∉ before) (after : List Char)
    : (before ++ mark :: after).dropWhile (· != mark) = mark :: after := by
  rw [List.dropWhile_append_of_pos (all_bne apart), List.dropWhile_cons_of_neg (by simp)]

theorem dropWhile_of_not_mem (apart : mark ∉ text) : text.dropWhile (· != mark) = [] :=
  List.dropWhile_eq_nil_iff.2 (all_bne apart)

/-- Digits on both sides of the point spell the number without the point, which the number of digits
after it divides.
-/
theorem pointed_value (whole fraction : List Char)
    : (Nat.ofDigitChars 10 whole 0 + Nat.ofDigitChars 10 fraction 0 / 10 ^ fraction.length : ℚ)
      = Nat.ofDigitChars 10 (whole ++ fraction) 0 / 10 ^ fraction.length := by
  have joined
      : Nat.ofDigitChars 10 (whole ++ fraction) 0
        = 10 ^ fraction.length * Nat.ofDigitChars 10 whole 0 + Nat.ofDigitChars 10 fraction 0 := by
    rw [Nat.ofDigitChars_append]
    exact Nat.ofDigitChars_eq_ofDigitChars_zero
  rw [joined]
  push_cast
  field_simp

/-- The parts of a text that denotes a number. -/
structure HasParts (isWhole : List Char → Prop) (text : List Char) (q : ℚ) : Prop where
  isDigits : IsDigits (beforePoint text)
  fit : isWhole (beforePoint text)
  digits : ∀ c ∈ afterPoint text, c.isDigit = true
  value
    : q = Nat.ofDigitChars 10 (beforePoint text ++ afterPoint text) 0
        / 10 ^ (afterPoint text).length

theorem Denotes.hasParts (h : Denotes isWhole text q) : HasParts isWhole text q := by
  cases h with
  | whole isDigits fit =>
      have noPoint : '.' ∉ text := isDigits.not_mem rfl
      have before : beforePoint text = text := List.takeWhile_eq_self_iff.2 (all_bne noPoint)
      have after : afterPoint text = [] := by
        rw [afterPoint, dropWhile_of_not_mem noPoint, List.drop_nil]
      constructor
      · rwa [before]
      · rwa [before]
      · simp [after]
      · simp [before, after]
  | @pointed whole fraction isDigits fit isFraction =>
      have noPoint : '.' ∉ whole := isDigits.not_mem rfl
      have before : beforePoint (whole ++ '.' :: fraction) = whole := takeWhile_mark noPoint fraction
      have after : afterPoint (whole ++ '.' :: fraction) = fraction := by
        rw [afterPoint, dropWhile_mark noPoint]
        rfl
      constructor
      · rwa [before]
      · rwa [before]
      · rw [after]
        exact isFraction.digits
      · rw [before, after, pointed_value]

/-- A text that denotes a number begins with a digit. -/
theorem Denotes.exists_digit (h : Denotes isWhole text q)
    : ∃ c rest, text = c :: rest ∧ c.isDigit = true := by
  cases h with
  | whole isDigits => exact isDigits.exists_digit
  | pointed isDigits =>
      obtain ⟨c, rest, rfl, isDigit⟩ := isDigits.exists_digit
      exact ⟨c, _, rfl, isDigit⟩

/-- A text denotes one number. -/
theorem Denotes.unique (h : Denotes isWhole text q) (h' : Denotes isWhole' text q') : q = q' := by
  rw [h.hasParts.value, h'.hasParts.value]

theorem Denotes.not_minus (h : Denotes isWhole ('-' :: text) q) : False := by
  obtain ⟨c, rest, same, isDigit⟩ := h.exists_digit
  cases same
  cases isDigit

theorem Signed.unique (h : Signed (Denotes isWhole) text q) (h' : Signed (Denotes isWhole') text q')
    : q = q' := by
  cases h with
  | plain inside =>
      cases h' with
      | plain inside' => exact inside.unique inside'
      | minus => exact inside.not_minus.elim
  | minus inside =>
      cases h' with
      | plain inside' => exact inside'.not_minus.elim
      | minus inside' => rw [inside.unique inside']

theorem signed_withSign (negative : Bool) (h : denotes text q)
    : Signed denotes (withSign negative text) (if negative then -q else q) := by
  cases negative with
  | false => exact .plain h
  | true => exact .minus h

theorem Signed.exists_withSign (h : Signed denotes text q)
    : ∃ negative digits value,
        text = withSign negative digits
        ∧ q = (if negative then -value else value)
        ∧ denotes digits value := by
  cases h with
  | plain inside => exact ⟨false, _, _, rfl, rfl, inside⟩
  | minus inside => exact ⟨true, _, _, rfl, rfl, inside⟩

-----------------------------------------------------------------------------------------
-- Placing the point
-----------------------------------------------------------------------------------------

open Decimal (placed zeros)

theorem isDigit_of_mem_zeros {count : ℕ} : ∀ c ∈ zeros count, c.isDigit = true := by
  intro c member
  rw [List.eq_of_mem_replicate member]
  rfl

theorem isDigits_zero : IsDigits ['0'] :=
  ⟨by simp, by simp⟩

theorem hasNoSpareZero_zero : HasNoSpareZero ['0'] :=
  fun _ => rfl

theorem ofDigitChars_zero : Nat.ofDigitChars 10 ['0'] 0 = 0 :=
  rfl

/-- A lone zero denotes zero. -/
theorem positional_zero : Positional ['0'] 0 := by
  have denoted := Denotes.whole isDigits_zero hasNoSpareZero_zero
  rwa [ofDigitChars_zero, Nat.cast_zero] at denoted

/-- Zeros between the point and the digits. -/
theorem positional_small (isDigits : IsDigits digits) (count : ℕ)
    : Positional ('0' :: '.' :: (zeros count ++ digits))
        (Nat.ofDigitChars 10 digits 0 / 10 ^ (count + digits.length)) := by
  have isFraction : IsDigits (zeros count ++ digits) := by
    refine ⟨List.append_ne_nil_of_right_ne_nil _ isDigits.nonempty, ?_⟩
    exact List.forall_mem_append.2 ⟨isDigit_of_mem_zeros, isDigits.digits⟩
  have denoted := Denotes.pointed isDigits_zero hasNoSpareZero_zero isFraction
  rw [ofDigitChars_zero, Nat.cast_zero, zero_add, zeros, Nat.ofDigitChars_append,
    Nat.ofDigitChars_replicate_zero, Nat.mul_zero, List.length_append, List.length_replicate]
    at denoted
  exact denoted

/-- Zeros behind the digits. -/
theorem positional_large (isDigits : IsDigits digits) (lead : digits.head? ≠ some '0') (count : ℕ)
    : Positional (digits ++ zeros count) (Nat.ofDigitChars 10 digits 0 * 10 ^ count) := by
  have noZero : HasNoSpareZero (digits ++ zeros count) := by
    intro zero
    rw [List.head?_append_of_ne_nil _ isDigits.nonempty] at zero
    exact absurd zero lead
  have denoted := Denotes.whole (isDigits.append isDigit_of_mem_zeros) noZero
  rw [zeros, Nat.ofDigitChars_append, Nat.ofDigitChars_replicate_zero, Nat.cast_mul, Nat.cast_pow,
    Nat.cast_ofNat, mul_comm] at denoted
  exact denoted

/-- The point between two digits. -/
theorem positional_between (isDigits : IsDigits digits) (lead : digits.head? ≠ some '0') {count : ℕ}
    (positive : 0 < count) (within : count < digits.length)
    : Positional (digits.take count ++ '.' :: digits.drop count)
        (Nat.ofDigitChars 10 digits 0 / 10 ^ (digits.length - count)) := by
  have isWhole : IsDigits (digits.take count) := by
    refine ⟨?_, fun c member => isDigits.digits c (List.mem_of_mem_take member)⟩
    rw [← List.length_pos_iff, List.length_take]
    exact Nat.lt_min.2 ⟨positive, Nat.lt_trans positive within⟩
  have isFraction : IsDigits (digits.drop count) := by
    refine ⟨?_, fun c member => isDigits.digits c (List.mem_of_mem_drop member)⟩
    rw [← List.length_pos_iff, List.length_drop]
    exact Nat.sub_pos_of_lt within
  have noZero : HasNoSpareZero (digits.take count) := by
    intro zero
    rw [List.head?_take, if_neg (Nat.ne_of_gt positive)] at zero
    exact absurd zero lead
  have denoted := Denotes.pointed isWhole noZero isFraction
  rw [pointed_value, List.take_append_drop, List.length_drop] at denoted
  exact denoted

/-- Digits whose first is not zero denote their number, with the point where it is placed. -/
theorem positional_placed (isDigits : IsDigits digits) (lead : digits.head? ≠ some '0') (point : ℤ)
    : Positional (placed digits point)
        (Nat.ofDigitChars 10 digits 0 * 10 ^ (point - digits.length)) := by
  unfold placed
  split
  · have exponent : point - digits.length = -((((-point).toNat + digits.length : ℕ)) : ℤ) := by
      omega
    rw [exponent, zpow_neg, zpow_natCast, ← div_eq_mul_inv]
    exact positional_small isDigits _
  · split
    · have exponent : point - digits.length = ((point.toNat - digits.length : ℕ) : ℤ) := by omega
      rw [exponent, zpow_natCast]
      exact positional_large isDigits lead _
    · rename_i positive within
      have exponent : point - digits.length = -((digits.length - point.toNat : ℕ) : ℤ) := by omega
      rw [exponent, zpow_neg, zpow_natCast, ← div_eq_mul_inv]
      exact positional_between isDigits lead (by omega) (Nat.not_le.1 within)

-----------------------------------------------------------------------------------------
-- Writing the exponent out
-----------------------------------------------------------------------------------------

theorem withSign_append (negative : Bool) (text after : List Char)
    : withSign negative (text ++ after) = withSign negative text ++ after := by
  cases negative <;> rfl

theorem Denotes.not_mem (h : Denotes isWhole text q) {c : Char} (notDigit : c.isDigit = false)
    (notPoint : c ≠ '.')
    : c ∉ text := by
  cases h with
  | whole isDigits => exact isDigits.not_mem notDigit
  | pointed isDigits _ isFraction =>
      intro member
      rcases List.mem_append.1 member with before | after
      · exact isDigits.not_mem notDigit before
      · rcases List.mem_cons.1 after with point | after
        · exact notPoint point
        · exact isFraction.not_mem notDigit after

theorem Denotes.letter_not_mem (h : Denotes isWhole text q) (negative : Bool)
    : 'e' ∉ withSign negative text := by
  have inside : 'e' ∉ text := h.not_mem rfl (by simp)
  cases negative <;> simp [withSign, inside]

/-- A sign is told by the first character. -/
theorem Denotes.head?_withSign (h : Denotes isWhole text q) (negative : Bool) (after : List Char)
    : ((withSign negative text ++ after).head? == some '-') = negative := by
  cases negative with
  | true => rfl
  | false =>
      obtain ⟨c, rest, rfl, isDigit⟩ := h.exists_digit
      refine beq_eq_false_iff_ne.2 ?_
      intro same
      cases same
      cases isDigit

/-- An exponent in a text moves the point. -/
theorem withoutExponent_withSign {mantissa : List Char} {shift : ℤ} (negative : Bool)
    (isMantissa : Denotes isWhole mantissa q) (isExponent : intOfDigits? exponent = some shift)
    : withoutExponent (withSign negative (mantissa ++ 'e' :: exponent))
      = withSign negative
          (placed (beforePoint mantissa ++ afterPoint mantissa)
            ((beforePoint mantissa).length + shift)) := by
  have noLetter := isMantissa.letter_not_mem negative
  have unsigned : (withSign negative mantissa).drop (if negative then 1 else 0) = mantissa := by
    cases negative <;> rfl
  rw [withSign_append, withoutExponent, dropWhile_mark noLetter]
  simp only [isExponent, takeWhile_mark noLetter, isMantissa.head?_withSign, unsigned]

/-- Moving the point of a text is multiplying its number by a power of ten. -/
theorem Denotes.positional_shifted (h : Denotes IsLead text q) (shift : ℤ)
    : Positional
        (placed (beforePoint text ++ afterPoint text) ((beforePoint text).length + shift))
        (q * 10 ^ shift) := by
  have parts := h.hasParts
  have lead : (beforePoint text ++ afterPoint text).head? ≠ some '0' := by
    obtain ⟨c, nonzero, single⟩ := parts.fit
    rw [single]
    exact fun zero => nonzero (Option.some.inj zero)
  have exponent
      : (beforePoint text).length + shift - ((beforePoint text ++ afterPoint text).length : ℤ)
        = shift - (afterPoint text).length := by
    rw [List.length_append]
    omega
  have placed' := positional_placed (parts.isDigits.append parts.digits) lead
    ((beforePoint text).length + shift)
  rw [exponent, zpow_sub₀ (by norm_num), zpow_natCast, mul_div_assoc'] at placed'
  rw [parts.value, div_mul_eq_mul_div]
  exact placed'

theorem intOfDigits?_plus (isDigits : IsDigits digits)
    : intOfDigits? ('+' :: digits) = some (Nat.ofDigitChars 10 digits 0 : ℤ) := by
  simp only [intOfDigits?, splitSign, natOfDigits?_eq isDigits]
  rfl

theorem intOfDigits?_minus (isDigits : IsDigits digits)
    : intOfDigits? ('-' :: digits) = some (-(Nat.ofDigitChars 10 digits 0 : ℤ)) := by
  simp only [intOfDigits?, splitSign, natOfDigits?_eq isDigits]
  rfl

theorem Exponential.mem (h : Exponential text q) : 'e' ∈ text := by
  cases h with
  | large => simp
  | small => simp

/-- The number of a text stays the same when the exponent is written out. -/
theorem Exponential.positional (h : Exponential text q) (negative : Bool)
    : ∃ expanded,
        withoutExponent (withSign negative text) = withSign negative expanded
        ∧ Positional expanded q := by
  cases h with
  | @large _ exponent _ isMantissa isExponent =>
      refine ⟨_, withoutExponent_withSign negative isMantissa (intOfDigits?_plus isExponent), ?_⟩
      have shifted := isMantissa.positional_shifted (Nat.ofDigitChars 10 exponent 0 : ℕ)
      rwa [zpow_natCast] at shifted
  | @small _ exponent _ isMantissa isExponent =>
      refine ⟨_, withoutExponent_withSign negative isMantissa (intOfDigits?_minus isExponent), ?_⟩
      have shifted := isMantissa.positional_shifted (-(Nat.ofDigitChars 10 exponent 0 : ℕ))
      rwa [zpow_neg, zpow_natCast, ← div_eq_mul_inv] at shifted

theorem Signed.withoutExponent (h : Signed Exponential text q)
    : Signed Positional (withoutExponent text) q := by
  obtain ⟨negative, digits, value, rfl, rfl, inside⟩ := h.exists_withSign
  obtain ⟨expanded, same, denoted⟩ := inside.positional negative
  rw [same]
  exact signed_withSign negative denoted

/-- A text without an exponent is kept. -/
theorem withoutExponent_positional (h : Positional text q) (negative : Bool)
    : withoutExponent (withSign negative text) = withSign negative text := by
  rw [withoutExponent, dropWhile_of_not_mem (h.letter_not_mem negative)]

end Stencil.Number
