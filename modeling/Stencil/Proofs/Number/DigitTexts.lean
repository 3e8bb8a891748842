import Mathlib.Data.Nat.Digits.Defs
import Stencil.Calendar
import Stencil.Number.Literal

/-! Texts of decimal digits and the numbers that they spell. -/

namespace Stencil

namespace Number

/-- One or more decimal digits. -/
structure IsDigits (text : List Char) : Prop where
  nonempty : text ≠ []
  digits : ∀ c ∈ text, c.isDigit = true

theorem toNat_of_isDigit {c : Char} (isDigit : c.isDigit = true)
    : '0'.toNat ≤ c.toNat ∧ c.toNat ≤ '0'.toNat + 9 := by
  have range := Char.isDigit_iff_toNat.1 isDigit
  have nine : '9'.toNat = '0'.toNat + 9 := rfl
  omega

theorem digitValue?_of_isDigit {c : Char} (isDigit : c.isDigit = true)
    : digitValue? c = some (c.toNat - '0'.toNat) := by
  rw [digitValue?, if_pos isDigit]

/-- Digits go on from the number that the digits before them spell. -/
theorem foldlM_digits {text : List Char} (digits : ∀ c ∈ text, c.isDigit = true) (value : Nat)
    : (text.foldlM (fun value c => do
        let digit ← digitValue? c
        if digit < 10 then some (10 * value + digit) else none) value)
      = some (Nat.ofDigitChars 10 text value) := by
  induction text generalizing value with
  | nil => rfl
  | cons c text ih =>
      rw [List.forall_mem_cons] at digits
      have range := toNat_of_isDigit digits.1
      have small : c.toNat - '0'.toNat < 10 := by omega
      rw [List.foldlM_cons, digitValue?_of_isDigit digits.1, Nat.ofDigitChars_cons, ← ih digits.2]
      simp only [Option.bind_eq_bind, Option.bind_some, small, if_true]

theorem natOfDigits?_eq {text : List Char} (h : IsDigits text)
    : natOfDigits? 10 text = some (Nat.ofDigitChars 10 text 0) := by
  cases text with
  | nil => exact absurd rfl h.nonempty
  | cons c text => exact foldlM_digits h.digits 0

theorem IsDigits.append {text more : List Char} (h : IsDigits text)
    (digits : ∀ c ∈ more, c.isDigit = true)
    : IsDigits (text ++ more) := by
  refine ⟨List.append_ne_nil_of_left_ne_nil h.nonempty more, ?_⟩
  intro c member
  rcases List.mem_append.1 member with first | second
  · exact h.digits c first
  · exact digits c second

theorem IsDigits.exists_digit {text : List Char} (h : IsDigits text)
    : ∃ c rest, text = c :: rest ∧ c.isDigit = true := by
  obtain ⟨c, rest, rfl⟩ := List.exists_cons_of_ne_nil h.nonempty
  exact ⟨c, rest, rfl, h.digits c (List.mem_cons_self ..)⟩

/-- A character that is no digit is not among digits. -/
theorem IsDigits.not_mem {text : List Char} (h : IsDigits text) {c : Char}
    (notDigit : c.isDigit = false)
    : c ∉ text := by
  intro member
  rw [h.digits c member] at notDigit
  cases notDigit

theorem isDigits_toDigits (n : Nat) : IsDigits (Nat.toDigits 10 n) :=
  ⟨Nat.toDigits_ne_nil, fun _ => Nat.isDigit_of_mem_toDigits (by omega) (by omega)⟩

end Number

namespace Date

open Number (IsDigits)

/-- A padded number is zeros and its digits. -/
theorem toList_padded (width n : Nat)
    : (padded width (toString n)).toList
      = List.replicate (width - (Nat.toDigits 10 n).length) '0' ++ Nat.toDigits 10 n := by
  rw [padded, String.toList_append, String.toList_ofList, Nat.toString_eq_ofList_toDigits,
    String.toList_ofList, String.length_ofList]

theorem isDigits_padded (width n : Nat) : IsDigits (padded width (toString n)).toList := by
  rw [toList_padded]
  refine ⟨List.append_ne_nil_of_right_ne_nil _ Nat.toDigits_ne_nil, ?_⟩
  intro c member
  rcases List.mem_append.1 member with zero | digit
  · rw [List.eq_of_mem_replicate zero]
    rfl
  · exact (Number.isDigits_toDigits n).digits c digit

theorem length_padded {width n : Nat} (nonempty : 0 < width) (small : n < 10 ^ width)
    : (padded width (toString n)).toList.length = width := by
  have short := (Nat.length_toDigits_le_iff (by omega) nonempty).2 small
  rw [toList_padded, List.length_append, List.length_replicate]
  omega

/-- Zeros in front do not change the number. -/
theorem ofDigitChars_padded (width n : Nat)
    : Nat.ofDigitChars 10 (padded width (toString n)).toList 0 = n := by
  rw [toList_padded, Nat.ofDigitChars_append, Nat.ofDigitChars_replicate_zero, Nat.mul_zero,
    Nat.ofDigitChars_ten_toDigits]

end Date

end Stencil
