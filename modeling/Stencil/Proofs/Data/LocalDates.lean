import Mathlib.Data.List.TakeWhile
import Stencil.Data.Toml.Scalar
import Stencil.Proofs.Calendar.ValidDates
import Stencil.Proofs.Number.DigitTexts
import Stencil.Proofs.Path.Spelling

/-! Local dates of TOML texts. The text of a date with a year of four digits is read as the time of
the midnight of that day.
-/

namespace Stencil.Data.Toml

open Number (IsDigits)

-----------------------------------------------------------------------------------------
-- What is no number
-----------------------------------------------------------------------------------------

/-- A character that is no digit keeps a text from being the digits of a number. -/
theorem joinDigits?_eq_none {isDigit : Char → Bool} {text : List Char} {c : Char}
    (member : c ∈ text) (notDigit : isDigit c = false) (notMark : c ≠ '_')
    : joinDigits? isDigit text = none := by
  rw [← Text.joinWith_splitOn '_' text] at member
  rcases Text.exists_of_mem_joinWith member with mark | ⟨group, inGroups, inGroup⟩
  · exact absurd (List.mem_singleton.1 mark) notMark
  · rw [joinDigits?, if_neg]
    intro all
    have digits := List.all_eq_true.1 all group inGroups
    simp only [Bool.and_eq_true, List.all_eq_true] at digits
    rw [digits.2 c inGroup] at notDigit
    cases notDigit

/-- Digits with a hyphen behind them. -/
structure IsHyphenated (text : List Char) : Prop where
  exists_digits : ∃ first rest, text = first :: rest ∧ first.isDigit = true
  hyphen : '-' ∈ text
  numeric : ∀ c ∈ text, c.isDigit = true ∨ c = '-'

variable {text : List Char}

theorem IsHyphenated.splitSign_eq (h : IsHyphenated text)
    : Number.splitSign text = (false, text) := by
  obtain ⟨first, rest, rfl, isDigit⟩ := h.exists_digits
  unfold Number.splitSign
  split
  · rename_i eq
    cases eq
    cases isDigit
  · rename_i eq
    cases eq
    cases isDigit
  · rfl

theorem IsHyphenated.joinDigits?_eq (h : IsHyphenated text)
    : joinDigits? Char.isDigit text = none :=
  joinDigits?_eq_none h.hyphen rfl (by simp)

theorem IsHyphenated.ne {c : Char} (h : IsHyphenated text) (member : c ∈ text) {other : Char}
    (notDigit : other.isDigit = false) (notHyphen : other ≠ '-')
    : c ≠ other := by
  rintro rfl
  rcases h.numeric c member with isDigit | isHyphen
  · rw [isDigit] at notDigit
    cases notDigit
  · exact notHyphen isHyphen

/-- Digits and hyphens are no word. -/
theorem IsHyphenated.words_eq (h : IsHyphenated text) : words.lookup text = none := by
  obtain ⟨first, rest, rfl, isDigit⟩ := h.exists_digits
  rw [List.lookup_eq_none_iff]
  intro word member
  rw [bne_iff_ne]
  intro same
  simp only [words, List.mem_cons, List.not_mem_nil, or_false] at member
  rcases member with rfl | rfl | rfl | rfl | rfl | rfl | rfl | rfl <;>
    (cases same; cases isDigit)

/-- Digits and hyphens are no integer: no digit marks a base. -/
theorem IsHyphenated.integer?_eq (h : IsHyphenated text) : integer? text = none := by
  unfold integer?
  split
  · rename_i mark digits
    have member : mark ∈ '0' :: mark :: digits := by simp
    have notX : mark ≠ 'x' := h.ne member rfl (by simp)
    have notO : mark ≠ 'o' := h.ne member rfl (by simp)
    have notB : mark ≠ 'b' := h.ne member rfl (by simp)
    have noBase : bases.lookup mark = none := by
      simp [bases, List.lookup_eq_none_iff, notX, notO, notB]
    rw [noBase]
  · simp [h.splitSign_eq, h.joinDigits?_eq]

/-- Digits and hyphens are no number with a point or an exponent. -/
theorem IsHyphenated.float?_eq (h : IsHyphenated text) : float? text = none := by
  have mantissa : text.takeWhile (fun c => c != 'e' && c != 'E') = text := by
    apply List.takeWhile_eq_self_iff.2
    intro c member
    simp [h.ne member]
  have whole : text.takeWhile (fun c => c != '.') = text := by
    apply List.takeWhile_eq_self_iff.2
    intro c member
    simp [h.ne member]
  simp [float?, mantissa, whole, signedDigits?, h.splitSign_eq, h.joinDigits?_eq]

-----------------------------------------------------------------------------------------
-- Dates
-----------------------------------------------------------------------------------------

/-- Digits of the expected number are read as the number that they spell. -/
theorem fixedDigits?_append {digits : List Char} (h : IsDigits digits) (rest : List Char)
    : fixedDigits? digits.length (digits ++ rest)
      = some (Nat.ofDigitChars 10 digits 0, rest) := by
  have all : digits.all Char.isDigit = true := List.all_eq_true.2 h.digits
  simp [fixedDigits?, all, Number.natOfDigits?_eq h]

theorem fixedAfter?_append (mark : Char) {digits : List Char} (h : IsDigits digits)
    (rest : List Char)
    : fixedAfter? mark digits.length (mark :: (digits ++ rest))
      = some (Nat.ofDigitChars 10 digits 0, rest) := by
  rw [fixedAfter?, if_pos rfl, fixedDigits?_append h]

/-- The day of a month with a year of four digits, as natural numbers. -/
structure IsLocal (year month day : Nat) : Prop where
  year_lt : year < 10000
  isDay : Date.IsDay ⟨year, month, day⟩

variable {year month day : Nat}

/-- A local date is written with four, two and two digits. -/
theorem IsLocal.exists_parts (h : IsLocal year month day)
    : ∃ years months days : List Char,
        (Date.text ⟨year, month, day⟩).toList = years ++ '-' :: (months ++ '-' :: days)
        ∧ (IsDigits years ∧ years.length = 4 ∧ Nat.ofDigitChars 10 years 0 = year)
        ∧ (IsDigits months ∧ months.length = 2 ∧ Nat.ofDigitChars 10 months 0 = month)
        ∧ IsDigits days ∧ days.length = 2 ∧ Nat.ofDigitChars 10 days 0 = day := by
  have monthTo : (month : Int) ≤ 12 := h.isDay.monthTo
  have dayTo : (day : Int) ≤ 31 := Int.le_trans h.isDay.dayTo (Date.daysInMonth_le year month)
  have year_lt := h.year_lt
  have written {width n : Nat} (nonempty : 0 < width) (small : n < 10 ^ width)
      : IsDigits (Date.padded width (toString n)).toList
        ∧ (Date.padded width (toString n)).toList.length = width
        ∧ Nat.ofDigitChars 10 (Date.padded width (toString n)).toList 0 = n :=
    ⟨Date.isDigits_padded width n, Date.length_padded nonempty small,
      Date.ofDigitChars_padded width n⟩
  refine ⟨(Date.padded 4 (toString year)).toList, (Date.padded 2 (toString month)).toList,
    (Date.padded 2 (toString day)).toList, ?_, written (by omega) (by omega),
    written (by omega) (by omega), written (by omega) (by omega)⟩
  have notNegative : ¬ (year : Int) < 0 := by omega
  have hyphen : "-".toList = ['-'] := rfl
  simp only [Date.text, Date.yearText, notNegative, if_false, String.toList_append, hyphen,
    List.append_assoc, List.singleton_append]
  rfl

theorem IsLocal.isHyphenated (h : IsLocal year month day)
    : IsHyphenated (Date.text ⟨year, month, day⟩).toList := by
  obtain ⟨years, months, days, eq, ⟨isYear, -⟩, ⟨isMonth, -⟩, isDay, -⟩ := h.exists_parts
  rw [eq]
  refine ⟨?_, by simp, ?_⟩
  · obtain ⟨first, more, rfl, isDigit⟩ := isYear.exists_digit
    exact ⟨first, _, rfl, isDigit⟩
  · intro c member
    simp only [List.mem_append, List.mem_cons] at member
    rcases member with inYear | rfl | inMonth | rfl | inDay
    · exact .inl (isYear.digits c inYear)
    · exact .inr rfl
    · exact .inl (isMonth.digits c inMonth)
    · exact .inr rfl
    · exact .inl (isDay.digits c inDay)

/-- The text of a local date is read as that date. -/
theorem IsLocal.date?_text (h : IsLocal year month day)
    : date? (Date.text ⟨year, month, day⟩).toList = some (⟨year, month, day⟩, true, []) := by
  obtain ⟨years, months, days, eq, ⟨isYear, four, year_eq⟩, ⟨isMonth, two, month_eq⟩, isDay, two',
    day_eq⟩ := h.exists_parts
  have readYear := fixedDigits?_append isYear ('-' :: (months ++ '-' :: days))
  have readMonth := fixedAfter?_append '-' isMonth ('-' :: days)
  have readDay := fixedAfter?_append '-' isDay []
  rw [four, year_eq] at readYear
  rw [two, month_eq] at readMonth
  rw [two', day_eq, List.append_nil] at readDay
  have named : dateOf? year month day = some (⟨year, month, day⟩, true) := by
    have monthFrom : (1 : Int) ≤ month := h.isDay.monthFrom
    have monthTo : (month : Int) ≤ 12 := h.isDay.monthTo
    have dayFrom : (1 : Int) ≤ day := h.isDay.dayFrom
    have dayTo : (day : Int) ≤ Date.daysInMonth year month := h.isDay.dayTo
    have short := Date.daysInMonth_le year month
    have isMonth : (decide (1 ≤ month) && decide (month ≤ 12)) = true := by
      simp only [Bool.and_eq_true, decide_eq_true_eq]
      omega
    have isDay : (decide (1 ≤ day) && decide (day ≤ 31)) = true := by
      simp only [Bool.and_eq_true, decide_eq_true_eq]
      omega
    have exact' : rolledDate year month day = ⟨year, month, day⟩ := by
      rw [rolledDate, if_pos dayTo]
    simp only [dateOf?, isMonth, isDay, Bool.and_self, if_true, exact']
  rw [eq]
  simp only [date?, readYear, readMonth, readDay, named, Option.bind_eq_bind, Option.bind_some]

/-- The text of a local date is read as the time of its midnight. -/
theorem IsLocal.bareValue?_text (h : IsLocal year month day)
    : bareValue? (Date.text ⟨year, month, day⟩).toList
      = some (.time (some ((⟨year, month, day⟩ : Date).dayNumber * Date.millisPerDay))) := by
  have hyphenated := h.isHyphenated
  simp [bareValue?, hyphenated.words_eq, hyphenated.integer?_eq, hyphenated.float?_eq, dateTime?,
    h.date?_text]

end Stencil.Data.Toml
