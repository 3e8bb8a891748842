import Mathlib.Data.String.Basic
import Stencil.Proofs.Number.DigitTexts
import Stencil.Proofs.Value.ExactDates

/-! The texts of dates. A date can be told from its text, whatever the sign and the length of its
year: the month and the day take two digits each at the end. For years of four digits the texts come
in the order of the dates, since numbers with equally many digits come in the order of their digits.
-/

namespace Stencil

-----------------------------------------------------------------------------------------
-- The order of digit texts
-----------------------------------------------------------------------------------------

namespace Number

variable {text other more others : List Char}

/-- A number is spelled by so many digits. -/
structure Spells (text : List Char) (width n : Nat) : Prop where
  isDigits : IsDigits text
  length : text.length = width
  value : Nat.ofDigitChars 10 text 0 = n

/-- Texts whose first parts are equally long are in the order of those, and where they are the same
in the order of the rest.
-/
theorem append_lt_append_iff (length : text.length = other.length)
    : text ++ more < other ++ others ↔ text < other ∨ text = other ∧ more < others := by
  induction text generalizing other with
  | nil =>
      obtain rfl := List.length_eq_zero_iff.1 length.symm
      simp
  | cons c text ih =>
      cases other with
      | nil => cases length
      | cons d other =>
          simp only [List.cons_append, List.cons_lt_cons_iff, ih (Nat.succ.inj length),
            List.cons.injEq]
          tauto

/-- A digit comes before another one if its number is smaller. -/
theorem lt_iff_toNat_lt {c d : Char} : c < d ↔ c.toNat < d.toNat := by
  rw [Char.lt_def, UInt32.lt_iff_toNat_lt]
  rfl

/-- Of equally many digits, the ones that go on from a smaller number spell a smaller number; those
that go on from the same number spell a smaller number if they come first. By induction on the
digits, each of which is less than ten.
-/
theorem ofDigitChars_lt_iff (digits : ∀ c ∈ text, c.isDigit = true)
    (digits' : ∀ c ∈ other, c.isDigit = true) (length : text.length = other.length)
    (first second : Nat)
    : Nat.ofDigitChars 10 text first < Nat.ofDigitChars 10 other second
      ↔ first < second ∨ first = second ∧ text < other := by
  induction text generalizing other first second with
  | nil =>
      obtain rfl := List.length_eq_zero_iff.1 length.symm
      simp
  | cons c text ih =>
      cases other with
      | nil => cases length
      | cons d other =>
          rw [List.forall_mem_cons] at digits digits'
          have range := toNat_of_isDigit digits.1
          have range' := toNat_of_isDigit digits'.1
          have same : c = d ↔ c.toNat = d.toNat := Char.toNat_inj.symm
          rw [Nat.ofDigitChars_cons, Nat.ofDigitChars_cons,
            ih digits.2 digits'.2 (Nat.succ.inj length), List.cons_lt_cons_iff, lt_iff_toNat_lt, same]
          by_cases before : text < other
          · simp only [before, and_true]
            omega
          · simp only [before, and_false, or_false]
            omega

namespace Spells

variable {width n m : Nat}

theorem lt_iff (h : Spells text width n) (h' : Spells other width m) : text < other ↔ n < m := by
  have length : text.length = other.length := h.length.trans h'.length.symm
  rw [← h.value, ← h'.value,
    ofDigitChars_lt_iff h.isDigits.digits h'.isDigits.digits length 0 0]
  simp

theorem eq_iff (h : Spells text width n) (h' : Spells other width m) : text = other ↔ n = m := by
  constructor
  · rintro rfl
    exact h.value.symm.trans h'.value
  · rintro rfl
    rcases lt_trichotomy text other with less | same | more
    · exact absurd ((h.lt_iff h').1 less) (Nat.lt_irrefl n)
    · exact same
    · exact absurd ((h'.lt_iff h).1 more) (Nat.lt_irrefl n)

end Spells

end Number

-----------------------------------------------------------------------------------------
-- The parts of a date text
-----------------------------------------------------------------------------------------

namespace Date

open Number (IsDigits Spells)

variable {date other : Date}

theorem spells_padded {width n : Nat} (nonempty : 0 < width) (small : n < 10 ^ width)
    : Spells (padded width (toString n)).toList width n :=
  ⟨isDigits_padded width n, length_padded nonempty small, ofDigitChars_padded width n⟩

theorem toString_of_nonneg {n : Int} (nonneg : 0 ≤ n) : toString n = toString n.toNat := by
  obtain ⟨m, rfl⟩ := Int.eq_ofNat_of_zero_le nonneg
  rfl

/-- The text of a day is its year, two digits for its month and two digits for its day. -/
theorem IsDay.exists_parts (h : date.IsDay)
    : ∃ months days : List Char,
        date.text.toList = (yearText date.year).toList ++ '-' :: (months ++ '-' :: days)
        ∧ Spells months 2 date.month.toNat
        ∧ Spells days 2 date.day.toNat := by
  have short := daysInMonth_le date.year date.month
  obtain ⟨monthFrom, monthTo, dayFrom, dayTo⟩ := h
  have hyphen : "-".toList = ['-'] := rfl
  refine ⟨(padded 2 (toString date.month)).toList, (padded 2 (toString date.day)).toList, ?_, ?_, ?_⟩
  · simp only [text, String.toList_append, hyphen, List.append_assoc, List.cons_append,
      List.nil_append]
  · rw [toString_of_nonneg (by omega)]
    exact spells_padded (by omega) (by omega)
  · rw [toString_of_nonneg (by omega)]
    exact spells_padded (by omega) (by omega)

/-- A year that is not negative is written in digits, at least four of them. -/
theorem yearText_of_nonneg {year : Int} (nonneg : 0 ≤ year)
    : yearText year = padded 4 (toString year.toNat) := by
  rw [yearText, if_neg (Int.not_lt.2 nonneg), toString_of_nonneg nonneg]

/-- A year can be told from its text: only that of a negative one has a sign, and zeros in front do
not change the number.
-/
theorem yearText_inj {year later : Int} (same : yearText year = yearText later) : year = later := by
  have unsigned (n : Nat) : '-' ∉ (padded 4 (toString n)).toList :=
    (isDigits_padded 4 n).not_mem rfl
  have value {n m : Nat} (eq : (padded 4 (toString n)).toList = (padded 4 (toString m)).toList)
      : n = m := by
    rw [← ofDigitChars_padded 4 n, eq, ofDigitChars_padded]
  have signed {year : Int} (negative : year < 0)
      : (yearText year).toList = '-' :: (padded 4 (toString year.natAbs)).toList := by
    rw [yearText, if_pos negative, String.toList_append]
    rfl
  have chars := congrArg String.toList same
  rcases Int.lt_or_le year 0 with negative | nonneg
  · rw [signed negative] at chars
    rcases Int.lt_or_le later 0 with negative' | nonneg'
    · rw [signed negative', List.cons.injEq] at chars
      have := value chars.2
      omega
    · rw [yearText_of_nonneg nonneg'] at chars
      exact absurd (chars ▸ List.mem_cons_self ..) (unsigned _)
  · rw [yearText_of_nonneg nonneg] at chars
    rcases Int.lt_or_le later 0 with negative' | nonneg'
    · rw [signed negative'] at chars
      exact absurd (chars ▸ List.mem_cons_self ..) (unsigned _)
    · rw [yearText_of_nonneg nonneg'] at chars
      have := value chars
      omega

/-- A day can be told from its text. The digits of the month and of the day are taken off its end,
since the length of the year is not known.
-/
theorem IsDay.eq_of_text_eq (h : date.IsDay) (h' : other.IsDay) (same : date.text = other.text)
    : date = other := by
  obtain ⟨months, days, eq, isMonth, isDay⟩ := h.exists_parts
  obtain ⟨months', days', eq', isMonth', isDay'⟩ := h'.exists_parts
  have chars := congrArg String.toList same
  have length : months.length = months'.length := isMonth.length.trans isMonth'.length.symm
  rw [eq, eq'] at chars
  obtain ⟨years, behind⟩ := List.append_inj' chars
    (by simp [length, isDay.length, isDay'.length])
  obtain ⟨sameMonths, behind⟩ := List.append_inj (List.cons.inj behind).2 length
  have year := yearText_inj (String.toList_inj.1 years)
  have month := (isMonth.eq_iff isMonth').1 sameMonths
  have day := (isDay.eq_iff isDay').1 (List.cons.inj behind).2
  obtain ⟨monthFrom, -, dayFrom, -⟩ := h
  obtain ⟨monthFrom', -, dayFrom', -⟩ := h'
  obtain ⟨_, _, _⟩ := date
  obtain ⟨_, _, _⟩ := other
  simp only [Date.mk.injEq] at *
  omega

/-- Days with years of four digits have texts in the order of the days. -/
theorem IsDay.text_lt_iff (h : date.IsDay) (h' : other.IsDay)
    (year : 0 ≤ date.year ∧ date.year ≤ 9999) (year' : 0 ≤ other.year ∧ other.year ≤ 9999)
    : date.text < other.text ↔ date.Before other := by
  obtain ⟨months, days, eq, isMonth, isDay⟩ := h.exists_parts
  obtain ⟨months', days', eq', isMonth', isDay'⟩ := h'.exists_parts
  have isYear : Spells (yearText date.year).toList 4 date.year.toNat := by
    rw [yearText_of_nonneg year.1]
    exact spells_padded (by omega) (by omega)
  have isYear' : Spells (yearText other.year).toList 4 other.year.toNat := by
    rw [yearText_of_nonneg year'.1]
    exact spells_padded (by omega) (by omega)
  have hyphen : ¬ '-' < '-' := by decide
  rw [String.lt_iff_toList_lt, eq, eq',
    Number.append_lt_append_iff (isYear.length.trans isYear'.length.symm), List.cons_lt_cons_iff,
    Number.append_lt_append_iff (isMonth.length.trans isMonth'.length.symm), List.cons_lt_cons_iff,
    isYear.lt_iff isYear', isYear.eq_iff isYear', isMonth.lt_iff isMonth',
    isMonth.eq_iff isMonth', isDay.lt_iff isDay']
  simp only [hyphen, true_and, false_or, Before]
  have monthFrom := h.monthFrom
  have dayFrom := h.dayFrom
  have monthFrom' := h'.monthFrom
  have dayFrom' := h'.dayFrom
  omega

-----------------------------------------------------------------------------------------
-- Exactness
-----------------------------------------------------------------------------------------

/-- Dates that are made of numbers can be told from their texts, whatever the sign and the length of
their years. With years from 0 to 9999 the texts come in the order of the dates, which is the order
in which the days are counted.
-/
theorem texts_exact {year month day year' month' day' : Number}
    (made : ofNumbers year month day = .ok date)
    (made' : ofNumbers year' month' day' = .ok other)
    : (date.text = other.text ↔ date = other)
      ∧ (0 ≤ date.year ∧ date.year ≤ 9999 → 0 ≤ other.year ∧ other.year ≤ 9999 →
          (date.text < other.text ↔ date.Before other)
          ∧ (date.text < other.text ↔ date.dayNumber < other.dayNumber)) := by
  obtain ⟨-, isDay, -⟩ := ofNumbers_eq_ok_iff.1 made
  obtain ⟨-, isDay', -⟩ := ofNumbers_eq_ok_iff.1 made'
  constructor
  · exact ⟨isDay.eq_of_text_eq isDay', congrArg text⟩
  · intro years years'
    have order := isDay.text_lt_iff isDay' years years'
    exact ⟨order, order.trans (isDay.before_iff isDay')⟩

/-- The last day of 999 comes before the first day of 1000, with a zero in front of its year. The
last day of the year -999 has a text of its own.
-/
theorem texts_exact_zeros
    : let last : Date := ⟨999, 12, 31⟩
      let next : Date := ⟨1000, 1, 1⟩
      let mirrored : Date := ⟨-999, 12, 31⟩
      (ofNumbers (.ofInt 999) (.ofInt 12) (.ofInt 31) = .ok last
        ∧ ofNumbers (.ofInt 1000) (.ofInt 1) (.ofInt 1) = .ok next
        ∧ ofNumbers (.ofInt (-999)) (.ofInt 12) (.ofInt 31) = .ok mirrored)
      ∧ last.text < next.text
      ∧ mirrored.text ≠ last.text := by
  intro last next mirrored
  have made : ofNumbers (.ofInt 999) (.ofInt 12) (.ofInt 31) = .ok last :=
    ofNumbers_ofInt_eq_ok_iff.2 ⟨rfl, ⟨by decide, by decide, by decide, by decide⟩, by decide⟩
  have made' : ofNumbers (.ofInt 1000) (.ofInt 1) (.ofInt 1) = .ok next :=
    ofNumbers_ofInt_eq_ok_iff.2 ⟨rfl, ⟨by decide, by decide, by decide, by decide⟩, by decide⟩
  have made'' : ofNumbers (.ofInt (-999)) (.ofInt 12) (.ofInt 31) = .ok mirrored :=
    ofNumbers_ofInt_eq_ok_iff.2 ⟨rfl, ⟨by decide, by decide, by decide, by decide⟩, by decide⟩
  refine ⟨⟨made, made', made''⟩, ?_, ?_⟩
  · exact ((texts_exact made made').2 (by decide) (by decide)).2.2 (by decide)
  · intro same
    exact absurd ((texts_exact made'' made).1.1 same) (by decide)

end Date

end Stencil
