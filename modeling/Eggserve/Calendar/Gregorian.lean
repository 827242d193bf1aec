import Mathlib.Tactic.SplitIfs

/-! The proleptic Gregorian calendar from the year zero on. A date carries that its month
and its day exist. -/
namespace Calendar

def IsLeap (year : Nat) : Prop := year % 4 = 0 ∧ (year % 100 ≠ 0 ∨ year % 400 = 0)

instance (year : Nat) : Decidable (IsLeap year) :=
  inferInstanceAs (Decidable (year % 4 = 0 ∧ (year % 100 ≠ 0 ∨ year % 400 = 0)))

def monthLength (year month : Nat) : Nat :=
  if month = 2 then if IsLeap year then 29 else 28
  else if month = 4 ∨ month = 6 ∨ month = 9 ∨ month = 11 then 30
  else 31

def yearLength (year : Nat) : Nat := if IsLeap year then 366 else 365

@[ext]
structure Date where
  year : Nat
  month : Nat
  day : Nat
  month_pos : 1 ≤ month
  month_le : month ≤ 12
  day_pos : 1 ≤ day
  day_le : day ≤ monthLength year month

/-- The days of the years before a year. -/
def daysBeforeYear : Nat → Nat
  | 0 => 0
  | year + 1 => daysBeforeYear year + yearLength year

/-- The days of the first months of a year. -/
def daysOfMonths (year : Nat) : Nat → Nat
  | 0 => 0
  | month + 1 => daysOfMonths year month + monthLength year (month + 1)

/-- The days of a year in front of a month. -/
def daysBeforeMonth (year month : Nat) : Nat := daysOfMonths year (month - 1)

namespace Date

/-- The number of days from the first day of the year zero on. -/
def dayNumber (date : Date) : Nat :=
  daysBeforeYear date.year + daysBeforeMonth date.year date.month + (date.day - 1)

end Date

theorem monthLength_pos (year month : Nat) : 1 ≤ monthLength year month := by
  unfold monthLength
  split_ifs <;> decide

theorem daysOfMonths_twelve (year : Nat) : daysOfMonths year 12 = yearLength year := by
  by_cases hLeap : IsLeap year
  · simp [daysOfMonths, monthLength, yearLength, hLeap]
  · simp [daysOfMonths, monthLength, yearLength, hLeap]

theorem daysOfMonths_mono (year : Nat) {first last : Nat} (h : first ≤ last) :
    daysOfMonths year first ≤ daysOfMonths year last := by
  induction h with
  | refl => exact Nat.le_refl _
  | step _ ih => exact Nat.le_trans ih (Nat.le_add_right _ _)

theorem daysBeforeYear_mono {first last : Nat} (h : first ≤ last) :
    daysBeforeYear first ≤ daysBeforeYear last := by
  induction h with
  | refl => exact Nat.le_refl _
  | step _ ih => exact Nat.le_trans ih (Nat.le_add_right _ _)

/-- A quotient grows where the divisor divides. -/
theorem succ_add_div (year n : Nat) :
    (year + 1 + n) / (n + 1) = (year + n) / (n + 1) + if year % (n + 1) = 0 then 1 else 0 := by
  have hSucc : year + 1 + n = year + n + 1 := by omega
  have hDvd : n + 1 ∣ year + n + 1 ↔ year % (n + 1) = 0 := by
    rw [Nat.add_assoc, Nat.dvd_add_left (Nat.dvd_refl _), Nat.dvd_iff_mod_eq_zero]
  rw [hSucc, Nat.succ_div]
  simp only [hDvd]

/-- The leap day of every fourth year, without the hundredth but with the four hundredth. -/
theorem yearLength_eq (year : Nat) : yearLength year + (if year % 100 = 0 then 1 else 0) =
    365 + (if year % 4 = 0 then 1 else 0) + if year % 400 = 0 then 1 else 0 := by
  unfold yearLength IsLeap
  by_cases hFour : year % 4 = 0
  · by_cases hHundred : year % 100 = 0
    · simp only [hFour, hHundred]
      by_cases hCycle : year % 400 = 0
      · simp [hCycle]
      · simp [hCycle]
    · have hCycle : year % 400 ≠ 0 := by omega
      simp [hFour, hHundred, hCycle]
  · have hHundred : year % 100 ≠ 0 := by omega
    have hCycle : year % 400 ≠ 0 := by omega
    simp [hFour, hHundred, hCycle]

/-- The days of the years before a year, without a recursion. -/
theorem daysBeforeYear_eq (year : Nat) :
    daysBeforeYear year + (year + 99) / 100 =
      365 * year + (year + 3) / 4 + (year + 399) / 400 := by
  induction year with
  | zero => rfl
  | succ year ih =>
      rw [daysBeforeYear, succ_add_div year 99, succ_add_div year 3, succ_add_div year 399]
      have hLength := yearLength_eq year
      generalize (if year % 4 = 0 then 1 else 0) = four at *
      generalize (if year % 100 = 0 then 1 else 0) = hundred at *
      generalize (if year % 400 = 0 then 1 else 0) = cycle at *
      generalize (year + 99) / 100 = hundreds at *
      generalize (year + 3) / 4 = fours at *
      generalize (year + 399) / 400 = cycles at *
      omega

namespace Date

/-- The days of a date's month are within its year. -/
theorem daysBeforeMonth_add_day (date : Date) :
    daysBeforeMonth date.year date.month + date.day ≤ daysOfMonths date.year date.month := by
  obtain ⟨year, month, day, hMonth, hTwelve, hDay, hLast⟩ := date
  cases month with
  | zero => cases hMonth
  | succ month => exact Nat.add_le_add_left hLast _

theorem dayNumber_lt_next_year (date : Date) : date.dayNumber < daysBeforeYear (date.year + 1) := by
  have hMonth := date.daysBeforeMonth_add_day
  have hYear := daysOfMonths_mono date.year date.month_le
  rw [daysOfMonths_twelve] at hYear
  have hDay := date.day_pos
  rw [dayNumber, daysBeforeYear]
  omega

theorem dayNumber_lt_of_year {first second : Date} (h : first.year < second.year) :
    first.dayNumber < second.dayNumber := by
  have hLater : daysBeforeYear (first.year + 1) ≤ daysBeforeYear second.year :=
    daysBeforeYear_mono h
  have hFirst := first.dayNumber_lt_next_year
  have hSecond : daysBeforeYear second.year ≤ second.dayNumber := by
    rw [dayNumber, Nat.add_assoc]
    exact Nat.le_add_right _ _
  exact Nat.lt_of_lt_of_le hFirst (Nat.le_trans hLater hSecond)

theorem dayNumber_lt_of_month {first second : Date} (hYear : first.year = second.year)
    (h : first.month < second.month) : first.dayNumber < second.dayNumber := by
  have hLater : daysOfMonths second.year first.month ≤
      daysBeforeMonth second.year second.month := daysOfMonths_mono _ (Nat.le_sub_one_of_lt h)
  have hFirst := first.daysBeforeMonth_add_day
  have hDay := first.day_pos
  rw [hYear] at hFirst
  rw [dayNumber, dayNumber, hYear]
  omega

/-- Dates are ordered by the year, then by the month, then by the day. -/
theorem dayNumber_lt {first second : Date} (h : first.dayNumber < second.dayNumber) :
    first.year < second.year ∨ first.year = second.year ∧
      (first.month < second.month ∨ first.month = second.month ∧ first.day < second.day) := by
  rcases Nat.lt_trichotomy first.year second.year with hBefore | hYear | hAfter
  · exact Or.inl hBefore
  · rcases Nat.lt_trichotomy first.month second.month with hBefore | hMonth | hAfter
    · exact Or.inr ⟨hYear, Or.inl hBefore⟩
    · rw [dayNumber, dayNumber, hYear, hMonth] at h
      exact Or.inr ⟨hYear, Or.inr ⟨hMonth, by omega⟩⟩
    · exact absurd (dayNumber_lt_of_month hYear.symm hAfter) (Nat.lt_asymm h)
  · exact absurd (dayNumber_lt_of_year hAfter) (Nat.lt_asymm h)

/-- Distinct dates have distinct numbers. -/
theorem dayNumber_injective {first second : Date} (h : first.dayNumber = second.dayNumber) :
    first = second := by
  rcases Nat.lt_trichotomy first.year second.year with hBefore | hYear | hAfter
  · exact absurd h (Nat.ne_of_lt (dayNumber_lt_of_year hBefore))
  · rcases Nat.lt_trichotomy first.month second.month with hBefore | hMonth | hAfter
    · exact absurd h (Nat.ne_of_lt (dayNumber_lt_of_month hYear hBefore))
    · have hFirstDay := first.day_pos
      have hSecondDay := second.day_pos
      rw [dayNumber, dayNumber, hYear, hMonth] at h
      exact Date.ext hYear hMonth (by omega)
    · exact absurd h.symm (Nat.ne_of_lt (dayNumber_lt_of_month hYear.symm hAfter))
  · exact absurd h.symm (Nat.ne_of_lt (dayNumber_lt_of_year hAfter))

/-- The date of the following day. -/
def next (date : Date) : Date :=
  if hDay : date.day < monthLength date.year date.month then
    { date with day := date.day + 1, day_pos := Nat.le_add_left _ _, day_le := hDay }
  else if hMonth : date.month < 12 then
    { year := date.year, month := date.month + 1, day := 1
      month_pos := Nat.le_add_left _ _, month_le := hMonth
      day_pos := Nat.le_refl _, day_le := monthLength_pos _ _ }
  else
    { year := date.year + 1, month := 1, day := 1
      month_pos := Nat.le_refl _, month_le := by decide
      day_pos := Nat.le_refl _, day_le := monthLength_pos _ _ }

theorem dayNumber_next (date : Date) : date.next.dayNumber = date.dayNumber + 1 := by
  have hPos := date.day_pos
  have hLe := date.day_le
  have hMonthPos := date.month_pos
  rw [next]
  split_ifs with hDay hMonth
  · simp only [dayNumber]
    omega
  · have hMonths : daysBeforeMonth date.year (date.month + 1) =
        daysBeforeMonth date.year date.month + monthLength date.year date.month := by
      obtain ⟨month, hSucc⟩ := Nat.exists_eq_succ_of_ne_zero (Nat.ne_of_gt hMonthPos)
      rw [hSucc]
      rfl
    simp only [dayNumber, hMonths]
    omega
  · have hLast : date.month = 12 := Nat.le_antisymm date.month_le (Nat.not_lt.mp hMonth)
    have hYear : daysOfMonths date.year 11 + monthLength date.year 12 = yearLength date.year :=
      daysOfMonths_twelve date.year
    rw [hLast] at hDay hLe
    simp only [dayNumber, daysBeforeYear, hLast, daysBeforeMonth, ← hYear, Nat.add_one_sub_one,
      Nat.sub_self, daysOfMonths]
    omega

end Date

end Calendar
