import Eggserve.Calendar.Gregorian
import Eggserve.Rust.Integer

/-! The civil date of a day since the epoch, computed in closed form. The formula counts
years from the first of March on, so that a leap day ends a year, and in eras of 400 years. -/
namespace Eggserve.Server.Ops
open Rust Calendar

/-- Sums, products and differences of `u64` that panic out of range. -/
def daysToCivil (days : Nat) : MayPanic (Nat × Nat × Nat) := do
  let z ← checkedAdd days 719468
  let era := z / 146097
  let doe ← checkedSub z (← checkedMul era 146097)
  let short ← checkedSub doe (doe / 1460)
  let long ← checkedAdd short (doe / 36524)
  let yoe := (← checkedSub long (doe / 146096)) / 365
  let y ← checkedAdd yoe (← checkedMul era 400)
  let whole ← checkedAdd (← checkedMul 365 yoe) (yoe / 4)
  let doy ← checkedSub doe (← checkedSub whole (yoe / 100))
  let mp := (← checkedAdd (← checkedMul 5 doy) 2) / 153
  let front := (← checkedAdd (← checkedMul 153 mp) 2) / 5
  let d ← checkedAdd (← checkedSub doy front) 1
  (if mp < 10 then checkedAdd mp 3 else checkedSub mp 9).bind fun m =>
    (if m ≤ 2 then checkedAdd y 1 else some y).map fun y => (y, m, d)

/-! Years that start in March. -/

/-- The days of the years of an era before a year of it. -/
def yearStart (yoe : Nat) : Nat := 365 * yoe + yoe / 4 - yoe / 100

/-- The last year of an era has the leap day of the era. -/
def yearDays (yoe : Nat) : Nat :=
  if yoe % 4 = 3 ∧ (yoe % 100 ≠ 99 ∨ yoe = 399) then 366 else 365

/-- The days of an era, less the leap days. -/
def leaplessDays (doe : Nat) : Nat := doe - doe / 1460 + doe / 36524 - doe / 146096

theorem leaplessDays_mono {first last : Nat} (h : first ≤ last) (hEra : last < 146097) :
    leaplessDays first ≤ leaplessDays last := by
  induction h with
  | refl => exact Nat.le_refl _
  | @step last h ih =>
      have hStep : leaplessDays last ≤ leaplessDays (last + 1) := by
        unfold leaplessDays
        omega
      exact Nat.le_trans (ih (Nat.lt_of_succ_lt hEra)) hStep

/-- The formula finds the year at the first and at the last day of each year. -/
theorem year_ends : ∀ yoe < 400, leaplessDays (yearStart yoe) / 365 = yoe ∧
    leaplessDays (yearStart yoe + yearDays yoe - 1) / 365 = yoe := by
  decide +kernel

theorem yearStart_succ : ∀ yoe < 399, yearStart (yoe + 1) = yearStart yoe + yearDays yoe := by
  intro yoe hYear
  unfold yearStart yearDays
  split_ifs <;> omega

/-- Every day of an era is in one of its years. -/
theorem exists_year {doe : Nat} (hEra : doe < 146097) :
    ∃ yoe doy, yoe < 400 ∧ doy < yearDays yoe ∧ doe = yearStart yoe + doy := by
  have hYears : ∀ years < 400, doe < yearStart years →
      ∃ yoe doy, yoe < 400 ∧ doy < yearDays yoe ∧ doe = yearStart yoe + doy := by
    intro years hYears hBefore
    induction years with
    | zero => exact absurd hBefore (Nat.not_lt_zero doe)
    | succ years ih =>
        by_cases hIn : yearStart years ≤ doe
        · have hNext := yearStart_succ years (Nat.lt_of_succ_lt_succ hYears)
          exact ⟨years, doe - yearStart years, by omega, by omega, by omega⟩
        · exact ih (Nat.lt_of_succ_lt hYears) (Nat.not_le.mp hIn)
  by_cases hLast : doe < yearStart 399
  · exact hYears 399 (by decide) hLast
  · have hStart : yearStart 399 = 145731 := rfl
    have hDays : yearDays 399 = 366 := rfl
    exact ⟨399, doe - yearStart 399, by decide, by omega, by omega⟩

/-- The formula finds the year. -/
theorem year_of_day {yoe doy : Nat} (hYear : yoe < 400) (hDay : doy < yearDays yoe) :
    leaplessDays (yearStart yoe + doy) / 365 = yoe := by
  obtain ⟨hFirst, hLast⟩ := year_ends yoe hYear
  have hEra : yearStart yoe + yearDays yoe - 1 < 146097 := by
    unfold yearStart yearDays
    split_ifs <;> omega
  have hLow := Nat.div_le_div_right (c := 365)
    (@leaplessDays_mono (yearStart yoe) (yearStart yoe + doy) (by omega) (by omega))
  have hHigh := Nat.div_le_div_right (c := 365)
    (@leaplessDays_mono (yearStart yoe + doy) (yearStart yoe + yearDays yoe - 1) (by omega) hEra)
  rw [hFirst] at hLow
  rw [hLast] at hHigh
  exact Nat.le_antisymm hHigh hLow

/-! The calendar, seen from the first of March. -/

theorem isLeap_era (era year : Nat) : IsLeap (year + era * 400) ↔ IsLeap year := by
  unfold IsLeap
  omega

/-- The number of the first of March. -/
theorem daysBeforeYear_march (era yoe : Nat) (hYear : yoe < 400) :
    daysBeforeYear (yoe + era * 400) + daysBeforeMonth (yoe + era * 400) 3 =
      era * 146097 + yearStart yoe + 60 := by
  have hYears := daysBeforeYear_eq (yoe + era * 400)
  have hMonths : daysBeforeMonth (yoe + era * 400) 3 = if IsLeap yoe then 60 else 59 := by
    by_cases hLeap : IsLeap yoe
    · simp [daysBeforeMonth, daysOfMonths, monthLength, isLeap_era, hLeap]
    · simp [daysBeforeMonth, daysOfMonths, monthLength, isLeap_era, hLeap]
  have hFirstEra : 365 * yoe + (yoe + 3) / 4 + (yoe + 399) / 400 +
      (if IsLeap yoe then 60 else 59) = yearStart yoe + (yoe + 99) / 100 + 60 := by
    unfold yearStart
    by_cases hLeap : IsLeap yoe
    · rw [if_pos hLeap]
      unfold IsLeap at hLeap
      omega
    · rw [if_neg hLeap]
      unfold IsLeap at hLeap
      omega
  have hFour : (yoe + era * 400 + 3) / 4 = (yoe + 3) / 4 + era * 100 := by omega
  have hHundred : (yoe + era * 400 + 99) / 100 = (yoe + 99) / 100 + era * 4 := by omega
  have hEras : (yoe + era * 400 + 399) / 400 = (yoe + 399) / 400 + era := by omega
  rw [hMonths]
  omega

/-- The lengths of the months from March on do not depend on the year. -/
theorem monthLength_march (year : Nat) : ∀ mp < 10,
    monthLength year (mp + 3) = (153 * (mp + 1) + 2) / 5 - (153 * mp + 2) / 5 := by
  have hLengths : ∀ mp < 10, (if mp + 3 = 4 ∨ mp + 3 = 6 ∨ mp + 3 = 9 ∨ mp + 3 = 11 then 30 else 31) =
      (153 * (mp + 1) + 2) / 5 - (153 * mp + 2) / 5 := by
    decide
  intro mp hMonth
  rw [monthLength, if_neg (by omega)]
  exact hLengths mp hMonth

theorem daysBeforeMonth_march (year mp : Nat) (hMonth : mp < 10) :
    daysBeforeMonth year (mp + 3) = daysBeforeMonth year 3 + (153 * mp + 2) / 5 := by
  induction mp with
  | zero => rfl
  | succ mp ih =>
      have hBefore := ih (Nat.lt_of_succ_lt hMonth)
      have hLength := monthLength_march year mp (Nat.lt_of_succ_lt hMonth)
      have hStep : daysBeforeMonth year (mp + 1 + 3) =
          daysBeforeMonth year (mp + 3) + monthLength year (mp + 3) := rfl
      omega

theorem yearDays_eq (era yoe : Nat) (hYear : yoe < 400) :
    yearDays yoe = if IsLeap (yoe + era * 400 + 1) then 366 else 365 := by
  have hFirstEra : yearDays yoe = if IsLeap (yoe + 1) then 366 else 365 := by
    unfold yearDays
    refine if_congr ?_ rfl rfl
    unfold IsLeap
    omega
  have hSame : yoe + era * 400 + 1 = yoe + 1 + era * 400 := by omega
  rw [hFirstEra, hSame]
  exact if_congr (isLeap_era era (yoe + 1)).symm rfl rfl

/-- A date read off the number of a year from March on and the day in it. -/
theorem exists_date (era yoe doy : Nat) (hYear : yoe < 400) (hDay : doy < yearDays yoe) :
    ∃ date : Date, date.day = doy - (153 * ((5 * doy + 2) / 153) + 2) / 5 + 1 ∧
      date.month = (if (5 * doy + 2) / 153 < 10 then (5 * doy + 2) / 153 + 3
        else (5 * doy + 2) / 153 - 9) ∧
      date.year = (if date.month ≤ 2 then yoe + era * 400 + 1 else yoe + era * 400) ∧
      date.dayNumber = era * 146097 + yearStart yoe + doy + 60 := by
  generalize hmp : (5 * doy + 2) / 153 = mp
  have hMarch := daysBeforeYear_march era yoe hYear
  have hLong : doy < 366 := by
    unfold yearDays at hDay
    split_ifs at hDay <;> omega
  by_cases hMonth : mp < 10
  · have hLength := monthLength_march (yoe + era * 400) mp hMonth
    have hBefore := daysBeforeMonth_march (yoe + era * 400) mp hMonth
    refine ⟨⟨yoe + era * 400, mp + 3, doy - (153 * mp + 2) / 5 + 1, by omega, by omega, by omega,
      by omega⟩, rfl, (if_pos hMonth).symm, ?_, ?_⟩
    · dsimp only
      rw [if_neg (by omega)]
    · simp only [Date.dayNumber]
      omega
  · -- January and February belong to the following year.
    have hEnd : daysBeforeYear (yoe + era * 400 + 1) =
        daysBeforeYear (yoe + era * 400) + (daysBeforeMonth (yoe + era * 400) 3 + 306) := by
      have hDecember : daysBeforeMonth (yoe + era * 400) 12 =
          daysBeforeMonth (yoe + era * 400) 3 + 275 := daysBeforeMonth_march _ 9 (by decide)
      have hLength : monthLength (yoe + era * 400) 12 = 31 := rfl
      have hTwelve : daysBeforeMonth (yoe + era * 400) 12 + monthLength (yoe + era * 400) 12 =
          yearLength (yoe + era * 400) := daysOfMonths_twelve _
      rw [daysBeforeYear]
      omega
    have hLeap := yearDays_eq era yoe hYear
    rcases (by omega : mp = 10 ∨ mp = 11) with rfl | rfl
    · refine ⟨⟨yoe + era * 400 + 1, 1, doy - 306 + 1, by decide, by decide, by omega, ?_⟩,
        rfl, rfl, rfl, ?_⟩
      · show doy - 306 + 1 ≤ 31
        omega
      · simp only [Date.dayNumber, daysBeforeMonth, Nat.sub_self, daysOfMonths]
        omega
    · have hJanuary : daysBeforeMonth (yoe + era * 400 + 1) 2 = 31 := rfl
      refine ⟨⟨yoe + era * 400 + 1, 2, doy - 337 + 1, by decide, by decide, by omega, ?_⟩,
        rfl, rfl, rfl, ?_⟩
      · show doy - 337 + 1 ≤ if IsLeap (yoe + era * 400 + 1) then 29 else 28
        rw [hLeap] at hDay
        split_ifs at hDay ⊢ <;> omega
      · simp only [Date.dayNumber, hJanuary]
        omega

/-! The formula. -/

/-- No operation on the days of a `u64` number of seconds leaves its range, and the result is
the date with the right number. -/
theorem daysToCivil_eq {days : Nat} (hDays : days ≤ u64Max / 86400) :
    ∃ date : Date, daysToCivil days = some (date.year, date.month, date.day) ∧
      date.dayNumber = days + 719528 := by
  have hMax : u64Max = 18446744073709551615 := rfl
  obtain ⟨era, doe, hSplit, hEra⟩ : ∃ era doe, days + 719468 = era * 146097 + doe ∧ doe < 146097 :=
    ⟨(days + 719468) / 146097, (days + 719468) % 146097, by omega, by omega⟩
  obtain ⟨yoe, doy, hYear, hDay, hDoe⟩ := exists_year hEra
  have hYoe := year_of_day hYear hDay
  rw [← hDoe] at hYoe
  have hStart : yearStart yoe ≤ 365 * yoe + yoe / 4 := Nat.sub_le _ _
  obtain ⟨date, hDateDay, hDateMonth, hDateYear, hNumber⟩ := exists_date era yoe doy hYear hDay
  refine ⟨date, ?_, by omega⟩
  have hLong : doy < 366 := by
    unfold yearDays at hDay
    split_ifs at hDay <;> omega
  have hZ : checkedAdd days 719468 = some (era * 146097 + doe) := by
    rw [← hSplit]
    exact checkedAdd_of_le (by omega)
  have hDiv : (era * 146097 + doe) / 146097 = era := by omega
  have hRest : checkedSub (era * 146097 + doe) (era * 146097) = some doe := by
    rw [checkedSub_of_le (Nat.le_add_right _ _), Nat.add_sub_cancel_left]
  have hLeapless : checkedSub (doe - doe / 1460 + doe / 36524) (doe / 146096) =
      some (leaplessDays doe) := checkedSub_of_le (by omega)
  have hWhole : checkedSub (365 * yoe + yoe / 4) (yoe / 100) = some (yearStart yoe) :=
    checkedSub_of_le (by omega)
  have hDoy : checkedSub doe (yearStart yoe) = some doy := by
    rw [hDoe, checkedSub_of_le (Nat.le_add_right _ _), Nat.add_sub_cancel_left]
  have hMonth : (if (5 * doy + 2) / 153 < 10 then checkedAdd ((5 * doy + 2) / 153) 3
      else checkedSub ((5 * doy + 2) / 153) 9) = some date.month := by
    rw [hDateMonth]
    split_ifs with hMarch
    · exact checkedAdd_of_le (by omega)
    · exact checkedSub_of_le (by omega)
  have hLast : (if date.month ≤ 2 then checkedAdd (yoe + era * 400) 1
      else some (yoe + era * 400)) = some date.year := by
    rw [hDateYear]
    split_ifs
    · exact checkedAdd_of_le (by omega)
    · rfl
  unfold daysToCivil
  rw [hZ, Option.bind_eq_bind, Option.bind_some]
  dsimp only
  rw [hDiv, checkedMul_of_le (by omega), Option.bind_some, hRest, Option.bind_some,
    checkedSub_of_le (Nat.div_le_self doe 1460), Option.bind_some, checkedAdd_of_le (by omega),
    Option.bind_some, hLeapless, Option.bind_some, hYoe, checkedMul_of_le (by omega),
    Option.bind_some, checkedAdd_of_le (by omega), Option.bind_some,
    checkedMul_of_le (by omega), Option.bind_some, checkedAdd_of_le (by omega),
    Option.bind_some, hWhole, Option.bind_some, hDoy, Option.bind_some,
    checkedMul_of_le (by omega), Option.bind_some, checkedAdd_of_le (by omega),
    Option.bind_some, checkedMul_of_le (by omega), Option.bind_some,
    checkedAdd_of_le (by omega), Option.bind_some, checkedSub_of_le (by omega),
    Option.bind_some, checkedAdd_of_le (by omega), Option.bind_some, hMonth, Option.bind_some,
    hLast, Option.map_some, hDateDay]

theorem epoch_pos : 1 ≤ 1 := Nat.le_refl 1

theorem epoch_month_le : 1 ≤ 12 := by decide

theorem epoch_day_le : 1 ≤ monthLength 1970 1 := by decide

def epoch : Date := ⟨1970, 1, 1, epoch_pos, epoch_month_le, epoch_pos, epoch_day_le⟩

theorem epoch_dayNumber : epoch.dayNumber = 719528 := by
  have hYears := daysBeforeYear_eq 1970
  simp only [Date.dayNumber, epoch, daysBeforeMonth, Nat.sub_self, daysOfMonths]
  omega

/-- The date of the day of an instant is the one whose day count from the epoch is the number
of that day; the day after it has the next date, and another day another date. -/
theorem civil_dates_right (secs : UInt64) :
    ∃ date : Date, daysToCivil (secs.toNat / 86400) = some (date.year, date.month, date.day) ∧
      date.dayNumber = epoch.dayNumber + secs.toNat / 86400 ∧
      (∀ later : UInt64, later.toNat / 86400 = secs.toNat / 86400 + 1 →
        daysToCivil (later.toNat / 86400) =
          some (date.next.year, date.next.month, date.next.day)) ∧
      ∀ other : UInt64, daysToCivil (other.toNat / 86400) = daysToCivil (secs.toNat / 86400) →
        other.toNat / 86400 = secs.toNat / 86400 := by
  have hDate : ∀ instant : UInt64, ∃ date : Date,
      daysToCivil (instant.toNat / 86400) = some (date.year, date.month, date.day) ∧
        date.dayNumber = epoch.dayNumber + instant.toNat / 86400 := by
    intro instant
    have hRange : instant.toNat ≤ u64Max := Nat.le_sub_one_of_lt instant.toNat_lt
    obtain ⟨date, hCivil, hNumber⟩ := daysToCivil_eq (Nat.div_le_div_right (c := 86400) hRange)
    exact ⟨date, hCivil, by rw [hNumber, epoch_dayNumber, Nat.add_comm]⟩
  obtain ⟨date, hCivil, hNumber⟩ := hDate secs
  refine ⟨date, hCivil, hNumber, fun later hLater => ?_, fun other hOther => ?_⟩
  · obtain ⟨following, hFollowing, hNext⟩ := hDate later
    have hSame : following = date.next := by
      apply Date.dayNumber_injective
      rw [hNext, hLater, Date.dayNumber_next, hNumber, Nat.add_assoc]
    rw [hFollowing, hSame]
  · obtain ⟨same, hSame, hCount⟩ := hDate other
    rw [hSame, hCivil, Option.some.injEq, Prod.mk.injEq, Prod.mk.injEq] at hOther
    have hDates : same = date := Date.ext hOther.1 hOther.2.1 hOther.2.2
    rw [hDates, hNumber] at hCount
    omega

end Eggserve.Server.Ops
