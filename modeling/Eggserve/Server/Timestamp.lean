import Eggserve.Rust.Padded
import Eggserve.Server.CivilDate

/-! The timestamps of log events, and their order as texts. -/
namespace Eggserve.Server.Ops
open Rust Calendar

/-- The time since the epoch that the clock shows. -/
structure ClockTime where
  secs : UInt64
  millis : Nat
  millis_lt : millis < 1000

/-- The text of `rfc3339_now` at a time. -/
def rfc3339 (time : ClockTime) : MayPanic Str := do
  let daysSinceEpoch := time.secs.toNat / 86400
  let timeOfDay := time.secs.toNat % 86400
  let hours := timeOfDay / 3600
  let minutes := timeOfDay % 3600 / 60
  let seconds := timeOfDay % 60
  let (year, month, day) ← daysToCivil daysSinceEpoch
  return padded 4 year ++ ('-' :: (padded 2 month ++ ('-' :: (padded 2 day ++
    ('T' :: (padded 2 hours ++ (':' :: (padded 2 minutes ++ (':' :: (padded 2 seconds ++
      ('.' :: (padded 3 time.millis ++ ['Z']))))))))))))

def ClockTime.Before (first second : ClockTime) : Prop :=
  first.secs.toNat < second.secs.toNat ∨
    first.secs.toNat = second.secs.toNat ∧ first.millis < second.millis

/-- A number decides, or else what stands behind it. -/
theorem padded_append_lt {width n m : Nat} (hWidth : 0 < width) (hn : n < 10 ^ width)
    (hm : m < 10 ^ width) (separator : Char) {rest later : Str}
    (h : n < m ∨ n = m ∧ rest < later) :
    padded width n ++ separator :: rest < padded width m ++ separator :: later := by
  rcases h with hNumber | ⟨rfl, hRest⟩
  · apply append_lt_append
    · rw [length_padded hWidth hn, length_padded hWidth hm]
    · exact padded_lt hWidth hm hNumber
  · apply append_lt_append_left
    exact List.Lex.cons hRest

/-- The time of day is ordered by the hour, then by the minute, then by the second. -/
theorem timeOfDay_lt {first second : Nat} (h : first < second) :
    first / 3600 < second / 3600 ∨ first / 3600 = second / 3600 ∧
      (first % 3600 / 60 < second % 3600 / 60 ∨ first % 3600 / 60 = second % 3600 / 60 ∧
        first % 60 < second % 60) := by
  omega

/-- The numbers of a timestamp. -/
structure Stamp where
  date : Date
  time : ClockTime
  sameDay : date.dayNumber = time.secs.toNat / 86400 + 719528
  year_lt : date.year < 10000

namespace Stamp

def text (stamp : Stamp) : Str :=
  let timeOfDay := stamp.time.secs.toNat % 86400
  padded 4 stamp.date.year ++ ('-' :: (padded 2 stamp.date.month ++ ('-' ::
    (padded 2 stamp.date.day ++ ('T' :: (padded 2 (timeOfDay / 3600) ++ (':' ::
      (padded 2 (timeOfDay % 3600 / 60) ++ (':' :: (padded 2 (timeOfDay % 60) ++ ('.' ::
        (padded 3 stamp.time.millis ++ ['Z']))))))))))))

theorem day_lt (date : Date) : date.day < 10 ^ 2 := by
  have hMonth : monthLength date.year date.month ≤ 31 := by
    unfold monthLength
    split_ifs <;> decide
  have hDay := date.day_le
  omega

theorem text_lt {first second : Stamp} (h : first.time.Before second.time) :
    first.text < second.text := by
  have hFirstDay : first.time.secs.toNat % 86400 < 86400 := Nat.mod_lt _ (by decide)
  have hSecondDay : second.time.secs.toNat % 86400 < 86400 := Nat.mod_lt _ (by decide)
  have hFirstMonth := first.date.month_le
  have hSecondMonth := second.date.month_le
  have hFirstMillis := first.time.millis_lt
  have hSecondMillis := second.time.millis_lt
  -- The text behind the date, where the day is the same.
  have hClock : first.time.secs.toNat / 86400 = second.time.secs.toNat / 86400 →
      padded 2 (first.time.secs.toNat % 86400 / 3600) ++ (':' ::
        (padded 2 (first.time.secs.toNat % 86400 % 3600 / 60) ++ (':' ::
          (padded 2 (first.time.secs.toNat % 86400 % 60) ++ ('.' ::
            (padded 3 first.time.millis ++ ['Z'])))))) <
      padded 2 (second.time.secs.toNat % 86400 / 3600) ++ (':' ::
        (padded 2 (second.time.secs.toNat % 86400 % 3600 / 60) ++ (':' ::
          (padded 2 (second.time.secs.toNat % 86400 % 60) ++ ('.' ::
            (padded 3 second.time.millis ++ ['Z'])))))) := by
    intro hSameDay
    rcases h with hSecs | ⟨hSecs, hMillis⟩
    · have hOrder := @timeOfDay_lt (first.time.secs.toNat % 86400)
        (second.time.secs.toNat % 86400) (by omega)
      apply padded_append_lt (by decide) (by omega) (by omega)
      apply hOrder.imp_right
      intro hHours
      refine ⟨hHours.1, padded_append_lt (by decide) (by omega) (by omega) _ ?_⟩
      apply hHours.2.imp_right
      intro hMinutes
      exact ⟨hMinutes.1,
        padded_append_lt (by decide) (by omega) (by omega) _ (Or.inl hMinutes.2)⟩
    · rw [hSecs]
      apply append_lt_append_left
      apply List.Lex.cons
      apply append_lt_append_left
      apply List.Lex.cons
      apply append_lt_append_left
      apply List.Lex.cons
      exact padded_append_lt (by decide) hFirstMillis hSecondMillis _ (Or.inl hMillis)
  have hDays : first.time.secs.toNat / 86400 < second.time.secs.toNat / 86400 ∨
      first.time.secs.toNat / 86400 = second.time.secs.toNat / 86400 := by
    rcases h with hSecs | ⟨hSecs, -⟩
    · omega
    · exact Or.inr (congrArg (· / 86400) hSecs)
  have hFirstNumber := first.sameDay
  have hSecondNumber := second.sameDay
  unfold text
  apply padded_append_lt (by decide) first.year_lt second.year_lt
  rcases hDays with hBefore | hSameDay
  · apply (Date.dayNumber_lt (by omega : first.date.dayNumber < second.date.dayNumber)).imp_right
    intro hYear
    refine ⟨hYear.1, padded_append_lt (by decide) (by omega) (by omega) _ ?_⟩
    apply hYear.2.imp_right
    intro hMonth
    exact ⟨hMonth.1,
      padded_append_lt (by decide) (day_lt _) (day_lt _) _ (Or.inl hMonth.2)⟩
  · have hDate : first.date = second.date := Date.dayNumber_injective (by omega)
    rw [hDate]
    refine Or.inr ⟨rfl, padded_append_lt (by decide) (by omega) (by omega) _ ?_⟩
    refine Or.inr ⟨rfl, padded_append_lt (by decide) (day_lt _) (day_lt _) _ ?_⟩
    exact Or.inr ⟨rfl, hClock hSameDay⟩

theorem text_congr {first second : Stamp} (hSecs : first.time.secs.toNat = second.time.secs.toNat)
    (hMillis : first.time.millis = second.time.millis) : first.text = second.text := by
  have hNumber : first.date.dayNumber = second.date.dayNumber := by
    rw [first.sameDay, second.sameDay, hSecs]
  rw [text, text, Date.dayNumber_injective hNumber, hSecs, hMillis]

theorem ne_of_text_lt {first second : Stamp} (h : first.text < second.text) :
    first.text ≠ second.text := fun hSame => List.lt_irrefl _ (hSame ▸ h)

end Stamp

/-- A time up to the end of the year 9999 has a timestamp. -/
theorem rfc3339_eq (time : ClockTime) (hEnd : time.secs.toNat < 253402300800) :
    ∃ stamp : Stamp, stamp.time = time ∧ rfc3339 time = some stamp.text := by
  have hMax : u64Max = 18446744073709551615 := rfl
  obtain ⟨date, hCivil, hNumber⟩ := @daysToCivil_eq (time.secs.toNat / 86400) (by omega)
  have hYear : date.year < 10000 := by
    by_contra hLate
    have hYears := daysBeforeYear_eq 10000
    have hBefore := daysBeforeYear_mono (Nat.not_lt.mp hLate)
    have hStart : daysBeforeYear date.year ≤ date.dayNumber := by
      rw [Date.dayNumber, Nat.add_assoc]
      exact Nat.le_add_right _ _
    omega
  refine ⟨⟨date, time, hNumber, hYear⟩, rfl, ?_⟩
  rw [rfc3339, hCivil]
  rfl

/-- Up to the end of the year 9999 the texts of two timestamps compare as their times do. -/
theorem timestamps_ordered (first second : ClockTime)
    (hFirst : first.secs.toNat < 253402300800) (hSecond : second.secs.toNat < 253402300800) :
    ∃ s t : Str, rfc3339 first = some s ∧ rfc3339 second = some t ∧
      (s < t ↔ first.Before second) ∧
      (s = t ↔ first.secs.toNat = second.secs.toNat ∧ first.millis = second.millis) := by
  obtain ⟨former, rfl, hFormer⟩ := rfc3339_eq first hFirst
  obtain ⟨latter, rfl, hLatter⟩ := rfc3339_eq second hSecond
  refine ⟨_, _, hFormer, hLatter, ?_⟩
  have hTotal : former.time.Before latter.time ∨ latter.time.Before former.time ∨
      former.time.secs.toNat = latter.time.secs.toNat ∧
        former.time.millis = latter.time.millis := by
    unfold ClockTime.Before
    omega
  rcases hTotal with hBefore | hAfter | ⟨hSecs, hMillis⟩
  · have hLess := Stamp.text_lt hBefore
    refine ⟨iff_of_true hLess hBefore, iff_of_false (Stamp.ne_of_text_lt hLess) ?_⟩
    unfold ClockTime.Before at hBefore
    omega
  · have hLess := Stamp.text_lt hAfter
    have hNe := (Stamp.ne_of_text_lt hLess).symm
    refine ⟨iff_of_false (List.lt_asymm hLess) ?_, iff_of_false hNe ?_⟩
    · unfold ClockTime.Before at *
      omega
    · unfold ClockTime.Before at hAfter
      omega
  · have hSame := Stamp.text_congr hSecs hMillis
    refine ⟨iff_of_false (hSame ▸ List.lt_irrefl _) ?_, iff_of_true hSame ⟨hSecs, hMillis⟩⟩
    unfold ClockTime.Before
    omega

/-- The last second of a year and the first one of the next. -/
theorem timestamps_ordered_newYear :
    (946684799 < 253402300800 ∧ 946684800 < 253402300800) ∧
    ∃ s t : Str, rfc3339 ⟨946684799, 999, by decide⟩ = some s ∧
      rfc3339 ⟨946684800, 0, by decide⟩ = some t ∧
      (s < t ↔ ClockTime.Before ⟨946684799, 999, by decide⟩ ⟨946684800, 0, by decide⟩) ∧
      (s = t ↔ (946684799 : UInt64).toNat = (946684800 : UInt64).toNat ∧ 999 = 0) :=
  ⟨by decide, timestamps_ordered ⟨946684799, 999, by decide⟩ ⟨946684800, 0, by decide⟩
    (by decide) (by decide)⟩

end Eggserve.Server.Ops
