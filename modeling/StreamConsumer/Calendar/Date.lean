/-!
# Calendar dates

The proleptic Gregorian calendar of the years 1 to 9999. A `Date` exists: its day is a day of its
month. `Date.dayNumber` counts the days since 1 January of year 1, and `Date.ofDayNumber` finds the
date of every count below `Calendar.dayCount`; `dayNumber_ofDayNumber` says that it is the date
asked for.
-/

namespace StreamConsumer

namespace Calendar

/-! ### Years and months -/

/-- Every fourth year is a leap year, of the full centuries every fourth. -/
def IsLeap (year : Nat) : Prop := year % 4 = 0 ∧ (year % 100 ≠ 0 ∨ year % 400 = 0)

/-- Whether a year is a leap year can be decided. -/
instance (year : Nat) : Decidable (IsLeap year) := inferInstanceAs (Decidable (_ ∧ _))

/-- The lengths of the twelve months. -/
def monthLengths (year : Nat) : List Nat :=
  [31, if IsLeap year then 29 else 28, 31, 30, 31, 30, 31, 31, 30, 31, 30, 31]

/-- The length of a month, counted from 1. -/
def daysInMonth (year month : Nat) : Nat := (monthLengths year).getD (month - 1) 0

/-- The number of days in the years before a year. -/
def daysBeforeYear (year : Nat) : Nat :=
  (year - 1) * 365 + (year - 1) / 4 - (year - 1) / 100 + (year - 1) / 400

/-- The days of several months together. -/
def totalDays : List Nat → Nat
  | [] => 0
  | length :: lengths => length + totalDays lengths

/-- The number of days in the months before a month of the same year. -/
def daysBeforeMonth (year month : Nat) : Nat := totalDays ((monthLengths year).take (month - 1))

/-- The number of days in the years 1 to 9999. -/
def dayCount : Nat := daysBeforeYear 10000

/-- The year of a day number. Four hundred years have 146097 days, which gives the year up to one. -/
def yearOf (n : Nat) : Nat :=
  let guess := n * 400 / 146097 + 1
  if n < daysBeforeYear guess then guess - 1
  else if daysBeforeYear (guess + 1) ≤ n then guess + 1
  else guess

/-- The first day is in the year 1. -/
theorem yearOf_pos (n : Nat) : 1 ≤ yearOf n := by
  unfold yearOf
  simp only
  split
  · rename_i h
    simp only [daysBeforeYear] at h
    omega
  · split <;> omega

/-- The year of a day number has begun by that day. -/
theorem daysBeforeYear_yearOf_le (n : Nat) : daysBeforeYear (yearOf n) ≤ n := by
  unfold yearOf
  simp only
  split
  · rename_i h
    simp only [daysBeforeYear] at h ⊢
    omega
  · rename_i h
    split
    · assumption
    · exact Nat.le_of_not_lt h

/-- The year of a day number has not ended by that day. -/
theorem lt_daysBeforeYear_yearOf_succ (n : Nat) : n < daysBeforeYear (yearOf n + 1) := by
  unfold yearOf
  simp only
  split
  · rename_i h
    simpa using h
  · split
    · rename_i h
      simp only [daysBeforeYear] at h ⊢
      omega
    · rename_i h
      exact Nat.lt_of_not_le h

/-- Counting to the next number meets one more multiple of `d` exactly if it is one. -/
theorem div_eq_pred_div_add (d : Nat) {n : Nat} (hn : 1 ≤ n) :
    n / d = (n - 1) / d + if n % d = 0 then 1 else 0 := by
  obtain ⟨m, rfl⟩ : ∃ m, n = m + 1 := ⟨n - 1, by omega⟩
  rw [Nat.add_sub_cancel, Nat.succ_div]
  simp only [Nat.dvd_iff_mod_eq_zero]

/-- A year begins where the year before it ends. -/
theorem daysBeforeYear_succ {year : Nat} (h : 1 ≤ year) :
    daysBeforeYear (year + 1) = daysBeforeYear year + totalDays (monthLengths year) := by
  have h4 := div_eq_pred_div_add 4 h
  have h100 := div_eq_pred_div_add 100 h
  have h400 := div_eq_pred_div_add 400 h
  have hle : (year - 1) / 100 ≤ (year - 1) / 4 := Nat.div_le_div_left (by decide) (by decide)
  have hm4 : year % 100 = 0 → year % 4 = 0 := by omega
  have hm100 : year % 400 = 0 → year % 100 = 0 := by omega
  simp only [monthLengths, daysBeforeYear, totalDays, Nat.add_sub_cancel,
    h4, h100, h400]
  generalize (year - 1) / 4 = a at *
  generalize (year - 1) / 100 = b at *
  generalize (year - 1) / 400 = c at *
  by_cases m4 : year % 4 = 0 <;> by_cases m100 : year % 100 = 0 <;>
    by_cases m400 : year % 400 = 0 <;> simp_all [IsLeap] <;> omega

/-- Later years begin later. -/
theorem daysBeforeYear_mono {a b : Nat} (h : a ≤ b) : daysBeforeYear a ≤ daysBeforeYear b := by
  induction h with
  | refl => exact Nat.le_refl _
  | step _ ih =>
    refine Nat.le_trans ih ?_
    simp only [daysBeforeYear]
    omega

/-- Splits a count of days by lengths: how many lengths fit in whole, and the rest. -/
def splitDays : List Nat → Nat → Nat × Nat
  | [], n => (0, n)
  | length :: lengths, n =>
    if n < length then (0, n)
    else
      let (index, rest) := splitDays lengths (n - length)
      (index + 1, rest)

/-- A day is the days of the pieces before its own and those before it there. -/
theorem totalDays_splitDays (lengths : List Nat) (n : Nat) :
    totalDays (lengths.take (splitDays lengths n).1) + (splitDays lengths n).2 = n := by
  induction lengths generalizing n with
  | nil => simp [splitDays, totalDays]
  | cons length lengths ih =>
    simp only [splitDays]
    split
    · simp [totalDays]
    · have := ih (n - length)
      simp only [List.take_succ_cons, totalDays]
      omega

/-- A day within all pieces is in one of them. -/
theorem splitDays_fst_lt {lengths : List Nat} {n : Nat} (h : n < totalDays lengths) :
    (splitDays lengths n).1 < lengths.length := by
  induction lengths generalizing n with
  | nil => simp [totalDays] at h
  | cons length lengths ih =>
    simp only [splitDays]
    split
    · simp
    · rw [totalDays] at h
      have := ih (n := n - length) (by omega)
      simp only [List.length_cons]
      omega

/-- There are fewer days before it in its piece than the piece has. -/
theorem splitDays_snd_lt {lengths : List Nat} {n : Nat} (h : n < totalDays lengths) :
    (splitDays lengths n).2 < lengths.getD (splitDays lengths n).1 0 := by
  induction lengths generalizing n with
  | nil => simp [totalDays] at h
  | cons length lengths ih =>
    simp only [splitDays]
    split
    · simpa using ‹n < length›
    · rw [totalDays] at h
      simpa using ih (n := n - length) (by omega)

end Calendar

open Calendar

/-- A date that exists. -/
structure Date where
  /-- The year, from 1 to 9999. -/
  year : Nat
  /-- The month, from 1. -/
  month : Nat
  /-- The day, from 1. -/
  day : Nat
  one_le_year : 1 ≤ year
  year_le : year ≤ 9999
  one_le_month : 1 ≤ month
  month_le : month ≤ 12
  one_le_day : 1 ≤ day
  day_le : day ≤ daysInMonth year month
  deriving DecidableEq, Repr

namespace Date

/-- The number of days since 1 January of year 1. -/
def dayNumber (d : Date) : Nat :=
  daysBeforeYear d.year + daysBeforeMonth d.year d.month + (d.day - 1)

/-- The date that lies `n` days after 1 January of year 1. -/
def ofDayNumber (n : Nat) (h : n < dayCount) : Date :=
  have rest_lt : n - daysBeforeYear (yearOf n) < totalDays (monthLengths (yearOf n)) := by
    have := daysBeforeYear_yearOf_le n
    have := lt_daysBeforeYear_yearOf_succ n
    have := daysBeforeYear_succ (yearOf_pos n)
    omega
  let split := splitDays (monthLengths (yearOf n)) (n - daysBeforeYear (yearOf n))
  { year := yearOf n
    month := split.1 + 1
    day := split.2 + 1
    one_le_year := yearOf_pos n
    year_le := by
      have := daysBeforeYear_yearOf_le n
      refine Nat.le_of_not_lt fun hy => ?_
      have := daysBeforeYear_mono (a := 10000) (b := yearOf n) hy
      exact absurd h (by simp only [dayCount]; omega)
    one_le_month := Nat.succ_pos _
    month_le := splitDays_fst_lt rest_lt
    one_le_day := Nat.succ_pos _
    day_le := splitDays_snd_lt rest_lt }

/-- The day number of the date of a day number is that number. -/
theorem dayNumber_ofDayNumber (n : Nat) (h : n < dayCount) : (ofDayNumber n h).dayNumber = n := by
  have hsum := totalDays_splitDays (monthLengths (yearOf n)) (n - daysBeforeYear (yearOf n))
  have := daysBeforeYear_yearOf_le n
  simp only [dayNumber, ofDayNumber, daysBeforeMonth, Nat.add_sub_cancel]
  omega

end Date

end StreamConsumer
